import WarrenSdk.Lib.Frames
import WarrenSdk.NativeHost.Install

/-!
# What an installer leaves

Of the files that are shared, an installer only replaces one by a whole new one, or removes it; of
the others it writes only those that carry its process id. That is what the other installers of the
machine rely on, whatever they do and wherever they are stopped.
-/

namespace WarrenSdk.NativeHost
open Lib

/-! ## The files of one process -/

/-- The paths that only the process with this id writes. -/
inductive Owned (pid : Nat) : Path → Prop
  | beside (dir : Path) (stem : String) : Owned pid (dir ++ ["." ++ stem ++ "-" ++ toString pid])
  | parked (dir : Path) : Owned pid (dir ++ [parkedName pid])

theorem owned_sibling (pid : Nat) (path : Path) (tag : String) :
    Owned pid (sibling pid path tag) := by
  have hname : "." ++ path.getLastD "" ++ "." ++ tag ++ "-" ++ toString pid =
      "." ++ (path.getLastD "" ++ "." ++ tag) ++ "-" ++ toString pid := by
    simp only [String.append_assoc]
  rw [sibling, hname]
  exact .beside ..

theorem toString_injective {i j : Nat} (h : toString i = toString j) : i = j := by
  have hback := congrArg String.toNat? h
  have hnat (n : Nat) : (toString n).toNat? = some n := Nat.toNat?_repr n
  rw [hnat, hnat] at hback
  exact Option.some.inj hback

theorem rtakeWhile_dash (cs : List Char) (n : Nat) :
    (cs ++ '-' :: (toString n).toList).rtakeWhile (· ≠ '-') = (toString n).toList := by
  have hdigits : ∀ c ∈ (toString n).toList.reverse, decide (c ≠ '-') = true := by
    intro c hc
    have hdigit : c.isDigit = true :=
      Nat.isDigit_of_mem_toDigits (by decide : 0 < 10) le_rfl (by simpa using hc)
    rw [decide_eq_true_iff]
    rintro rfl
    exact absurd hdigit (by decide)
  rw [List.rtakeWhile, List.reverse_append, List.reverse_cons, List.append_assoc,
    List.takeWhile_append_of_pos hdigits]
  simp

theorem toList_parkedName (pid : Nat) :
    (parkedName pid).toList =
        PARKED_START.toList ++ ((toString pid).toList ++ PARKED_END.toList) := by
  rw [parkedName, String.toList_append, String.toList_append, List.append_assoc]

theorem toList_beside (stem : String) (pid : Nat) :
    ("." ++ stem ++ "-" ++ toString pid).toList =
      '.' :: (stem.toList ++ '-' :: (toString pid).toList) := by
  simp [String.toList_append]

theorem parkedName_ne_beside (i j : Nat) (stem : String) :
    parkedName i ≠ "." ++ stem ++ "-" ++ toString j := by
  intro h
  have hlist := congrArg String.toList h
  have hstart : PARKED_START.toList = 'w' :: "arren-host-uninstalled-".toList := by decide
  rw [toList_parkedName, toList_beside, hstart] at hlist
  exact absurd (List.cons.inj hlist).1 (by decide)

theorem Owned.pid_eq (h : Owned i path) (h' : Owned j path) : i = j := by
  cases h with
  | beside dir stem =>
    generalize hpath : dir ++ ["." ++ stem ++ "-" ++ toString i] = path at h'
    cases h' with
    | beside dir' stem' =>
      have hname := congrArg String.toList (List.append_singleton_inj.mp hpath).2
      rw [toList_beside, toList_beside] at hname
      have hdigits := congrArg (List.rtakeWhile (· ≠ '-')) (List.cons.inj hname).2
      rw [rtakeWhile_dash, rtakeWhile_dash] at hdigits
      exact toString_injective (String.toList_inj.mp hdigits)
    | parked dir' =>
      exact absurd (List.append_singleton_inj.mp hpath).2.symm (parkedName_ne_beside _ _ _)
  | parked dir =>
    generalize hpath : dir ++ [parkedName i] = path at h'
    cases h' with
    | beside dir' stem' =>
      exact absurd (List.append_singleton_inj.mp hpath).2 (parkedName_ne_beside _ _ _)
    | parked dir' =>
      have hname := congrArg String.toList (List.append_singleton_inj.mp hpath).2
      rw [toList_parkedName, toList_parkedName, List.append_right_inj, List.append_left_inj]
        at hname
      exact toString_injective (String.toList_inj.mp hname)

theorem not_owned_of_name {dir : Path} {name : String} (hhead : name.toList.head? ≠ some '.')
    (hstart : ¬ PARKED_START.toList <+: name.toList) (pid : Nat) : ¬ Owned pid (dir ++ [name]) := by
  intro howned
  generalize hpath : dir ++ [name] = path at howned
  cases howned with
  | beside dir' stem =>
    obtain rfl := (List.append_singleton_inj.mp hpath).2
    exact hhead (by rw [toList_beside]; rfl)
  | parked dir' =>
    obtain rfl := (List.append_singleton_inj.mp hpath).2
    exact hstart ⟨_, (toList_parkedName pid).symm⟩

theorem Platform.Shared.not_owned {p : Platform} (h : p.Shared path) (pid : Nat) :
    ¬ Owned pid path := by
  obtain ⟨dir, name, rfl, hname⟩ := h.eq
  have hnames : ∀ name ∈ SHARED_NAMES, name.toList.head? ≠ some '.' ∧
      ¬ PARKED_START.toList <+: name.toList := by decide
  exact not_owned_of_name (hnames name hname).1 (hnames name hname).2 pid

/-! ## What one process does to the files -/

/-- Of the files that are not owned, shared ones are replaced by what is good, and those in
`removes` are removed. -/
def Leaves (p : Platform) (owned : Path → Prop) (good : Path → Bytes → Prop)
    (removes : Path → Prop) (s t : Machine) : Prop :=
  ∀ path, ¬ owned path → t.1.readFile path = s.1.readFile path ∨
    (∃ body, p.Shared path ∧ good path body ∧ t.1.readFile path = some body) ∨
    removes path ∧ t.1.readFile path = none

variable {p : Platform} {pid : Nat} {good : Path → Bytes → Prop} {removes : Path → Prop}
  {s t : Machine} {c : Change}

theorem Leaves.isPreorder (p : Platform) (owned : Path → Prop) (good : Path → Bytes → Prop)
    (removes : Path → Prop) : IsPreorder Machine (Leaves p owned good removes) where
  refl _ _ _ := .inl rfl
  trans _ _ _ h h' path hpath := by
    rcases h' path hpath with heq | hnew
    · rw [heq]
      exact h path hpath
    · exact .inr hnew

theorem Leaves.mono {owned owned' : Path → Prop} (hle : ∀ path, owned path → owned' path)
    (h : Leaves p owned good removes s t) : Leaves p owned' good removes s t :=
  fun path hpath => h path fun howned => hpath (hle path howned)

theorem leaves_of_eq {owned : Path → Prop} (h : t.1 = s.1) : Leaves p owned good removes s t :=
  fun path _ => .inl (congrArg (Disk.readFile · path) h)

theorem readFile_of_change {s t : Disk} (h : s.Begins c t ∨ s.Does c t)
    (hpath : ¬ Disk.Touches path c) : t.readFile path = s.readFile path :=
  h.elim (·.readFile_of_not_touches hpath) (·.readFile_of_not_touches hpath)

theorem leaves_of_owned (h : s.1.Begins c t.1 ∨ s.1.Does c t.1)
    (hc : ∀ path, Disk.Touches path c → Owned pid path) : Leaves p (Owned pid) good removes s t :=
  fun path hpath => .inl (readFile_of_change h fun htouches => hpath (hc path htouches))

theorem leaves_of_removed {target : Path}
    (h : s.1.Begins (.removeFile target) t.1 ∨ s.1.Does (.removeFile target) t.1)
    (hremoves : removes target) : Leaves p (Owned pid) good removes s t := by
  intro path _
  by_cases heq : path = target
  · subst heq
    rcases h with h | h
    · exact .inl (congrArg (Disk.readFile · path) h)
    · exact .inr (.inr ⟨hremoves, h.removeFile⟩)
  · exact .inl (readFile_of_change h heq)

theorem leaves_of_removedAll {dir : Path}
    (h : s.1.Begins (.removeDirAll dir) t.1 ∨ s.1.Does (.removeDirAll dir) t.1)
    (hremoves : ∀ path, dir <+: path → removes path) : Leaves p (Owned pid) good removes s t := by
  have hthinned : s.1.Thinned dir t.1 := h.elim id (·.1)
  intro path _
  rcases hthinned path with heq | ⟨hunder, hnone⟩
  · exact .inl (Disk.readFile_congr heq)
  · refine .inr (.inr ⟨hremoves path hunder, ?_⟩)
    rw [Disk.readFile, hnone]

theorem leaves_of_renamed {source target : Path}
    (h : s.1.Begins (.rename source target) t.1 ∨ s.1.Does (.rename source target) t.1)
    (hsource : Owned pid source ∨ removes source)
    (htarget : Owned pid target ∨ p.Shared target ∧
      ∀ body, s.1.readFile source = some body → good target body) :
    Leaves p (Owned pid) good removes s t := by
  intro path hpath
  rcases h with h | h
  · exact .inl (congrArg (Disk.readFile · path) h)
  by_cases heq : path = target
  · subst heq
    obtain ⟨hshared, hgood⟩ := htarget.resolve_left hpath
    obtain ⟨body, hbody, -⟩ := id h
    exact .inr (.inl ⟨body, hshared, hgood body hbody, h.rename hbody⟩)
  by_cases heq' : path = source
  · subst heq'
    refine .inr (.inr ⟨hsource.resolve_left hpath, ?_⟩)
    obtain ⟨body, -, -, ht⟩ := h
    rw [Disk.readFile, ht, Function.update_of_ne heq, Function.update_self]
  · exact .inl (readFile_of_change (.inr h) (not_or.mpr ⟨heq', heq⟩))

/-! ## What the commands are about -/

/-- The files that a sweep may remove. -/
def Swept (dir path : Path) : Prop :=
  ∃ name age, isLeftover name age = true ∧ path = dir ++ [name]

theorem not_swept (h : p.Shared path) (dir : Path) : ¬ Swept dir path := by
  have hhead : ∀ name ∈ SHARED_NAMES, name.toList.head? ≠ some '.' := by decide
  rintro ⟨name, age, hleftover, rfl⟩
  obtain ⟨dir', name', heq, hname⟩ := h.eq
  obtain rfl := (List.append_singleton_inj.mp heq).2
  rw [isLeftover, Bool.and_eq_true] at hleftover
  exact hhead _ hname (of_decide_eq_true hleftover.1)

theorem sibling_ne {tag tag' : String} (h : tag ≠ tag') (path : Path) :
    sibling pid path tag ≠ sibling pid path tag' := by
  intro heq
  have hname := congrArg String.toList (List.append_singleton_inj.mp heq).2
  simp only [String.toList_append, List.append_assoc, List.append_right_inj,
    List.append_left_inj] at hname
  exact h (String.toList_inj.mp hname)

/-- What placing the binary touches. -/
def Placed (p : Platform) (path : Path) : Prop := path = p.binaryPath ∨ Swept p.helperDir path

def IsManifest (p : Platform) (path : Path) : Prop := ∃ b ∈ browsers p, path = b.manifestFile p

theorem manifestFile_ne_record (b : Browser) (p : Platform) :
    b.manifestFile p ≠ p.extraIdsPath := by
  obtain ⟨dir, name, heq, hname⟩ := b.manifestFile_eq p
  rw [heq]
  intro h
  obtain rfl := (List.append_singleton_inj.mp h).2
  exact absurd hname (by decide)

theorem manifestFile_ne_binary (b : Browser) (p : Platform) : b.manifestFile p ≠ p.binaryPath := by
  obtain ⟨dir, name, heq, hname⟩ := b.manifestFile_eq p
  have hnames : ∀ name ∈ [MANIFEST_NAME, Platform.windowsManifestName .chromium,
      Platform.windowsManifestName .firefox], name ≠ "warren-host" ∧ name ≠ "warren-host.exe" := by
    decide
  rw [heq]
  intro h
  obtain rfl := (List.append_singleton_inj.mp h).2
  have hne := hnames _ hname
  unfold Platform.binaryName at hne
  split at hne
  · exact hne.2 rfl
  · exact hne.1 rfl

theorem record_ne_binary (p : Platform) : p.extraIdsPath ≠ p.binaryPath := by
  intro h
  have hname := (List.append_singleton_inj.mp h).2
  unfold Platform.binaryName at hname
  split at hname <;> exact absurd hname (by decide)

/-- The files that an uninstall is to remove. -/
def Removed (p : Platform) (path : Path) : Prop := IsManifest p path ∨ p.helperDir <+: path

/-- The manifests can be looked for, and removed where they are. -/
def RemovesManifests (faulty : FileOp → Prop) (p : Platform) : Prop :=
  ∀ path, IsManifest p path → ¬ faulty (.change (.removeFile path))

/-- What may be read of a file. -/
def ReadOf (faulty : FileOp → Prop) (path : Path) (s : Machine) (r : Option Bytes) : Prop :=
  r = s.1.readFile path ∨ faulty (.read path) ∧ r = none

/-- The ids that an install records over what it read. -/
def recordOver (S : SerdeJson) (extra : ExtraIds) (r : Option Bytes) : ExtraIds :=
  (ExtraIds.load S r).merged extra

theorem validateIds_ok (h : validateIds extra = .ok ()) : extra.Valid := by
  unfold validateIds at h
  split at h
  · cases h
  · next hext =>
    split at h
    · cases h
    · next hgecko =>
      constructor
      · intro id hid
        simpa using List.find?_eq_none.mp hext id hid
      · intro id hid
        simpa using List.find?_eq_none.mp hgecko id hid

/-! ## Surroundings -/

/-- What the other processes of the machine do, and what this one may. -/
structure Neighbours (p : Platform) (pid : Nat) where
  R : Machine → Machine → Prop
  I : Machine → Prop
  good : Path → Bytes → Prop
  removes : Path → Prop
  kept : Path → Prop
  preorder : IsPreorder Machine R
  rely_inv {s t : Machine} : R s t → I s → I t
  leaves_inv {s t : Machine} : I s → Leaves p (Owned pid) good removes s t → I t
  /-- The others do not write what this process owns. -/
  own {s t : Machine} : R s t → Owned pid path → t.1.readFile path = some body →
    s.1.readFile path = some body
  kept_eq {s t : Machine} : R s t → kept path → t.1.readFile path = s.1.readFile path
  kept_not_owned : kept path → ¬ Owned pid path

namespace Neighbours
variable (N : Neighbours p pid) (faulty : FileOp → Prop)

abbrev setting : Setting Machine Path (Option Bytes) where
  read s path := s.1.readFile path
  R := N.R
  G := Leaves p (Owned pid) N.good N.removes
  I := N.I
  kept := N.kept
  preorder := N.preorder
  rely_inv := N.rely_inv
  guarantee_inv := N.leaves_inv
  kept_eq := N.kept_eq

abbrev Runs {α : Type} (touched : Path → Prop) (C : α → Machine → Prop) (prog : HostProg α)
    (s : Machine) : Prop :=
  N.setting.Runs (hostEffects faulty) touched C prog s

variable {N faulty} {touched : Path → Prop}

theorem runs_change {action : String} {path : Path} {C : Unit → Machine → Prop} (hI : N.I s)
    (hleaves : ∀ t u : Machine, N.R s t → N.I t → (t.1.Begins c u.1 ∨ t.1.Does c u.1) →
      Leaves p (Owned pid) N.good N.removes t u)
    (htouched : ∀ path, N.kept path → Disk.Touches path c → touched path)
    (hC : ∀ t u v : Machine, N.R s t → t.1.Does c u.1 → N.R u v → C () v) :
    N.Runs faulty touched C (change action path c) s := by
  have hframe {t u : Machine} (h : t.1.Begins c u.1 ∨ t.1.Does c u.1) :
      N.setting.Frame touched t u :=
    fun path hkept hpath => readFile_of_change h fun htouches => hpath
      (htouched path hkept htouches)
  apply Setting.Runs.call hI
  · rintro t u ht hIt ⟨hu, -⟩
    exact hleaves t u ht hIt hu
  · rintro t r u ht hIt ⟨⟨rfl, hd⟩ | ⟨⟨e, rfl⟩, -, hb⟩, -⟩
    · exact ⟨hleaves t u ht hIt (.inr hd), hframe (.inr hd),
        fun hIu => .pure hIu fun v hv => hC t u v ht hd hv⟩
    · exact ⟨hleaves t u ht hIt (.inl hb), hframe (.inl hb), fun hIu => .fail hIu⟩

/-- A change whose failure is looked at. -/
theorem runs_attempt {action : String} {path : Path} {C : Except InstallError Unit → Machine → Prop}
    (hI : N.I s)
    (hleaves : ∀ t u : Machine, N.R s t → N.I t → (t.1.Begins c u.1 ∨ t.1.Does c u.1) →
      Leaves p (Owned pid) N.good N.removes t u)
    (htouched : ∀ path, N.kept path → Disk.Touches path c → touched path)
    (hok : ∀ t u v : Machine, N.R s t → t.1.Does c u.1 → N.R u v → C (.ok ()) v)
    (herror : ∀ (t u v : Machine) e, N.R s t → faulty (.change c) ∨ t.1.Blocked c →
      t.1.Begins c u.1 → N.R u v → C (.error e) v) :
    N.Runs faulty touched C (change action path c).attempt s := by
  have hframe {t u : Machine} (h : t.1.Begins c u.1 ∨ t.1.Does c u.1) :
      N.setting.Frame touched t u :=
    fun path hkept hpath => readFile_of_change h fun htouches => hpath
      (htouched path hkept htouches)
  apply Setting.Runs.call hI
  · rintro t u ht hIt ⟨hu, -⟩
    exact hleaves t u ht hIt hu
  · rintro t r u ht hIt ⟨⟨rfl, hd⟩ | ⟨⟨e, rfl⟩, hfails, hb⟩, -⟩
    · exact ⟨hleaves t u ht hIt (.inr hd), hframe (.inr hd),
        fun hIu => .pure hIu fun v hv => hok t u v ht hd hv⟩
    · exact ⟨hleaves t u ht hIt (.inl hb), hframe (.inl hb),
        fun hIu => .pure hIu fun v hv => herror t u v _ ht hfails hb hv⟩

theorem runs_tryChange {C : Unit → Machine → Prop} (hI : N.I s)
    (hleaves : ∀ t u : Machine, N.R s t → N.I t → (t.1.Begins c u.1 ∨ t.1.Does c u.1) →
      Leaves p (Owned pid) N.good N.removes t u)
    (htouched : ∀ path, N.kept path → Disk.Touches path c → touched path)
    (hC : ∀ t u v : Machine, N.R s t → (t.1.Begins c u.1 ∨ t.1.Does c u.1) → N.R u v → C () v) :
    N.Runs faulty touched C (tryChange c) s := by
  have hdone {t u : Machine} (ht : N.R s t) (hIt : N.I t)
      (h : t.1.Begins c u.1 ∨ t.1.Does c u.1) : Leaves p (Owned pid) N.good N.removes t u ∧
        N.setting.Frame touched t u := by
    refine ⟨hleaves t u ht hIt h, fun path hkept hpath => ?_⟩
    exact readFile_of_change h fun htouches => hpath (htouched path hkept htouches)
  apply Setting.Runs.call hI
  · rintro t u ht hIt ⟨hu, -⟩
    exact (hdone ht hIt hu).1
  · rintro t r u ht hIt ⟨hr, -⟩
    have h : t.1.Begins c u.1 ∨ t.1.Does c u.1 := hr.elim (.inr ·.2) (.inl ·.2.2)
    exact ⟨(hdone ht hIt h).1, (hdone ht hIt h).2,
      fun hIu => .pure hIu fun v hv => hC t u v ht h hv⟩

/-- An operation that changes nothing. -/
theorem runs_ask {α : Type} {op : HostOp} {k : HostRet op → HostProg α} {C : α → Machine → Prop}
    (hI : N.I s) (hstops : ∀ t u, (hostEffects faulty).stops op t u → u.1 = t.1)
    (hreturns : ∀ t r u, N.R s t → N.I t → (hostEffects faulty).returns op t r u → u.1 = t.1 ∧
      N.Runs faulty touched C (k r) u) : N.Runs faulty touched C (.call op k) s := by
  apply Setting.Runs.call hI
  · intro t u ht hIt hu
    exact leaves_of_eq (hstops t u hu)
  · intro t r u ht hIt hr
    obtain ⟨heq, hk⟩ := hreturns t r u ht hIt hr
    exact ⟨leaves_of_eq heq, fun path _ _ => congrArg (Disk.readFile · path) heq, fun _ => hk⟩

theorem runs_createDirAll (action : String) (path dir : Path) (hI : N.I s) :
    N.Runs faulty touched (fun _ _ => True) (change action path (.createDirAll dir)) s :=
  runs_change hI (fun _ _ _ _ h => leaves_of_owned h nofun) (fun _ _ => nofun)
    fun _ _ _ _ _ _ => trivial

theorem kept_ne {own q : Path} (hq : N.kept q) (hown : Owned pid own) : q ≠ own := by
  rintro rfl
  exact N.kept_not_owned hq hown

/-! ## Writing a file -/

/-- A shared file is replaced whole. -/
theorem runs_writeFile {path : Path} {body : Bytes} (hI : N.I s) (hshared : p.Shared path)
    (hgood : N.good path body) :
    N.Runs faulty (· = path)
      (fun _ t => N.kept path → t.1.readFile path = some body) (writeFile pid path body) s := by
  have htmp : Owned pid (sibling pid path "tmp") := owned_sibling ..
  refine (runs_createDirAll _ _ _ hI).bind fun _ s hI _ _ => ?_
  -- what this process wrote stays, unless another one removes it
  have hwrite : N.Runs faulty (· = path)
      (fun _ t => ∀ b, t.1.readFile (sibling pid path "tmp") = some b → b = body)
      (change "write" (sibling pid path "tmp") (.write (sibling pid path "tmp") body)) s := by
    apply runs_change hI
    · rintro t u - - h
      exact leaves_of_owned h fun _ heq => heq ▸ htmp
    · intro q hq htouches
      exact absurd htouches (kept_ne hq htmp)
    · rintro t u v - hd hv b hb
      have hwritten := hd.readFile_self.symm.trans (N.own hv htmp hb)
      exact (Option.some.inj hwritten).symm
  refine hwrite.bind fun _ s hI _ hstaged => ?_
  have hstable {t : Machine} (ht : N.R s t) {b : Bytes}
      (hb : t.1.readFile (sibling pid path "tmp") = some b) : b = body :=
    hstaged b (N.own ht htmp hb)
  apply runs_change hI
  · intro t u ht _ h
    refine leaves_of_renamed h (.inl htmp) (.inr ⟨hshared, fun b hb => ?_⟩)
    rwa [hstable ht hb]
  · rintro q hq (heq | heq)
    · exact absurd heq (kept_ne hq htmp)
    · exact heq
  · intro t u v ht hd hv hkept
    obtain ⟨b, hb, -⟩ := id hd
    rw [N.kept_eq hv hkept, hd.rename hb, hstable ht hb]

/-! ## Placing the binary -/

theorem runs_existsAt (path : Path) (hI : N.I s) :
    N.Runs faulty touched (fun _ _ => True) (existsAt path) s := by
  apply runs_ask hI
  · rintro t u ⟨hu, -⟩
    exact hu
  · rintro t r u ht hIt ⟨⟨hu, -⟩, hrest⟩
    have heq : u = t := Prod.ext hu hrest
    subst heq
    exact ⟨rfl, .pure hIt fun _ _ => trivial⟩

theorem runs_sameFile (a b : Path) (hI : N.I s) :
    N.Runs faulty touched (fun same _ => same = true → a = b) (sameFile a b) s := by
  refine (runs_existsAt a hI).bind fun there s hI _ _ => ?_
  cases there with
  | false => exact .pure hI fun _ _ => nofun
  | true =>
    refine (runs_existsAt b hI).bind fun there s hI _ _ => ?_
    cases there with
    | false => exact .pure hI fun _ _ => nofun
    | true => exact .pure hI fun _ _ => of_decide_eq_true

/-- What was staged is good, and a copy of `source` if that is kept. -/
def Staged (N : Neighbours p pid) (source tmp : Path) (s t : Machine) : Prop :=
  ∀ b, t.1.readFile tmp = some b → N.good p.binaryPath b ∧
    (N.kept source → s.1.readFile source = some b)

theorem Staged.of_rely {source tmp : Path} {s t u : Machine} (htmp : Owned pid tmp)
    (h : Staged N source tmp s t) (hu : N.R t u) : Staged N source tmp s u :=
  fun b hb => h b (N.own hu htmp hb)

/-- What an install of `source` may put in the place of the binary. -/
def Images (N : Neighbours p pid) (source : Path) : Prop :=
  ∀ u, N.I u → ∀ b, u.1.readFile source = some b ∨ u.1.readFile p.binaryPath = some b →
    N.good p.binaryPath b

theorem runs_stageCopy {source tmp : Path} (hI : N.I s) (himages : Images N source)
    (htmp : Owned pid tmp) :
    N.Runs faulty (fun _ => False) (fun _ t => Staged N source tmp s t)
      (stageCopy p.os source tmp) s := by
  have hcopy : N.Runs faulty (fun _ => False) (fun _ t => Staged N source tmp s t)
      (change "copy the helper to" tmp (.copy source tmp)) s := by
    apply runs_change hI
    · rintro t u - - h
      exact leaves_of_owned h fun _ heq => heq ▸ htmp
    · intro q hq htouches
      exact kept_ne hq htmp htouches
    · rintro t u v ht ⟨b, hb, hputs⟩ hv b' hb'
      obtain rfl : b = b' := Option.some.inj (hputs.readFile_self.symm.trans (N.own hv htmp hb'))
      refine ⟨himages t (N.rely_inv ht hI) b (.inl hb), fun hkept => ?_⟩
      rw [← N.kept_eq ht hkept, hb]
  refine hcopy.bind fun _ t hI _ hstaged => ?_
  split
  · apply runs_ask hI
    · rintro u v ⟨-, hv⟩
      exact hv
    · rintro u r v hu hIu ⟨hrest, hv⟩
      have heq : v = u := Prod.ext hv hrest
      subst heq
      refine ⟨rfl, ?_⟩
      cases r with
      | error e => exact .fail hIu
      | ok _ => exact .pure hIu fun w hw => (hstaged.of_rely htmp hu).of_rely htmp hw
  · exact .pure hI fun u hu => hstaged.of_rely htmp hu

theorem runs_sweepLeftovers {dir : Path} (hI : N.I s)
    (hswept : ∀ path, Swept dir path → N.removes path)
    (htouched : ∀ path, Swept dir path → touched path) :
    N.Runs faulty touched (fun _ _ => True) (sweepLeftovers dir) s := by
  have hlist : N.Runs faulty touched (fun _ _ => True) (list dir) s := by
    apply runs_ask hI
    · rintro t u ⟨hu, -⟩
      exact hu
    · rintro t r u ht hIt ⟨⟨hu, -⟩, hrest⟩
      have heq : u = t := Prod.ext hu hrest
      subst heq
      exact ⟨rfl, .pure hIt fun _ _ => trivial⟩
  refine hlist.bind fun entries s hI _ _ => ?_
  cases entries with
  | none => exact .pure hI fun _ _ => trivial
  | some entries =>
    refine Setting.Runs.foldM (J := fun _ _ _ => True) hI (fun _ _ _ _ _ => id) trivial ?_
    rintro _ entry entries s hI -
    split
    · next hleftover =>
      have hentry : Swept dir (dir ++ [entry.1]) := ⟨entry.1, entry.2, hleftover, rfl⟩
      apply runs_tryChange hI
      · rintro t u - - h
        exact leaves_of_removed h (hswept _ hentry)
      · rintro q - rfl
        exact htouched _ hentry
      · exact fun _ _ _ _ _ _ => trivial
    · exact .pure hI fun _ _ => trivial

/-- What an install of `source` may do to the binary, and to what is left over. -/
structure Placing (N : Neighbours p pid) (source : Path) : Prop where
  images : Images N source
  aside : p.os = .windows → N.removes p.binaryPath
  swept : ∀ path, Swept p.helperDir path → N.removes path

/-- The binary is there, and a copy of `source` if nobody else changes either. -/
def Copied (N : Neighbours p pid) (source : Path) (s t : Machine) : Prop :=
  N.kept p.binaryPath → ∃ b, t.1.readFile p.binaryPath = some b ∧
    (N.kept source → s.1.readFile source = some b)

theorem Copied.of_eq {source : Path} {s t u : Machine} (h : Copied N source s t)
    (heq : N.kept p.binaryPath → u.1.readFile p.binaryPath = t.1.readFile p.binaryPath) :
    Copied N source s u := by
  intro hkept
  rw [heq hkept]
  exact h hkept

/-- The old binary, if it was moved aside. -/
def Parked (N : Neighbours p pid) (aside : Path) (there : Bool) (t : Machine) : Prop :=
  there = true → ∀ b, t.1.readFile aside = some b → N.good p.binaryPath b

theorem runs_giveUp {tmp : Path} {e : InstallError} {C : Unit → Machine → Prop} (hI : N.I s)
    (hown : Owned pid tmp) : N.Runs faulty touched C (giveUp tmp e) s := by
  have hremove : N.Runs faulty touched (fun _ _ => True) (tryChange (.removeFile tmp)) s := by
    apply runs_tryChange hI
    · rintro t u - - h
      exact leaves_of_owned h fun _ heq => heq ▸ hown
    · intro q hq htouches
      exact absurd htouches (kept_ne hq hown)
    · exact fun _ _ _ _ _ _ => trivial
  exact hremove.bind fun _ t hI _ _ => .fail hI

section
variable {source tmp aside : Path} {s₀ : Machine}

theorem runs_movesAside (hI : N.I s) (hown : Owned pid tmp) (hstaged : Staged N source tmp s₀ s) :
    N.Runs faulty touched (fun there t => (there = true → p.os = .windows) ∧
      Staged N source tmp s₀ t) (movesAside p.os p.binaryPath) s := by
  unfold movesAside
  split
  · next hos =>
    apply runs_ask hI
    · rintro t u ⟨hu, -⟩
      exact hu
    · rintro t r u ht hIt ⟨⟨hu, -⟩, hrest⟩
      have heq : u = t := Prod.ext hu hrest
      subst heq
      exact ⟨rfl, .pure hIt fun v hv => ⟨fun _ => hos, (hstaged.of_rely hown ht).of_rely hown hv⟩⟩
  · exact .pure hI fun t ht => ⟨nofun, hstaged.of_rely hown ht⟩

theorem runs_moveAside {there : Bool} (hI : N.I s) (h : Placing N source)
    (hos : there = true → p.os = .windows) (hown : Owned pid tmp) (haside : Owned pid aside)
    (hne : tmp ≠ aside) (hstaged : Staged N source tmp s₀ s) :
    N.Runs faulty (Placed p) (fun moved t => moved = .ok () → Staged N source tmp s₀ t ∧
      Parked N aside there t) (moveAside there p.binaryPath aside) s := by
  unfold moveAside
  split
  · next hthere =>
    apply runs_attempt hI
    · rintro t u - - hd
      exact leaves_of_renamed hd (.inr (h.aside (hos hthere))) (.inl haside)
    · rintro q hq (heq | heq)
      · exact .inl heq
      · exact absurd heq (kept_ne hq haside)
    · intro t u v ht hd hv _
      have hneTarget : tmp ≠ p.binaryPath := by
        rintro rfl
        exact Platform.Shared.binary.not_owned pid hown
      have hsame : u.1.readFile tmp = t.1.readFile tmp :=
        readFile_of_change (.inr hd) (not_or.mpr ⟨hneTarget, hne⟩)
      refine ⟨fun b hb => hstaged.of_rely hown ht b ?_, fun _ b hb => ?_⟩
      · rw [← hsame]
        exact N.own hv hown hb
      · obtain ⟨b', hb', -⟩ := id hd
        have hmoved := (hd.rename hb').symm.trans (N.own hv haside hb)
        rw [← Option.some.inj hmoved]
        exact h.images t (N.rely_inv ht hI) b' (.inr hb')
    · exact fun _ _ _ _ _ _ _ _ => nofun
  · next hthere =>
    exact .pure hI fun t ht _ => ⟨hstaged.of_rely hown ht, fun h => absurd h hthere⟩

theorem runs_moveBack {there : Bool} (hI : N.I s) (haside : Owned pid aside)
    (hparked : Parked N aside there s) :
    N.Runs faulty (Placed p) (fun _ _ => True) (moveBack there p.binaryPath aside) s := by
  unfold moveBack
  split
  · next hthere =>
    apply runs_tryChange hI
    · intro t u ht _ hd
      exact leaves_of_renamed hd (.inl haside)
        (.inr ⟨.binary, fun b hb => hparked hthere b (N.own ht haside hb)⟩)
    · rintro q hq (heq | heq)
      · exact absurd heq (kept_ne hq haside)
      · exact .inl heq
    · exact fun _ _ _ _ _ _ => trivial
  · exact .pure hI fun _ _ => trivial

theorem runs_swapIn (hI : N.I s) (h : Placing N source)
    (htmp : tmp = sibling pid p.binaryPath "new") (hstaged : Staged N source tmp s₀ s) :
    N.Runs faulty (Placed p) (fun _ t => Copied N source s₀ t)
      (swapIn pid p.os p.binaryPath tmp) s := by
  have hown : Owned pid tmp := htmp ▸ owned_sibling ..
  generalize hname : sibling pid p.binaryPath "old" = aside
  have haside : Owned pid aside := hname ▸ owned_sibling ..
  have hne : tmp ≠ aside := by
    rw [htmp, ← hname]
    exact sibling_ne (by decide) _
  unfold swapIn
  rw [hname]
  refine (runs_movesAside hI hown hstaged).bind fun there s hI _ ⟨hos, hstaged⟩ => ?_
  refine (runs_moveAside hI h hos hown haside hne hstaged).bind fun moved s hI _ hmoved => ?_
  cases moved with
  | error e => exact runs_giveUp hI hown
  | ok _ =>
  obtain ⟨hstaged, hparked⟩ := hmoved rfl
  have hswap : N.Runs faulty (Placed p) (fun x t => (x = .ok () → Copied N source s₀ t) ∧
      (x ≠ .ok () → Parked N aside there t))
      (change "install" p.binaryPath (.rename tmp p.binaryPath)).attempt s := by
    apply runs_attempt hI
    · intro t u ht _ hd
      exact leaves_of_renamed hd (.inl hown)
        (.inr ⟨.binary, fun b hb => (hstaged b (N.own ht hown hb)).1⟩)
    · rintro q hq (heq | heq)
      · exact absurd heq (kept_ne hq hown)
      · exact .inl heq
    · intro t u v ht hd hv
      refine ⟨fun _ hkept => ?_, fun hne => absurd rfl hne⟩
      obtain ⟨b, hb, -⟩ := id hd
      refine ⟨b, ?_, (hstaged b (N.own ht hown hb)).2⟩
      rw [N.kept_eq hv hkept, hd.rename hb]
    · rintro t u v e ht - hu hv
      refine ⟨nofun, fun _ hthere b hb => ?_⟩
      have hsame : u.1 = t.1 := hu
      have hb' := N.own hv haside hb
      rw [hsame] at hb'
      exact hparked hthere b (N.own ht haside hb')
  refine hswap.bind fun x s hI _ ⟨hok, herror⟩ => ?_
  cases x with
  | error e =>
    have hremove : N.Runs faulty (Placed p) (fun _ t => Parked N aside there t)
        (tryChange (.removeFile tmp)) s := by
      apply runs_tryChange hI
      · rintro t u - - hd
        exact leaves_of_owned hd fun _ heq => heq ▸ hown
      · intro q hq htouches
        exact absurd htouches (kept_ne hq hown)
      · intro t u v ht hd hv hthere b hb
        have hsame : u.1.readFile aside = t.1.readFile aside := readFile_of_change hd (Ne.symm hne)
        have hb' := N.own hv haside hb
        rw [hsame] at hb'
        exact herror nofun hthere b (N.own ht haside hb')
    exact hremove.bind fun _ s hI _ hparked =>
      (runs_moveBack hI haside hparked).bind fun _ t hI _ _ => .fail hI
  | ok _ =>
    have hmarks : N.Runs faulty (Placed p) (fun _ t => Copied N source s₀ t)
        (clearDownloadMarks p.binaryPath) s := by
      apply runs_ask hI
      · rintro u v ⟨-, hv⟩
        exact hv
      · rintro u r v hu hIu ⟨hrest, hv⟩
        have heq : v = u := Prod.ext hv hrest
        subst heq
        exact ⟨rfl, .pure hIu fun w hw => (hok rfl).of_eq fun hkept =>
          (N.kept_eq hw hkept).trans (N.kept_eq hu hkept)⟩
    refine hmarks.bind fun _ s hI _ hcopied => ?_
    have hdir : p.binaryPath.dropLast = p.helperDir := List.dropLast_concat
    rw [hdir]
    refine (runs_sweepLeftovers hI h.swept fun _ => id).mono (fun _ => .inr) ?_
    intro _ t _ hframe _
    exact hcopied.of_eq fun hkept => hframe _ hkept (not_swept .binary _)

theorem runs_placeBinary (hI : N.I s) (h : Placing N source) :
    N.Runs faulty (Placed p) (fun _ t => source ≠ p.binaryPath → Copied N source s t)
      (placeBinary pid p.os source p.binaryPath) s := by
  have hown : Owned pid (sibling pid p.binaryPath "new") := owned_sibling ..
  have hsame : N.Runs faulty (Placed p) (fun same t => (same = true → source = p.binaryPath) ∧
      N.setting.Frame (fun _ => False) s t) (sameFile source p.binaryPath) s :=
    (runs_sameFile source p.binaryPath hI).mono (fun _ => False.elim)
      fun _ _ _ hframe hC => ⟨hC, hframe⟩
  refine hsame.bind fun same s₁ hI _ ⟨hsource, hframe₁⟩ => ?_
  cases same with
  | true => exact .pure hI fun _ _ hne => absurd (hsource rfl) hne
  | false =>
  have hdir : N.Runs faulty (Placed p) (fun _ t => N.setting.Frame (fun _ => False) s₁ t)
      (change "create" p.binaryPath.dropLast (.createDirAll p.binaryPath.dropLast)) s₁ :=
    (runs_createDirAll _ _ _ hI).mono (fun _ => False.elim) fun _ _ _ hframe _ => hframe
  refine hdir.bind fun _ s₂ hI _ hframe₂ => ?_
  refine ((runs_stageCopy hI h.images hown).mono (fun _ => False.elim)
    fun _ _ _ _ hC => hC).attempt.bind fun staged s₃ hI _ hstaged => ?_
  cases staged with
  | error e => exact runs_giveUp hI hown
  | ok _ =>
    refine (runs_swapIn hI h rfl (hstaged () rfl)).mono (fun _ => id) ?_
    intro _ t _ _ hcopied _ hkept
    obtain ⟨b, hb, hsource⟩ := hcopied hkept
    refine ⟨b, hb, fun hkeptSource => ?_⟩
    have heq₁ := hframe₁ source hkeptSource id
    have heq₂ := hframe₂ source hkeptSource id
    exact heq₁.symm.trans (heq₂.symm.trans (hsource hkeptSource))

end

/-! ## An install -/

section
variable {S : SerdeJson} {channel : Channel} {source : Path} {extra : ExtraIds}

/-- What the first steps of an install may do. -/
structure Recording (N : Neighbours p pid) (faulty : FileOp → Prop) (S : SerdeJson) (source : Path)
    (extra : ExtraIds) : Prop extends Placing N source where
  record : extra.Valid → ∀ s, N.I s → ∀ r, ReadOf faulty p.extraIdsPath s r →
    N.good p.extraIdsPath (toVecPretty (recordOver S extra r).toJson)

theorem runs_readFile (path : Path) (hI : N.I s) :
    N.Runs faulty touched (fun r _ => ∃ u, N.I u ∧ N.R s u ∧ ReadOf faulty path u r)
      (readFile path) s := by
  apply runs_ask hI
  · rintro t u ⟨hu, -⟩
    exact hu
  · rintro t r u ht hIt ⟨⟨hu, hr⟩, hrest⟩
    have heq : u = t := Prod.ext hu hrest
    subst heq
    exact ⟨rfl, .pure hIt fun _ _ => ⟨u, hIt, ht, hr⟩⟩

theorem runs_selectBrowsers (all : List Browser) (hI : N.I s) :
    N.Runs faulty touched (fun selected _ => ∀ b ∈ selected.1, b ∈ all) (selectBrowsers all) s := by
  -- what was found, and what is left to look at
  have hfound : N.Runs faulty touched (fun found _ => ∀ b ∈ found, b ∈ all)
      (Prog.foldM (fun found (b : Browser) => do
        return if ← existsAt b.profile then found ++ [b] else found) [] all) s := by
    refine (Setting.Runs.foldM (J := fun found rest _ => ∀ b ∈ found ++ rest, b ∈ all) hI
      (fun _ _ _ _ _ => id) (fun _ => id) ?_).mono (fun _ => id) ?_
    · intro found b rest s hI hall
      refine (runs_existsAt b.profile hI).bind fun there s hI _ _ => .pure hI fun _ _ => ?_
      intro c hc
      apply hall
      rcases List.mem_append.mp hc with hc | hc
      · split at hc
        · rcases List.mem_append.mp hc with hc | hc
          · exact List.mem_append_left _ hc
          · rw [List.mem_singleton.mp hc]
            exact List.mem_append_right _ List.mem_cons_self
        · exact List.mem_append_left _ hc
      · exact List.mem_append_right _ (List.mem_cons_of_mem _ hc)
    · intro found t _ _ hall b hb
      exact hall b (List.mem_append_left _ hb)
  refine hfound.bind fun found s hI _ hall => .pure hI fun _ _ => ?_
  split
  · exact fun _ => id
  · exact hall

theorem runs_register {record : ExtraIds} {b : Browser} (hI : N.I s) (hb : b ∈ browsers p)
    (hgood : N.good (b.manifestFile p) (manifestBody channel p b.family record)) :
    N.Runs faulty (· = b.manifestFile p) (fun _ t => N.kept (b.manifestFile p) →
        t.1.readFile (b.manifestFile p) = some (manifestBody channel p b.family record))
      (register pid channel p record b) s := by
  refine (runs_writeFile hI (.manifest hb) hgood).bind fun _ s hI _ hwritten => ?_
  split
  · apply runs_ask hI
    · rintro t u ⟨-, hu⟩
      exact hu
    · rintro t r u ht hIt ⟨-, hu⟩
      have hIu : N.I u := N.leaves_inv hIt (leaves_of_eq hu)
      refine ⟨hu, ?_⟩
      cases r with
      | error e => exact .fail hIu
      | ok _ =>
        refine .pure hIu fun v hv hkept => ?_
        rw [N.kept_eq hv hkept, hu, N.kept_eq ht hkept, hwritten hkept]
  · exact .pure hI fun t ht hkept => (N.kept_eq ht hkept).trans (hwritten hkept)

/-- The manifest of a browser is there, if nobody else changes it. -/
def Registered (N : Neighbours p pid) (channel : Channel) (record : ExtraIds) (b : Browser)
    (t : Machine) : Prop :=
  N.kept (b.manifestFile p) →
    t.1.readFile (b.manifestFile p) = some (manifestBody channel p b.family record)

theorem runs_registerEach {record : ExtraIds} {targets : List Browser} (hI : N.I s)
    (htargets : ∀ b ∈ targets, b ∈ browsers p)
    (hgood : ∀ b ∈ browsers p, N.good (b.manifestFile p) (manifestBody channel p b.family record)) :
    N.Runs faulty (IsManifest p) (fun _ t => ∀ b ∈ targets, Registered N channel record b t)
      (Prog.foldM (fun () b => register pid channel p record b) () targets) s := by
  refine (Setting.Runs.foldM (J := fun _ rest t => (∀ b ∈ rest, b ∈ browsers p) ∧
    ∀ b ∈ targets, b ∈ rest ∨ Registered N channel record b t) hI ?_
    ⟨htargets, fun b hb => .inl hb⟩ ?_).mono (fun _ => id) ?_
  · rintro _ rest s t ht ⟨hrest, hall⟩
    exact ⟨hrest, fun b hb => (hall b hb).imp_right fun h hkept => (N.kept_eq ht hkept).trans
      (h hkept)⟩
  · rintro _ c rest s hI ⟨hrest, hall⟩
    have hc := hrest c List.mem_cons_self
    refine (runs_register hI hc (hgood c hc)).mono (fun _ heq => ⟨c, hc, heq⟩) ?_
    intro _ t _ hframe hwritten
    refine ⟨fun b hb => hrest b (List.mem_cons_of_mem _ hb), fun b hb => ?_⟩
    by_cases hpath : b.manifestFile p = c.manifestFile p
    · right
      intro hkept
      rw [hpath] at hkept ⊢
      rw [hwritten hkept, family_of_manifestFile (htargets b hb) hc hpath]
    · rcases hall b hb with hmem | hregistered
      · rcases List.mem_cons.mp hmem with rfl | hmem
        · exact absurd rfl hpath
        · exact .inl hmem
      · exact .inr fun hkept => (hframe _ hkept hpath).trans (hregistered hkept)
  · rintro _ t _ _ ⟨-, hall⟩ b hb
    exact (hall b hb).resolve_left List.not_mem_nil

/-- The record that an install has made. -/
structure Recorded (N : Neighbours p pid) (faulty : FileOp → Prop) (S : SerdeJson) (source : Path)
    (extra : ExtraIds) (s : Machine) (record : ExtraIds) (t : Machine) : Prop where
  valid : extra.Valid
  copied : source ≠ p.binaryPath → Copied N source s t
  made : ∃ u r, N.I u ∧ ReadOf faulty p.extraIdsPath u r ∧ record = recordOver S extra r ∧
    (N.kept p.extraIdsPath → ReadOf faulty p.extraIdsPath s r)
  written : N.kept p.extraIdsPath →
    t.1.readFile p.extraIdsPath = some (toVecPretty record.toJson)

theorem runs_placeAndRecord (hI : N.I s) (h : Recording N faulty S source extra) :
    N.Runs faulty (fun path => Placed p path ∨ path = p.extraIdsPath)
      (Recorded N faulty S source extra s) (placeAndRecord pid S p source extra) s := by
  generalize htouched : (fun path => Placed p path ∨ path = p.extraIdsPath) = touched
  have hvalidate : N.Runs faulty touched (fun _ t => extra.Valid ∧ N.R s t)
      (Prog.ofExcept (validateIds extra)) s := by
    cases hids : validateIds extra with
    | error e => exact .fail hI
    | ok _ => exact .pure hI fun t ht => ⟨validateIds_ok hids, ht⟩
  refine hvalidate.bind fun _ s₁ hI _ ⟨hvalid, hs₁⟩ => ?_
  have hplace : N.Runs faulty touched (fun _ t => N.setting.Frame (Placed p) s₁ t ∧
      (source ≠ p.binaryPath → Copied N source s₁ t))
      (placeBinary pid p.os source p.binaryPath) s₁ := by
    refine (runs_placeBinary hI h.toPlacing).mono ?_ fun _ _ _ hframe hC => ⟨hframe, hC⟩
    exact htouched ▸ fun _ => .inl
  refine hplace.bind fun _ s₂ hI _ ⟨hframe₂, hcopied⟩ => ?_
  have hcopied : source ≠ p.binaryPath → Copied N source s s₂ := by
    intro hne hkept
    obtain ⟨b, hb, hsource⟩ := hcopied hne hkept
    exact ⟨b, hb, fun hkeptSource => (N.kept_eq hs₁ hkeptSource).symm.trans (hsource hkeptSource)⟩
  have hread : N.Runs faulty touched (fun r t => N.setting.Frame (fun _ => False) s₂ t ∧
      ∃ u, N.I u ∧ N.R s₂ u ∧ ReadOf faulty p.extraIdsPath u r) (readFile p.extraIdsPath) s₂ :=
    (runs_readFile p.extraIdsPath hI).mono (fun _ => False.elim) fun _ _ _ hframe hC => ⟨hframe, hC⟩
  refine hread.bind fun r s₃ hI _ ⟨hframe₃, u, hIu, hu, hr⟩ => ?_
  -- what was read is what was recorded before the install, if nobody else changes that
  have hr₀ (hkept : N.kept p.extraIdsPath) : ReadOf faulty p.extraIdsPath s r := by
    have hnotPlaced : ¬ Placed p p.extraIdsPath :=
      not_or.mpr ⟨record_ne_binary p, not_swept .record _⟩
    have heq : u.1.readFile p.extraIdsPath = s.1.readFile p.extraIdsPath :=
      (N.kept_eq hu hkept).trans ((hframe₂ _ hkept hnotPlaced).trans (N.kept_eq hs₁ hkept))
    rwa [ReadOf, heq] at hr
  have hwrite : N.Runs faulty touched (fun _ t => N.setting.Frame (· = p.extraIdsPath) s₃ t ∧
      (N.kept p.extraIdsPath →
        t.1.readFile p.extraIdsPath = some (toVecPretty (recordOver S extra r).toJson)))
      (writeFile pid p.extraIdsPath (toVecPretty (recordOver S extra r).toJson)) s₃ := by
    refine (runs_writeFile hI .record (h.record hvalid u hIu r hr)).mono ?_
      fun _ _ _ hframe hC => ⟨hframe, hC⟩
    exact htouched ▸ fun _ => .inr
  refine hwrite.bind fun _ s₄ hI _ ⟨hframe₄, hrecord⟩ => .pure hI fun t ht => ?_
  refine ⟨hvalid, fun hne => ?_, ⟨u, r, hIu, hr, rfl, hr₀⟩, fun hkept => ?_⟩
  · refine (hcopied hne).of_eq fun hkept => ?_
    have heq₃ := hframe₃ _ hkept id
    have heq₄ := hframe₄ _ hkept (record_ne_binary p).symm
    exact (N.kept_eq ht hkept).trans (heq₄.trans heq₃)
  · exact (N.kept_eq ht hkept).trans (hrecord hkept)

theorem runs_registerAll {record : ExtraIds} (hI : N.I s)
    (hgood : ∀ b ∈ browsers p, N.good (b.manifestFile p) (manifestBody channel p b.family record)) :
    N.Runs faulty (IsManifest p) (fun report t => ∃ targets : List Browser,
        report.browsers = displayNames targets ∧ (∀ b ∈ targets, b ∈ browsers p) ∧
        ∀ b ∈ targets, Registered N channel record b t)
      (registerAll pid channel p record) s := by
  have hselect : N.Runs faulty (IsManifest p) (fun (selected : List Browser × Bool) _ =>
      ∀ b ∈ selected.1, b ∈ browsers p) (selectBrowsers (browsers p)) s :=
    runs_selectBrowsers (browsers p) hI
  refine hselect.bind fun ⟨targets, detected⟩ s₁ hI _ htargets => ?_
  refine (runs_registerEach hI htargets hgood).bind
    fun _ s₂ hI _ hregistered => .pure hI fun t ht => ?_
  refine ⟨targets, rfl, htargets, fun b hb hkept => ?_⟩
  exact (N.kept_eq ht hkept).trans (hregistered b hb hkept)

/-- An install does what it may, whoever runs beside it. -/
theorem runs_install (hI : N.I s) (h : Recording N faulty S source extra)
    (hmanifest : extra.Valid → ∀ s, N.I s → ∀ r, ReadOf faulty p.extraIdsPath s r →
      ∀ b ∈ browsers p, N.good (b.manifestFile p)
        (manifestBody channel p b.family (recordOver S extra r))) :
    N.Runs faulty (fun _ => True) (fun _ _ => True) (install pid S channel p source extra) s := by
  refine ((runs_placeAndRecord hI h).mono (fun _ _ => trivial) fun _ _ _ _ => id).bind
    fun record t hI _ hrecorded => ?_
  obtain ⟨u, r, hIu, hr, rfl, -⟩ := hrecorded.made
  exact (runs_registerAll hI (hmanifest hrecorded.valid u hIu r hr)).mono (fun _ _ => trivial)
    fun _ _ _ _ _ => trivial

end

/-! ## An uninstall -/

/-- What was found missing, or was removed, is gone: unless the disk was asked in vain. -/
theorem runs_removeReported {report : UninstallReport} {path : Path} {P : Path → Prop} {F : Prop}
    (hI : N.I s)
    (hleaves : ∀ t u : Machine, N.R s t → N.I t → (t.1.Begins c u.1 ∨ t.1.Does c u.1) →
      Leaves p (Owned pid) N.good N.removes t u)
    (htouched : ∀ path, N.kept path → Disk.Touches path c → touched path)
    (hmissing : ∀ (t : Disk) q, t.entry path = none → P q → t.readFile q = none)
    (hdone : ∀ (t u : Disk) q, t.Does c u → P q → u.readFile q = none)
    (hfailed : F → ∀ (t u : Disk) q, faulty (.change c) ∨ t.Blocked c → t.Begins c u →
      P q → u.readFile q = none) :
    N.Runs faulty touched (fun left t => (left.left = [] → report.left = []) ∧
      (¬ faulty (.existsAt path) → left.left = [] ∨ F →
        ∀ q, P q → N.kept q → t.1.readFile q = none))
      (removeReported report path c) s := by
  apply runs_ask hI
  · rintro t u ⟨hu, -⟩
    exact hu
  · rintro t there u ht hIt ⟨⟨hu, hthere⟩, hrest⟩
    have heq : u = t := Prod.ext hu hrest
    subst heq
    refine ⟨rfl, ?_⟩
    cases there with
    | false =>
      refine .pure hIt fun v hv => ⟨id, fun hworks _ q hq hkept => ?_⟩
      have hnone : u.1.entry path = none := by
        rcases hthere with h | ⟨hfaulty, -⟩
        · exact Option.isNone_iff_eq_none.mp (Option.isSome_eq_false_iff.mp h.symm)
        · exact absurd hfaulty hworks
      exact (N.kept_eq hv hkept).trans (hmissing u.1 q hnone hq)
    | true =>
      have hchange : N.Runs faulty touched (fun x t => x = .ok () ∨ F → ∀ q, P q →
          N.kept q → t.1.readFile q = none) (change "remove" path c).attempt u := by
        apply runs_attempt hIt
        · intro v w hv
          exact hleaves v w (N.preorder.trans _ _ _ ht hv)
        · exact htouched
        · intro v w x _ hd hx _ q hq hkept
          exact (N.kept_eq hx hkept).trans (hdone v.1 w.1 q hd hq)
        · rintro v w x e - hfails hb hx (heq | hcertain) q hq hkept
          · cases heq
          · exact (N.kept_eq hx hkept).trans (hfailed hcertain v.1 w.1 q hfails hb hq)
      refine hchange.bind fun x v hI _ hgone => ?_
      cases x with
      | ok _ =>
        refine .pure hI fun w hw => ⟨id, fun _ _ q hq hkept => ?_⟩
        exact (N.kept_eq hw hkept).trans (hgone (.inl rfl) q hq hkept)
      | error e =>
        have hleft : report.left ++ [path] ≠ [] := List.append_ne_nil_of_right_ne_nil _ nofun
        refine .pure hI fun w hw => ⟨fun h => absurd h hleft, fun _ hcertain q hq hkept => ?_⟩
        have hcertain := hcertain.resolve_left hleft
        exact (N.kept_eq hw hkept).trans (hgone (.inr hcertain) q hq hkept)

theorem runs_unregister (b : Browser) (hI : N.I s) :
    N.Runs faulty touched (fun _ _ => True) (unregister b) s := by
  unfold unregister
  split
  · apply runs_ask hI
    · rintro t u ⟨-, hu⟩
      exact hu
    · rintro t r u ht hIt ⟨-, hu⟩
      exact ⟨hu, .pure (N.leaves_inv hIt (leaves_of_eq hu)) fun _ _ => trivial⟩
  · exact .pure hI fun _ _ => trivial

theorem runs_removeManifests (hI : N.I s) (hremoves : ∀ path, IsManifest p path → N.removes path) :
    N.Runs faulty (IsManifest p) (fun report t =>
        (∀ path, IsManifest p path → ¬ faulty (.existsAt path)) →
        report.left = [] ∨ RemovesManifests faulty p →
        ∀ path, IsManifest p path → N.kept path → t.1.readFile path = none)
      (removeManifests p) s := by
  -- those that are still to be removed, and those that are gone
  refine (Setting.Runs.foldM (J := fun report rest t => (∀ b ∈ rest, b ∈ browsers p) ∧
    ((∀ path, IsManifest p path → ¬ faulty (.existsAt path)) →
      report.left = [] ∨ RemovesManifests faulty p → ∀ b ∈ browsers p, b ∈ rest ∨
        (N.kept (b.manifestFile p) → t.1.readFile (b.manifestFile p) = none))) hI ?_
    ⟨fun _ => id, fun _ _ b hb => .inl hb⟩ ?_).mono (fun _ => id) ?_
  · rintro report rest s t ht ⟨hrest, hall⟩
    refine ⟨hrest, fun hworks hleft b hb => ?_⟩
    exact (hall hworks hleft b hb).imp_right fun h hkept => (N.kept_eq ht hkept).trans (h hkept)
  · rintro report c rest s hI ⟨hrest, hall⟩
    have hc : IsManifest p (c.manifestFile p) := ⟨c, hrest c List.mem_cons_self, rfl⟩
    have hunregister : N.Runs faulty (IsManifest p)
        (fun _ t => N.setting.Frame (fun _ => False) s t) (unregister c) s :=
      (runs_unregister c hI).mono (fun _ => False.elim) fun _ _ _ hframe _ => hframe
    refine hunregister.bind fun _ s₁ hI _ hframe₁ => ?_
    have hremove : N.Runs faulty (· = c.manifestFile p) (fun left t =>
        (left.left = [] → report.left = []) ∧ (¬ faulty (.existsAt (c.manifestFile p)) →
          left.left = [] ∨ RemovesManifests faulty p →
          ∀ q, q = c.manifestFile p → N.kept q → t.1.readFile q = none))
        (removeReported report (c.manifestFile p) (.removeFile (c.manifestFile p))) s₁ := by
      apply runs_removeReported hI
      · rintro t u - - hd
        exact leaves_of_removed hd (hremoves _ hc)
      · exact fun _ _ => id
      · rintro t q hnone rfl
        rw [Disk.readFile, hnone]
      · rintro t u q hd rfl
        exact hd.removeFile
      · rintro hcertain t u q (hfaulty | hblocked) rfl rfl
        · exact absurd hfaulty (hcertain _ hc)
        · exact hblocked
    refine hremove.mono ?_ ?_
    · rintro _ rfl
      exact hc
    · rintro report' t - hframe ⟨hleft', hgone⟩
      refine ⟨fun b hb => hrest b (List.mem_cons_of_mem _ hb), fun hworks hleft b hb => ?_⟩
      by_cases hpath : b.manifestFile p = c.manifestFile p
      · exact .inr fun hkept => hgone (hworks _ hc) hleft _ hpath hkept
      · rcases hall hworks (hleft.imp_left hleft') b hb with hmem | hnone
        · rcases List.mem_cons.mp hmem with rfl | hmem
          · exact absurd rfl hpath
          · exact .inl hmem
        · right
          intro hkept
          exact (hframe _ hkept hpath).trans ((hframe₁ _ hkept id).trans (hnone hkept))
  · rintro report t - - ⟨-, hall⟩ hworks hleft _ ⟨b, hb, rfl⟩
    exact (hall hworks hleft b hb).resolve_left List.not_mem_nil

theorem runs_moveOutRunningBinary (exe : Option Path) (temp : Path) (hI : N.I s)
    (hremoves : ∀ path, p.helperDir <+: path → N.removes path) :
    N.Runs faulty (p.helperDir <+: ·) (fun _ _ => True)
      (moveOutRunningBinary pid p.os exe temp p.helperDir) s := by
  unfold moveOutRunningBinary
  split
  · exact .pure hI fun _ _ => trivial
  · next exe =>
    split
    · exact .pure hI fun _ _ => trivial
    · refine (runs_existsAt exe hI).bind fun thereExe s hI _ _ => ?_
      refine (runs_existsAt p.helperDir hI).bind fun there s hI _ _ => ?_
      split
      · next hinside =>
        have hinside : p.helperDir <+: exe := by
          rw [Bool.and_eq_true] at hinside
          exact of_decide_eq_true hinside.2
        apply runs_tryChange hI
        · rintro t u - - hd
          exact leaves_of_renamed hd (.inr (hremoves exe hinside)) (.inl (.parked temp))
        · rintro q hq (rfl | heq)
          · exact hinside
          · exact absurd heq (kept_ne hq (.parked temp))
        · exact fun _ _ _ _ _ _ => trivial
      · exact .pure hI fun _ _ => trivial

theorem runs_removeHelper {report : UninstallReport} (exe : Option Path) (temp : Path) (hI : N.I s)
    (hremoves : ∀ path, p.helperDir <+: path → N.removes path) :
    N.Runs faulty (p.helperDir <+: ·) (fun left t => (left.left = [] → report.left = []) ∧
        (¬ faulty (.existsAt p.helperDir) → left.left = [] →
          ∀ path, p.helperDir <+: path → N.kept path → t.1.readFile path = none))
      (removeHelper pid p exe temp report) s := by
  refine (runs_moveOutRunningBinary exe temp hI hremoves).bind fun _ s hI _ _ => ?_
  have hremove : N.Runs faulty (p.helperDir <+: ·) (fun left t =>
      (left.left = [] → report.left = []) ∧ (¬ faulty (.existsAt p.helperDir) →
        left.left = [] ∨ False → ∀ q, p.helperDir <+: q → N.kept q → t.1.readFile q = none))
      (removeReported report p.helperDir (.removeDirAll p.helperDir)) s := by
    apply runs_removeReported hI
    · rintro t u - - hd
      exact leaves_of_removedAll hd hremoves
    · exact fun _ _ => id
    · intro t q hnone hq
      rw [Disk.readFile, Disk.entry_of_prefix hnone hq]
    · intro t u q hd hq
      rw [Disk.readFile, hd.2 q hq]
    · exact False.elim
  refine hremove.mono (fun _ => id) ?_
  rintro left t - - ⟨hleft, hgone⟩
  exact ⟨hleft, fun hworks hnone => hgone hworks (.inl hnone)⟩

/-- What an uninstall that left nothing has left. -/
theorem runs_uninstall (exe : Option Path) (temp : Path) (hI : N.I s)
    (hremoves : ∀ path, Removed p path → N.removes path) :
    N.Runs faulty (Removed p) (fun report t => (∀ path, ¬ faulty (.existsAt path)) →
        report.left = [] → ∀ path, Removed p path → N.kept path → t.1.readFile path = none)
      (uninstall pid p exe temp) s := by
  refine ((runs_removeManifests hI fun path h => hremoves path (.inl h)).mono (fun _ => .inl)
    fun _ _ _ _ => id).bind fun report s hI _ hgone => ?_
  refine (runs_removeHelper exe temp hI fun path h => hremoves path (.inr h)).mono
    (fun _ => .inr) ?_
  rintro left t - hframe ⟨hleft, hhelper⟩ hworks hnone path hpath hkept
  by_cases hin : p.helperDir <+: path
  · exact hhelper (hworks _) hnone path hin hkept
  · refine (hframe _ hkept hin).trans ?_
    exact hgone (fun path _ => hworks path) (.inl (hleft hnone)) path
      (hpath.resolve_right hin) hkept

/-! ## A process by itself -/

/-- A process that nobody runs beside, from a state on. -/
def alone (p : Platform) (pid : Nat) (good : Path → Bytes → Prop) (removes : Path → Prop)
    (s : Machine) : Neighbours p pid where
  R := Eq
  I := Leaves p (Owned pid) good removes s
  good := good
  removes := removes
  kept path := ¬ Owned pid path
  preorder := inferInstance
  rely_inv := by
    rintro _ _ rfl hI
    exact hI
  leaves_inv hI h := (Leaves.isPreorder ..).trans _ _ _ hI h
  own := by
    rintro _ _ _ _ rfl - hbody
    exact hbody
  kept_eq := by
    rintro _ _ _ rfl -
    rfl
  kept_not_owned := id

theorem exec_alone {good : Path → Bytes → Prop} {removes : Path → Prop} {α : Type}
    {prog : HostProg α} {C : α → Machine → Prop} {o : Option (Except InstallError α)}
    (h : (alone p pid good removes s).Runs faulty touched C prog s)
    (he : Exec (hostEffects faulty) prog s o t) :
    Leaves p (Owned pid) good removes s t ∧ ∀ a, o = some (.ok a) → C a t := by
  obtain ⟨hleaves, hC⟩ := Setting.Runs.exec (S := (alone p pid good removes s).setting) rfl
    (Leaves.isPreorder ..) h he
  exact ⟨hleaves, fun a ha => (hC a ha).2.2⟩

theorem alone_start {good : Path → Bytes → Prop} {removes : Path → Prop} :
    (alone p pid good removes s).I s := (Leaves.isPreorder ..).refl s

end Neighbours

end WarrenSdk.NativeHost
