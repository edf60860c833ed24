import Mathlib.Data.List.Infix
import WarrenSdk.Lib.Bytes
import WarrenSdk.Lib.Program

/-!
# Files

A disk is a tree of directories and files. An operation that fails, or whose process is stopped in
its midst, may have done a part of its work: of a write, a prefix of what is written; of a tree that
is removed, any part. A rename is done or not.
-/

namespace WarrenSdk.Lib

/-- The names from the root. -/
abbrev Path := List String

inductive Entry
  | directory
  | file (content : Bytes)
deriving DecidableEq

structure Disk where
  entry : Path → Option Entry
  /-- What is there is in a directory. -/
  parent {path : Path} {name : String} : entry (path ++ [name]) ≠ none →
    entry path = some .directory

structure IoError where
  description : String
deriving DecidableEq

/-- The operations that change a disk. -/
inductive Change
  | createDirAll (path : Path)
  | write (path : Path) (body : Bytes)
  | copy (source target : Path)
  | rename (source target : Path)
  | removeFile (path : Path)
  | removeDirAll (path : Path)

inductive FileOp
  | read (path : Path)
  | existsAt (path : Path)
  | list (path : Path)
  | change (c : Change)

/-- A read returns nothing for what is missing or cannot be read. A listing tells of each name how
many seconds ago it was written, if that is known. -/
def FileOp.Ret : FileOp → Type
  | .read _ => Option Bytes
  | .existsAt _ => Bool
  | .list _ => Option (List (String × Option Nat))
  | .change _ => Except IoError Unit

namespace Disk

def readFile (s : Disk) (path : Path) : Option Bytes :=
  match s.entry path with
  | some (.file content) => some content
  | _ => none

/-- A file can be put at `path`: it is in a directory, and is none. -/
def Open (s : Disk) (path : Path) : Prop :=
  s.entry path.dropLast = some .directory ∧ s.entry path ≠ some .directory

/-- `t` is `s` with another entry at `path`. -/
def Sets (s : Disk) (path : Path) (entry : Option Entry) (t : Disk) : Prop :=
  t.entry = Function.update s.entry path entry

/-- Some directories on the way to `path` were created. -/
def Grown (s : Disk) (path : Path) (t : Disk) : Prop :=
  ∀ p, t.entry p = s.entry p ∨ p <+: path ∧ s.entry p = none ∧ t.entry p = some .directory

/-- A part of the tree at `path` was removed. -/
def Thinned (s : Disk) (path : Path) (t : Disk) : Prop :=
  ∀ p, t.entry p = s.entry p ∨ path <+: p ∧ t.entry p = none

/-- A file was put at `path`. -/
def Puts (s : Disk) (path : Path) (body : Bytes) (t : Disk) : Prop :=
  s.Open path ∧ s.Sets path (some (.file body)) t

/-- A part of a file was put at `path`. -/
def Tears (s : Disk) (path : Path) (body : Bytes) (t : Disk) : Prop :=
  ∃ part, part <+: body ∧ s.Puts path part t

/-- The change is not possible. -/
def Blocked (s : Disk) : Change → Prop
  | .createDirAll path => ∃ p content, p <+: path ∧ s.entry p = some (.file content)
  | .write path _ => ¬ s.Open path
  | .copy source target | .rename source target => s.readFile source = none ∨ ¬ s.Open target
  | .removeFile path => s.readFile path = none
  | .removeDirAll path => s.entry path ≠ some .directory

/-- `t` is `s` after the change. -/
def Does (s : Disk) (c : Change) (t : Disk) : Prop :=
  match c with
  | .createDirAll path => s.Grown path t ∧ ∀ p, p <+: path → t.entry p = some .directory
  | .write path body => s.Puts path body t
  | .copy source target => ∃ body, s.readFile source = some body ∧ s.Puts target body t
  | .rename source target => ∃ body, s.readFile source = some body ∧ s.Open target ∧
    t.entry = Function.update (Function.update s.entry source none) target (some (.file body))
  | .removeFile path => s.readFile path ≠ none ∧ s.Sets path none t
  | .removeDirAll path => s.Thinned path t ∧ ∀ p, path <+: p → t.entry p = none

/-- `t` is `s` after a change that was begun and not finished. -/
def Begins (s : Disk) (c : Change) (t : Disk) : Prop :=
  match c with
  | .createDirAll path => s.Grown path t
  | .write path body => t = s ∨ s.Tears path body t
  | .copy source target => t = s ∨ ∃ body, s.readFile source = some body ∧ s.Tears target body t
  | .rename _ _ | .removeFile _ => t = s
  | .removeDirAll path => s.Thinned path t

end Disk

/-- The operations on a disk, of which those that are `faulty` may fail. -/
def fileEffects (faulty : FileOp → Prop) : Effects Disk FileOp FileOp.Ret where
  returns
    | .read path, s, r, t => t = s ∧ (r = s.readFile path ∨ faulty (.read path) ∧ r = none)
    | .existsAt path, s, r, t =>
      t = s ∧ (r = (s.entry path).isSome ∨ faulty (.existsAt path) ∧ r = false)
    | .list path, s, r, t => t = s ∧ ∀ names : List (String × Option Nat), r = some names →
        ∀ name, name ∈ names.map Prod.fst → (s.entry (path ++ [name])).isSome
    | .change c, s, r, t => r = .ok () ∧ s.Does c t ∨
        (∃ e, r = .error e) ∧ (faulty (.change c) ∨ s.Blocked c) ∧ s.Begins c t
  stops
    | .change c, s, t => s.Begins c t ∨ s.Does c t
    | _, s, t => t = s

/-- A change whose failure is that of the program. -/
def Prog.change {ε : Type} (c : Change) (failure : IoError → ε) :
    Prog FileOp FileOp.Ret ε Unit :=
  .call (.change c) fun (r : Except IoError Unit) =>
    match r with
    | .ok _ => .done ()
    | .error e => .fail (failure e)

theorem Safe.change {faulty : FileOp → Prop} {R G : Disk → Disk → Prop} {ε : Type}
    {Q : Except ε Unit → Disk → Prop} {s : Disk} {c : Change} {failure : IoError → ε}
    (hbegins : ∀ t u, R s t → t.Begins c u → G t u)
    (hdoes : ∀ t u, R s t → t.Does c u → G t u)
    (hok : ∀ t u v, R s t → t.Does c u → R u v → Q (.ok ()) v)
    (herror : ∀ t u v e, R s t → t.Begins c u → R u v → Q (.error (failure e)) v) :
    Safe (fileEffects faulty) R G Q (.change c failure) s := by
  intro t ht
  constructor
  · intro u hu
    exact hu.elim (hbegins t u ht) (hdoes t u ht)
  · rintro r u (⟨rfl, hd⟩ | ⟨⟨e, rfl⟩, -, hb⟩)
    · exact ⟨hdoes t u ht hd, fun v hv => hok t u v ht hd hv⟩
    · exact ⟨hbegins t u ht hb, fun v hv => herror t u v e ht hb hv⟩

/-- A change of a process that nobody interferes with. -/
theorem Safe.change_alone {faulty : FileOp → Prop} {G : Disk → Disk → Prop} {ε : Type}
    {Q : Except ε Unit → Disk → Prop} {s : Disk} {c : Change} {failure : IoError → ε}
    (hbegins : ∀ t e, s.Begins c t → G s t ∧ Q (.error (failure e)) t)
    (hdoes : ∀ t, s.Does c t → G s t ∧ Q (.ok ()) t) :
    Safe (fileEffects faulty) Eq G Q (.change c failure) s := by
  apply Safe.change
  · rintro _ t rfl ht
    exact (hbegins t ⟨""⟩ ht).1
  · rintro _ t rfl ht
    exact (hdoes t ht).1
  · rintro _ t _ rfl ht rfl
    exact (hdoes t ht).2
  · rintro _ t _ e rfl ht rfl
    exact (hbegins t e ht).2

namespace Disk
variable {s t : Disk} {path q : Path} {body : Bytes}

@[simp] theorem readFile_eq_some :
    s.readFile path = some body ↔ s.entry path = some (.file body) := by
  unfold readFile
  split
  · next content h =>
    rw [h]
    simp
  · next h =>
    constructor
    · nofun
    · intro hb
      exact absurd hb (h body)

theorem readFile_congr (h : t.entry path = s.entry path) : t.readFile path = s.readFile path := by
  rw [readFile, readFile, h]

/-- Nothing is under what is missing. -/
theorem entry_of_prefix {dir : Path} (h : s.entry dir = none)
    (hpath : dir <+: path) : s.entry path = none := by
  obtain ⟨rest, rfl⟩ := hpath
  induction rest using List.reverseRecOn with
  | nil => rwa [List.append_nil]
  | append_singleton rest name ih =>
    by_contra hthere
    rw [← List.append_assoc] at hthere
    have hdir := s.parent hthere
    rw [ih] at hdir
    cases hdir

/-! ## Disks -/

/-- The disk with nothing but its root. -/
def empty : Disk where
  entry path := if path = [] then some .directory else none
  parent := by
    intro path name h
    rw [if_neg (by simp)] at h
    exact absurd rfl h

/-- A disk with another entry in one of its directories. -/
def insert (s : Disk) (dir : Path) (name : String) (new : Entry)
    (hdir : s.entry dir = some .directory) (hopen : s.entry (dir ++ [name]) ≠ some .directory) :
    Disk where
  entry := Function.update s.entry (dir ++ [name]) (some new)
  parent := by
    intro path name' h
    by_cases hpath : path ++ [name'] = dir ++ [name]
    · obtain ⟨rfl, -⟩ := List.append_inj' hpath rfl
      rw [Function.update_of_ne (by simp), hdir]
    · rw [Function.update_of_ne hpath] at h
      have hparent := s.parent h
      rw [Function.update_of_ne, hparent]
      rintro rfl
      exact hopen hparent

/-- A disk without one of its files. -/
def erase (s : Disk) (path : Path) (hfile : s.entry path ≠ some .directory) : Disk where
  entry := Function.update s.entry path none
  parent := by
    intro path' name h
    have hentry : s.entry (path' ++ [name]) ≠ none := by
      intro hnone
      apply h
      by_cases heq : path' ++ [name] = path
      · rw [heq, Function.update_self]
      · rw [Function.update_of_ne heq, hnone]
    have hparent := s.parent hentry
    rw [Function.update_of_ne, hparent]
    rintro rfl
    exact hfile hparent

theorem entry_insert_self {dir : Path} {name : String} {new : Entry}
    (hdir : s.entry dir = some .directory) (hopen : s.entry (dir ++ [name]) ≠ some .directory) :
    (s.insert dir name new hdir hopen).entry (dir ++ [name]) = some new :=
  Function.update_self ..

/-- A disk with the directories on the way to one. -/
def grow (s : Disk) (dir : Path) : Disk where
  entry p := if p <+: dir then some .directory else s.entry p
  parent := by
    intro path name h
    split at h
    · next hpath => rw [if_pos (.trans (List.prefix_append ..) hpath)]
    · have hparent := s.parent h
      rw [hparent, ite_self]

/-- A disk without one of its trees. -/
def cut (s : Disk) (path : Path) : Disk where
  entry p := if path <+: p then none else s.entry p
  parent := by
    intro p name h
    split at h
    · exact absurd rfl h
    · next hpath =>
      rw [if_neg fun hp => hpath (hp.trans (List.prefix_append ..))]
      exact s.parent h

theorem does_createDirAll {dir : Path}
    (hdir : ∀ p, p <+: dir → ∀ content, s.entry p ≠ some (.file content)) :
    s.Does (.createDirAll dir) (s.grow dir) := by
  refine ⟨fun p => ?_, fun p hp => if_pos hp⟩
  by_cases hp : p <+: dir
  · have hnew : (s.grow dir).entry p = some .directory := if_pos hp
    cases hentry : s.entry p with
    | none => exact .inr ⟨hp, rfl, hnew⟩
    | some entry =>
      cases entry with
      | directory => exact .inl hnew
      | file content => exact absurd hentry (hdir p hp content)
  · exact .inl (if_neg hp)

theorem does_write {dir : Path} {name : String} (hdir : s.entry dir = some .directory)
    (hopen : s.entry (dir ++ [name]) ≠ some .directory) (body : Bytes) :
    s.Does (.write (dir ++ [name]) body) (s.insert dir name (.file body) hdir hopen) :=
  ⟨⟨by rwa [List.dropLast_concat], hopen⟩, rfl⟩

theorem not_prefix_of_concat (dir : Path) (name : String) : ¬ dir ++ [name] <+: dir := by
  intro h
  have hlength := h.length_le
  rw [List.length_append, List.length_singleton] at hlength
  omega

/-- Unless something is in the way, a file can be replaced through one beside it. -/
theorem exists_replaced {dir : Path} {tmp name : String} (hne : tmp ≠ name)
    (hdir : ∀ p, p <+: dir → ∀ content, s.entry p ≠ some (.file content))
    (htmp : s.entry (dir ++ [tmp]) ≠ some .directory)
    (hname : s.entry (dir ++ [name]) ≠ some .directory) (body : Bytes) :
    ∃ s₁ s₂ t, s.Does (.createDirAll dir) s₁ ∧ s₁.Does (.write (dir ++ [tmp]) body) s₂ ∧
      s₂.Does (.rename (dir ++ [tmp]) (dir ++ [name])) t ∧
      t.readFile (dir ++ [name]) = some body ∧ (∀ q, q <+: dir → t.entry q = some .directory) ∧
      ∀ q, ¬ q <+: dir → q ≠ dir ++ [tmp] → q ≠ dir ++ [name] → t.entry q = s.entry q := by
  have hpath : dir ++ [tmp] ≠ dir ++ [name] := fun h => hne (List.append_singleton_inj.mp h).2
  let s₁ := s.grow dir
  have hs₁ {q : Path} (hq : ¬ q <+: dir) : s₁.entry q = s.entry q := if_neg hq
  have hdir₁ : s₁.entry dir = some .directory := if_pos List.prefix_rfl
  have htmp₁ : s₁.entry (dir ++ [tmp]) ≠ some .directory :=
    (hs₁ (not_prefix_of_concat _ _)).trans_ne htmp
  let s₂ := s₁.insert dir tmp (.file body) hdir₁ htmp₁
  have hs₂ {q : Path} (hq : q ≠ dir ++ [tmp]) : s₂.entry q = s₁.entry q :=
    Function.update_of_ne hq ..
  have hwritten : s₂.entry (dir ++ [tmp]) = some (.file body) := Function.update_self ..
  have hopen : s₂.entry dir = some .directory := (hs₂ (by simp)).trans hdir₁
  let s₃ := s₂.erase (dir ++ [tmp]) (by rw [hwritten]; nofun)
  have hs₃ {q : Path} (hq : q ≠ dir ++ [tmp]) : s₃.entry q = s₂.entry q :=
    Function.update_of_ne hq ..
  have hname₂ : s₂.entry (dir ++ [name]) ≠ some .directory :=
    ((hs₂ hpath.symm).trans (hs₁ (not_prefix_of_concat _ _))).trans_ne hname
  let t := s₃.insert dir name (.file body) ((hs₃ (by simp)).trans hopen)
    ((hs₃ hpath.symm).trans_ne hname₂)
  have hdone : t.entry (dir ++ [name]) = some (.file body) := Function.update_self ..
  have hkept {q : Path} (hqtmp : q ≠ dir ++ [tmp]) (hqname : q ≠ dir ++ [name]) :
      t.entry q = s₁.entry q := by
    have ht : t.entry q = s₃.entry q := Function.update_of_ne hqname ..
    exact ht.trans ((hs₃ hqtmp).trans (hs₂ hqtmp))
  refine ⟨s₁, s₂, t, does_createDirAll hdir, does_write hdir₁ htmp₁ body, ?_, ?_, ?_, ?_⟩
  · refine ⟨body, readFile_eq_some.mpr hwritten, ⟨?_, hname₂⟩, rfl⟩
    rwa [List.dropLast_concat]
  · exact readFile_eq_some.mpr hdone
  · intro q hq
    have hne {name : String} : q ≠ dir ++ [name] := by
      rintro rfl
      exact not_prefix_of_concat _ _ hq
    exact (hkept hne hne).trans (if_pos hq)
  · exact fun q hq hqtmp hqname => (hkept hqtmp hqname).trans (hs₁ hq)

/-! ## Operations that are run -/

/-- A disk with a file at an open place. -/
def put (s : Disk) (path : Path) (body : Bytes) (h : s.Open path) : Disk where
  entry := Function.update s.entry path (some (.file body))
  parent := by
    rcases List.eq_nil_or_concat' path with rfl | ⟨dir, name, rfl⟩
    · exact absurd h.1 h.2
    · have hdir : s.entry dir = some .directory := by
        have hparent := h.1
        rwa [List.dropLast_concat] at hparent
      exact fun {_ _} => (s.insert dir name (.file body) hdir h.2).parent

theorem puts_put (h : s.Open path) : s.Puts path body (s.put path body h) := ⟨h, rfl⟩

instance (path : Path) : Decidable (s.Open path) := inferInstanceAs (Decidable (_ ∧ _))

def tryPut (s : Disk) (path : Path) (body : Bytes) : Option Disk :=
  if h : s.Open path then some (s.put path body h) else none

theorem puts_of_tryPut (h : s.tryPut path body = some t) : s.Puts path body t := by
  unfold tryPut at h
  split at h
  · next hopen =>
    obtain rfl := Option.some.inj h
    exact puts_put hopen
  · cases h

def tryErase (s : Disk) (path : Path) : Option Disk :=
  if h : s.readFile path ≠ none ∧
    s.entry path ≠ some .directory then some (s.erase path h.2) else none

/-- The change, if nothing is in its way. -/
def change (s : Disk) : Change → Option Disk
  | .createDirAll path =>
    if ∀ p ∈ path.inits, s.readFile p = none then some (s.grow path) else none
  | .write path body => s.tryPut path body
  | .copy source target => (s.readFile source).bind (s.tryPut target)
  | .rename source target =>
    (s.readFile source).bind fun body => if s.Open target then
      (s.tryErase source).bind (·.tryPut target body) else none
  | .removeFile path => s.tryErase path
  | .removeDirAll path => if s.entry path = some .directory then some (s.cut path) else none

theorem does_change {c : Change} (h : s.change c = some t) : s.Does c t := by
  cases c with
  | createDirAll path =>
    obtain ⟨hpath, ⟨⟩⟩ := Option.ite_none_right_eq_some.mp h
    refine does_createDirAll fun p hp content hcontent => ?_
    have hnone := hpath p ((List.mem_inits ..).mpr hp)
    rw [readFile_eq_some.mpr hcontent] at hnone
    cases hnone
  | write path body => exact puts_of_tryPut h
  | copy source target =>
    obtain ⟨body, hbody, hput⟩ := Option.bind_eq_some_iff.mp h
    exact ⟨body, hbody, puts_of_tryPut hput⟩
  | rename source target =>
    obtain ⟨body, hbody, h⟩ := Option.bind_eq_some_iff.mp h
    obtain ⟨hopen, h⟩ := Option.ite_none_right_eq_some.mp h
    obtain ⟨u, hu, hput⟩ := Option.bind_eq_some_iff.mp h
    obtain ⟨_, hu⟩ := Option.dite_none_right_eq_some.mp hu
    obtain rfl := Option.some.inj hu
    exact ⟨body, hbody, hopen, (puts_of_tryPut hput).2⟩
  | removeFile path =>
    obtain ⟨⟨hread, _⟩, ⟨⟩⟩ := Option.dite_none_right_eq_some.mp h
    exact ⟨hread, rfl⟩
  | removeDirAll path =>
    obtain ⟨-, ⟨⟩⟩ := Option.ite_none_right_eq_some.mp h
    refine ⟨fun p => ?_, fun p hp => if_pos hp⟩
    by_cases hp : path <+: p
    · exact .inr ⟨hp, if_pos hp⟩
    · exact .inl (if_neg hp)

/-! ## What a change leaves alone -/

/-- The files that a change may write or remove. -/
def Touches (q : Path) : Change → Prop
  | .createDirAll _ => False
  | .write path _ | .copy _ path | .removeFile path => q = path
  | .rename source target => q = source ∨ q = target
  | .removeDirAll path => path <+: q

theorem Grown.readFile (h : s.Grown path t) (q : Path) : t.readFile q = s.readFile q := by
  rcases h q with heq | ⟨-, hnone, hdirectory⟩
  · exact readFile_congr heq
  · rw [Disk.readFile, Disk.readFile, hnone, hdirectory]

theorem Puts.readFile_self (h : s.Puts path body t) : t.readFile path = some body := by
  rw [readFile_eq_some, h.2, Function.update_self]

theorem Puts.entry_of_ne (h : s.Puts path body t) (hne : q ≠ path) : t.entry q = s.entry q := by
  rw [h.2, Function.update_of_ne hne]

theorem Begins.readFile_of_not_touches {c : Change} (h : s.Begins c t) (hq : ¬ Touches q c) :
    t.readFile q = s.readFile q := by
  cases c with
  | createDirAll path => exact h.readFile q
  | write path body =>
    obtain rfl | ⟨part, -, hputs⟩ := h
    · rfl
    · exact readFile_congr (hputs.entry_of_ne hq)
  | copy source target =>
    obtain rfl | ⟨body, -, part, -, hputs⟩ := h
    · rfl
    · exact readFile_congr (hputs.entry_of_ne hq)
  | rename source target | removeFile path =>
    cases h
    rfl
  | removeDirAll path =>
    rcases h q with heq | ⟨hunder, -⟩
    · exact readFile_congr heq
    · exact absurd hunder hq

theorem Does.readFile_of_not_touches {c : Change} (h : s.Does c t) (hq : ¬ Touches q c) :
    t.readFile q = s.readFile q := by
  cases c with
  | createDirAll path => exact h.1.readFile q
  | write path body => exact readFile_congr (Puts.entry_of_ne h hq)
  | copy source target =>
    obtain ⟨body, -, hputs⟩ := h
    exact readFile_congr (hputs.entry_of_ne hq)
  | rename source target =>
    obtain ⟨body, -, -, ht⟩ := h
    obtain ⟨hs, htarget⟩ := not_or.mp hq
    refine readFile_congr ?_
    rw [ht, Function.update_of_ne htarget, Function.update_of_ne hs]
  | removeFile path =>
    refine readFile_congr ?_
    rw [h.2, Function.update_of_ne hq]
  | removeDirAll path =>
    rcases h.1 q with heq | ⟨hunder, -⟩
    · exact readFile_congr heq
    · exact absurd hunder hq

/-! ## Files that are replaced whole -/

/-- `path` holds what it held, or `new`. -/
def Replaces (path : Path) (new : Option Bytes) (s t : Disk) : Prop :=
  t.readFile path = s.readFile path ∨ t.readFile path = new

theorem Replaces.isPreorder (path : Path) (new : Option Bytes) :
    IsPreorder Disk (Replaces path new) where
  refl _ := .inl rfl
  trans _ _ _ h h' := by
    rcases h' with h' | h'
    · exact h.imp (h'.trans ·) (h'.trans ·)
    · exact .inr h'

theorem Does.rename {source target : Path} (h : s.Does (.rename source target) t)
    (hs : s.readFile source = some body) : t.readFile target = some body := by
  obtain ⟨body', hbody', -, ht⟩ := h
  cases hs.symm.trans hbody'
  rw [readFile_eq_some, ht, Function.update_self]

theorem Does.removeFile (h : s.Does (.removeFile path) t) : t.readFile path = none := by
  unfold readFile
  rw [h.2, Function.update_self]

end Disk

/-- Operations that do not fail; a directory cannot be listed. -/
def fileRunner (faulty : FileOp → Prop) : Runner (fileEffects faulty) where
  perform
    | .read path, s => some (s.readFile path, s)
    | .existsAt path, s => some ((s.entry path).isSome, s)
    | .list _, s => some (none, s)
    | .change c, s => (s.change c).map (.ok (), ·)
  sound {op s t r} h := by
    cases op with
    | read path | existsAt path =>
      cases h
      exact ⟨rfl, .inl rfl⟩
    | list path =>
      cases h
      exact ⟨rfl, nofun⟩
    | change c =>
      obtain ⟨u, hu, heq⟩ := Option.map_eq_some_iff.mp h
      cases heq
      exact .inl ⟨rfl, Disk.does_change hu⟩

end WarrenSdk.Lib
