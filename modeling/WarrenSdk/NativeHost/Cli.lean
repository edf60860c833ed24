import WarrenSdk.NativeHost.Ids

/-!
# The command line (`cli.rs`)

A line that names a caller is a launch by a browser, whatever else it says. The lines that install
are told exactly by `parse_eq_install_iff`.
-/

namespace WarrenSdk.NativeHost

inductive Invocation
  | host (caller : Caller)
  | install (extra : ExtraIds) (interactive : Bool)
  | uninstall
  | status
  | version
  | help
deriving DecidableEq

def parseInstall (extra : ExtraIds) : List String → Except String Invocation
  | [] => .ok (.install extra false)
  | [flag] =>
    if flag = "--extension-id" ∨ flag = "--gecko-id" then .error (flag ++ " needs a value")
    else .error ("install does not take " ++ flag)
  | flag :: value :: rest =>
    if flag = "--extension-id" then
      parseInstall { extra with extensionIds := extra.extensionIds ++ [value] } rest
    else if flag = "--gecko-id" then
      parseInstall { extra with geckoIds := extra.geckoIds ++ [value] } rest
    else .error ("install does not take " ++ flag)

/-- A command that takes no argument. -/
def bare (first : String) (rest : List String) (command : Invocation) : Except String Invocation :=
  if rest = [] then .ok command else .error (first ++ " takes no argument")

def parse (args : List String) : Except String Invocation :=
  match callerFromArgs args with
  | some caller => .ok (.host caller)
  | none =>
    match args with
    | [] => .ok (.install {} true)
    | first :: rest =>
      if first = "install" then parseInstall {} rest
      else if first = "uninstall" then bare first rest .uninstall
      else if first = "status" then bare first rest .status
      else if first = "--version" ∨ first = "-V" ∨ first = "version" then bare first rest .version
      else if first = "--help" ∨ first = "-h" ∨ first = "help" then bare first rest .help
      else .error (first ++ " is not a command")

theorem parse_of_caller {args : List String} {caller : Caller}
    (h : callerFromArgs args = some caller) :
    parse args = .ok (.host caller) := by
  unfold parse
  rw [h]

/-- The command lines that browsers launch the helper with. -/
def Calls : Caller → List String → Prop
  | .chromium id, args => ∃ more, args = Allowlist.origin id :: more
  | .firefox id, args => ∃ manifest more, args = manifest :: id :: more ∧ (∀ a ∈ args, NoOrigin a) ∧
    ".json".toList <:+ manifest.toList.map Char.toLower

theorem parse_of_calls {ids : ExtraIds} (hvalid : ids.Valid) {caller : Caller}
    (hnamed : ids.names caller) (h : Calls caller args) : parse args = .ok (.host caller) := by
  apply parse_of_caller
  cases caller with
  | chromium id =>
    obtain ⟨more, rfl⟩ := h
    exact callerFromArgs_origin (hvalid.extensionIds id hnamed) more
  | firefox id =>
    obtain ⟨manifest, more, rfl, horigin, hmanifest⟩ := h
    exact callerFromArgs_firefox horigin hmanifest

/-! ## The flags of an install -/

inductive Flag
  | extensionId (id : String)
  | geckoId (id : String)

namespace Flag

def args : Flag → List String
  | .extensionId id => ["--extension-id", id]
  | .geckoId id => ["--gecko-id", id]

/-- The ids with that of a flag. -/
def add (extra : ExtraIds) : Flag → ExtraIds
  | .extensionId id => { extra with extensionIds := extra.extensionIds ++ [id] }
  | .geckoId id => { extra with geckoIds := extra.geckoIds ++ [id] }

/-- The ids of a list of flags, each list in its order. -/
def collect (flags : List Flag) : ExtraIds := flags.foldl add {}

end Flag

theorem parseInstall_flags (flags : List Flag) (extra : ExtraIds) :
    parseInstall extra (flags.flatMap Flag.args) =
        .ok (.install (flags.foldl Flag.add extra) false) := by
  induction flags generalizing extra with
  | nil => rfl
  | cons flag flags ih =>
    cases flag with
    | extensionId id => exact (if_pos rfl).trans (ih _)
    | geckoId id => exact ((if_neg (by decide)).trans (if_pos rfl)).trans (ih _)

theorem parseInstall_eq_ok_iff {extra : ExtraIds} {args : List String} {invocation : Invocation} :
    parseInstall extra args = .ok invocation ↔ ∃ flags : List Flag, args = flags.flatMap Flag.args ∧
      invocation = .install (flags.foldl Flag.add extra) false := by
  constructor
  · intro h
    induction extra, args using parseInstall.induct with
    | case1 extra =>
      cases h
      exact ⟨[], rfl, rfl⟩
    | case2 extra flag hflag =>
      rw [parseInstall, if_pos hflag] at h
      cases h
    | case3 extra flag hflag =>
      rw [parseInstall, if_neg hflag] at h
      cases h
    | case4 extra value rest ih =>
      obtain ⟨flags, rfl, rfl⟩ := ih ((if_pos rfl).symm.trans h)
      exact ⟨.extensionId value :: flags, rfl, rfl⟩
    | case5 extra value rest hne ih =>
      obtain ⟨flags, rfl, rfl⟩ := ih (((if_neg hne).trans (if_pos rfl)).symm.trans h)
      exact ⟨.geckoId value :: flags, rfl, rfl⟩
    | case6 extra flag value rest hext hgecko =>
      rw [parseInstall, if_neg hext, if_neg hgecko] at h
      cases h
  · rintro ⟨flags, rfl, rfl⟩
    exact parseInstall_flags flags extra

/-- A line installs when it is empty, or when it is the command with its flags, of which each has a
value, and names no caller. -/
theorem parse_eq_install_iff {args : List String} {extra : ExtraIds} {interactive : Bool} :
    parse args = .ok (.install extra interactive) ↔
      (args = [] ∧ extra = {} ∧ interactive = true) ∨
      (callerFromArgs args = none ∧ interactive = false ∧ ∃ flags : List Flag,
        args = "install" :: flags.flatMap Flag.args ∧ extra = Flag.collect flags) := by
  have hbare {first : String} {rest : List String} {command : Invocation}
      (hne : command ≠ .install extra interactive) :
      bare first rest command ≠ .ok (.install extra interactive) := by
    unfold bare
    split
    · intro h
      exact hne (Except.ok.inj h)
    · nofun
  constructor
  · intro h
    unfold parse at h
    split at h
    · cases h
    · next hcaller =>
      split at h
      · cases h
        exact .inl ⟨rfl, rfl, rfl⟩
      · next first rest =>
        right
        split at h
        · next hinstall =>
          obtain ⟨flags, hrest, heq⟩ := parseInstall_eq_ok_iff.mp h
          cases heq
          exact ⟨hcaller, rfl, flags, by rw [hinstall, hrest], rfl⟩
        · iterate 4
            split at h
            · exact absurd h (hbare nofun)
          cases h
  · rintro (⟨rfl, rfl, rfl⟩ | ⟨hcaller, rfl, flags, rfl, rfl⟩)
    · rfl
    · unfold parse
      rw [hcaller]
      exact (if_pos rfl).trans (parseInstall_flags flags {})

/-! ## Well-formed ids -/

theorem noOrigin_of_notMem {a : String} {c : Char} (hc : c ∈ ORIGIN_START.toList)
    (h : c ∉ a.toList) : NoOrigin a :=
  fun hstart => h (hstart.subset hc)

theorem noOrigin_of_isChromiumId {id : String} (h : isChromiumId id = true) : NoOrigin id := by
  have hr : 'r' ∉ id.toList := by
    intro hr
    simp only [isChromiumId, Bool.and_eq_true, List.all_eq_true] at h
    exact absurd (h.2 _ hr) (by decide)
  exact noOrigin_of_notMem (by decide) hr

theorem splitOnce_eq_some {sep : Char} {cs name domain : List Char}
    (h : splitOnce sep cs = some (name, domain)) : cs = name ++ sep :: domain := by
  unfold splitOnce at h
  split at h
  · cases h
  · next c rest hdrop =>
    cases h
    have hc : c = sep := by
      have hhead := List.head?_dropWhile_not (· ≠ sep) cs
      rw [hdrop] at hhead
      simpa using hhead
    rw [← hc, ← hdrop, hc, List.takeWhile_append_dropWhile]

theorem noOrigin_of_isGeckoId {id : String} (h : isGeckoId id = true) : NoOrigin id := by
  unfold isGeckoId at h
  split at h
  · next inner hinner =>
    -- an id in braces begins with its brace
    unfold braced? at hinner
    split at hinner
    · next cs hid =>
      unfold NoOrigin
      rw [hid]
      intro hstart
      have horigin : ORIGIN_START.toList = 'c' :: "hrome-extension://".toList := by decide
      rw [horigin, List.cons_prefix_cons] at hstart
      exact absurd hstart.1 (by decide)
    · cases hinner
  · split at h
    · cases h
    · next name domain hsplit =>
      have hcolon : ':' ∉ id.toList := by
        rw [splitOnce_eq_some hsplit]
        simp only [Bool.and_eq_true, List.all_eq_true] at h
        intro hmem
        rcases List.mem_append.mp hmem with hname | hrest
        · exact absurd (h.1.2 _ hname) (by decide)
        · rcases List.mem_cons.mp hrest with heq | hdomain
          · exact absurd heq (by decide)
          · exact absurd (h.2.2 _ hdomain) (by decide)
      exact noOrigin_of_notMem (by decide) hcolon

theorem mem_foldl_add {flags : List Flag} {extra : ExtraIds} {id : String} :
    (id ∈ (flags.foldl Flag.add extra).extensionIds ↔
      id ∈ extra.extensionIds ∨ .extensionId id ∈ flags) ∧
    (id ∈ (flags.foldl Flag.add extra).geckoIds ↔ id ∈ extra.geckoIds ∨ .geckoId id ∈ flags) := by
  induction flags generalizing extra with
  | nil => simp
  | cons flag flags ih =>
    rw [List.foldl_cons, ih.1, ih.2]
    cases flag <;> simp [Flag.add, or_assoc]

/-- The ids of an install that are well formed are not taken for a caller. -/
theorem callerFromArgs_flags {flags : List Flag} (h : (Flag.collect flags).Valid) :
    callerFromArgs ("install" :: flags.flatMap Flag.args) = none := by
  have hword {a : String} (ha : ':' ∉ a.toList) : NoOrigin a := noOrigin_of_notMem (by decide) ha
  have hargs : ∀ a ∈ "install" :: flags.flatMap Flag.args, NoOrigin a := by
    intro a ha
    rcases List.mem_cons.mp ha with rfl | ha
    · exact hword (by decide)
    obtain ⟨flag, hflag, ha⟩ := List.mem_flatMap.mp ha
    cases flag with
    | extensionId id =>
      have hid := h.extensionIds id (mem_foldl_add.1.mpr (.inr hflag))
      rcases List.mem_cons.mp ha with rfl | ha
      · exact hword (by decide)
      · rw [List.mem_singleton.mp ha]
        exact noOrigin_of_isChromiumId hid
    | geckoId id =>
      have hid := h.geckoIds id (mem_foldl_add.2.mpr (.inr hflag))
      rcases List.mem_cons.mp ha with rfl | ha
      · exact hword (by decide)
      · rw [List.mem_singleton.mp ha]
        exact noOrigin_of_isGeckoId hid
  unfold callerFromArgs
  rw [findSome?_of_noOrigin hargs]
  simp only
  split
  · next heq =>
    obtain ⟨rfl, -⟩ := List.cons.inj heq
    exact if_neg (by decide)
  · rfl

/-- An install for well-formed ids is read from its own command line. -/
theorem parse_flags {flags : List Flag} (h : (Flag.collect flags).Valid) :
    parse ("install" :: flags.flatMap Flag.args) = .ok (.install (Flag.collect flags) false) := by
  unfold parse
  rw [callerFromArgs_flags h]
  exact (if_pos rfl).trans (parseInstall_flags flags {})

end WarrenSdk.NativeHost
