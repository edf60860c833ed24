import WarrenSdk.Core.Device
import WarrenSdk.Lib.Disk
import WarrenSdk.Lib.JsonForm
import WarrenSdk.Lib.Lifetime
import WarrenSdk.Lib.Utf8

/-!
# The device identity on disk (`device-store.ts`)

The identity is written whole: into a file beside its own, which is then renamed over it. So a call
that fails, or whose process is killed, happened or did not happen (`exec_perform`), and an install
keeps its id over every sequence of such calls.
-/

namespace WarrenSdk.Node.DeviceStore
open Lib Core.Device

/-- A program of Node: it throws what the file system throws. -/
abbrev NodeProg (α : Type) := Prog FileOp FileOp.Ret IoError α

section
-- the directory and the name of the file
variable (dir : Path) (name : String)

def identityPath : Path := dir ++ [name]

def partialPath : Path := dir ++ [name ++ ".partial"]

def readText (path : Path) : NodeProg (Option Utf16) :=
  .call (.read path) fun (r : Option Bytes) => .done (r.map Utf8.decode)

def load : NodeProg (Option Utf16) := readText (identityPath dir name)

def save (serialized : Utf16) : NodeProg Unit := do
  .change (.createDirAll dir) id
  .change (.write (partialPath dir name) (Utf16.utf8 serialized)) id
  .change (.rename (partialPath dir name) (identityPath dir name)) id

def remove : NodeProg Unit :=
  .call (.existsAt (identityPath dir name)) fun (there : Bool) =>
    if there then .change (.removeFile (identityPath dir name)) id else .done ()

/-! ## The calls of `device/index.ts` over it -/

def readKept : NodeProg (Option DeviceIdentity) := do
  return Core.Device.readKept (← load dir name)

def keptDeviceIdentity (draw : Draw) : NodeProg DeviceIdentity := do
  match ← readKept dir name with
  | some kept => return kept
  | none =>
    let drawn := generateDeviceIdentity draw
    save dir name (encodeDeviceIdentity drawn)
    return drawn

def keepDeviceName (deviceName : Utf16) : NodeProg Bool := do
  match ← readKept dir name with
  | some kept =>
    save dir name (encodeDeviceIdentity { kept with name := deviceName })
    return true
  | none => return false

def forgetDeviceIdentity : NodeProg Unit := remove dir name

inductive StoreCall
  | call (c : Call)
  | forgetDeviceIdentity

inductive StoreReturned
  | call (r : Returned)
  | forgetDeviceIdentity

def perform : StoreCall → NodeProg StoreReturned
  | .call (.keptDeviceIdentity draw) => do
    return .call (.keptDeviceIdentity (← keptDeviceIdentity dir name draw))
  | .call (.keepDeviceName deviceName) => do
    return .call (.keepDeviceName deviceName (← keepDeviceName dir name deviceName))
  | .forgetDeviceIdentity => do
    forgetDeviceIdentity dir name
    return .forgetDeviceIdentity

/-- The calls as they are on a store of identities. -/
def act (held : Option DeviceIdentity) : StoreCall → StoreReturned × Option DeviceIdentity
  | .call c => (.call (Core.Device.act held c).1, (Core.Device.act held c).2)
  | .forgetDeviceIdentity => (.forgetDeviceIdentity, none)

/-- The identity on a disk. -/
def heldOn (s : Disk) : Option DeviceIdentity :=
  Core.Device.readKept ((s.readFile (identityPath dir name)).map Utf8.decode)

end

variable {dir : Path} {name : String} {faulty : FileOp → Prop} {s t : Disk}

/-- A process that nobody interferes with, of which the file is replaced by `new` or left alone. -/
abbrev Alone (faulty : FileOp → Prop) (dir : Path) (name : String) (new : Option Bytes)
    {α : Type} (Q : Except IoError α → Disk → Prop) (p : NodeProg α) (s : Disk) : Prop :=
  Safe (fileEffects faulty) Eq (Disk.Replaces (identityPath dir name) new) Q p s

theorem partialPath_ne : partialPath dir name ≠ identityPath dir name := by
  intro h
  have hname : name ++ ".partial" = name :=
    List.singleton_injective (List.append_cancel_left h)
  have hlength := congrArg String.length hname
  have hbeside : ".partial".length = 8 := by decide
  rw [String.length_append] at hlength
  omega

/-- What a disk tells of the file can be read. -/
structure Readable (faulty : FileOp → Prop) (path : Path) : Prop where
  read : ¬ faulty (.read path)
  existsAt : ¬ faulty (.existsAt path)

theorem alone_readKept {new : Option Bytes} (hf : Readable faulty (identityPath dir name))
    {Q : Except IoError (Option DeviceIdentity) → Disk → Prop}
    (h : Q (.ok (heldOn dir name s)) s) : Alone faulty dir name new Q (readKept dir name) s := by
  rintro _ rfl
  constructor
  · rintro _ rfl
    exact .inl rfl
  · rintro r u ⟨rfl, rfl | ⟨hfaulty, -⟩⟩
    · refine ⟨.inl rfl, ?_⟩
      rintro _ rfl
      exact h
    · exact absurd hfaulty hf.read

theorem alone_save (serialized : Utf16) (s : Disk) :
    Alone faulty dir name (some (Utf16.utf8 serialized))
      (fun x t => x = .ok () →
        t.readFile (identityPath dir name) = some (Utf16.utf8 serialized))
      (save dir name serialized) s := by
  -- the first two changes leave the file alone
  have hkeeps {s t : Disk} {c : Change} (hc : ¬ Disk.Touches (identityPath dir name) c)
      (h : s.Begins c t ∨ s.Does c t) :
      Disk.Replaces (identityPath dir name) (some (Utf16.utf8 serialized)) s t :=
    .inl (h.elim (·.readFile_of_not_touches hc) (·.readFile_of_not_touches hc))
  have hdir : ¬ Disk.Touches (identityPath dir name) (.createDirAll dir) := id
  have hbeside : ¬ Disk.Touches (identityPath dir name)
      (.write (partialPath dir name) (Utf16.utf8 serialized)) := partialPath_ne.symm
  refine Safe.bind_alone (Q := fun _ _ => True) ?_ (fun _ s _ => ?_) (fun _ _ _ => nofun)
  · apply Safe.change_alone
    · intro t e h
      exact ⟨hkeeps hdir (.inl h), trivial⟩
    · intro t h
      exact ⟨hkeeps hdir (.inr h), trivial⟩
  refine Safe.bind_alone (Q := fun x t => x = .ok () →
    t.readFile (partialPath dir name) = some (Utf16.utf8 serialized)) ?_ (fun _ s hs => ?_)
    (fun _ _ _ => nofun)
  · apply Safe.change_alone
    · intro t e h
      exact ⟨hkeeps hbeside (.inl h), nofun⟩
    · intro t h
      exact ⟨hkeeps hbeside (.inr h), fun _ => h.readFile_self⟩
  · apply Safe.change_alone
    · rintro t e rfl
      exact ⟨.inl rfl, nofun⟩
    · intro t h
      have hnew := h.rename (hs rfl)
      exact ⟨.inr hnew, fun _ => hnew⟩

theorem alone_remove (hf : Readable faulty (identityPath dir name)) (s : Disk) :
    Alone faulty dir name none
      (fun x t => x = .ok () → t.readFile (identityPath dir name) = none) (remove dir name) s := by
  rintro _ rfl
  constructor
  · rintro _ rfl
    exact .inl rfl
  · rintro there u ⟨rfl, rfl | ⟨hfaulty, -⟩⟩
    · refine ⟨.inl rfl, ?_⟩
      dsimp only
      split
      · apply Safe.change_alone
        · rintro t e rfl
          exact ⟨.inl rfl, nofun⟩
        · intro t h
          exact ⟨.inr h.removeFile, fun _ => h.removeFile⟩
      · next hnone =>
        refine Safe.pure_alone fun _ => ?_
        have hentry : u.entry (identityPath dir name) = none := by simpa using hnone
        rw [Disk.readFile, hentry]
    · exact absurd hfaulty hf.existsAt

/-! ## Calls happen or do not happen -/

theorem heldOn_congr (h : t.readFile (identityPath dir name) = s.readFile (identityPath dir name)) :
    heldOn dir name t = heldOn dir name s := by
  rw [heldOn, heldOn, h]

/-- What is written is what is held, unless its name is empty. -/
theorem heldOn_encode {identity : DeviceIdentity} (h : t.readFile (identityPath dir name) =
      some (Utf16.utf8 (encodeDeviceIdentity identity))) :
    heldOn dir name t = if identity.name = [] then none else some identity := by
  have hwell : Utf16.toWellFormed (encodeDeviceIdentity identity) = encodeDeviceIdentity identity :=
    Json.stringify_wellFormed identity.plain_toJson
  rw [heldOn, h, Option.map_some, Utf8.decode_utf8, hwell, Core.Device.readKept, Option.bind_some,
    parseDeviceIdentity_encode]

/-- What a call does to the identity on the disk: it happens or does not. -/
abbrev Happens (dir : Path) (name : String) (c : StoreCall) (s : Disk)
    (o : Option (Except IoError StoreReturned)) (t : Disk) : Prop :=
  Atomic act (heldOn dir name s) c o (heldOn dir name t)

theorem happens_of_alone {new : Option Bytes} {c : StoreCall} {p : NodeProg StoreReturned}
    {o : Option (Except IoError StoreReturned)}
    (hnew : ∀ t, t.readFile (identityPath dir name) = new →
      heldOn dir name t = (act (heldOn dir name s) c).2)
    (h : Alone faulty dir name new (fun x t => ∀ r, x = .ok r →
      r = (act (heldOn dir name s) c).1 ∧ heldOn dir name t = (act (heldOn dir name s) c).2) p s)
    (he : Exec (fileEffects faulty) p s o t) : Happens dir name c s o t := by
  obtain ⟨hreplaces, hQ⟩ := h.exec (Disk.Replaces.isPreorder _ _) he
  refine .of_eq ?_ fun r hr => hQ _ hr r rfl
  rcases hreplaces with hsame | hreplaced
  · exact .inl (heldOn_congr hsame)
  · exact .inr (hnew t hreplaced)

/-- A call that leaves the disk as it is. -/
theorem happens_of_held {c : StoreCall} {p : NodeProg StoreReturned} {r : StoreReturned}
    {o : Option (Except IoError StoreReturned)}
    (hact : act (heldOn dir name s) c = (r, heldOn dir name s))
    (h : Alone faulty dir name (s.readFile (identityPath dir name)) (fun x t => t = s ∧ x = .ok r)
      p s) (he : Exec (fileEffects faulty) p s o t) : Happens dir name c s o t := by
  refine happens_of_alone (fun t ht => ?_) (h.mono ?_) he
  · rw [hact]
    exact heldOn_congr ht
  · rintro x t ⟨rfl, rfl⟩ r' hr'
    cases hr'
    rw [hact]
    exact ⟨rfl, rfl⟩

theorem alone_keptDeviceIdentity_some {new : Option Bytes}
    (hf : Readable faulty (identityPath dir name)) (draw : Draw)
    (hheld : heldOn dir name s = some kept) :
    Alone faulty dir name new (fun x t => t = s ∧ x = .ok kept)
      (keptDeviceIdentity dir name draw) s := by
  refine Safe.bind_alone (Q := fun x t => t = s ∧ x = .ok (some kept)) ?_ ?_ (fun _ _ => nofun)
  · exact alone_readKept hf ⟨rfl, by rw [hheld]⟩
  · rintro _ t ⟨rfl, hx⟩
    cases hx
    exact Safe.pure_alone ⟨rfl, rfl⟩

theorem alone_keptDeviceIdentity_none (hf : Readable faulty (identityPath dir name)) (draw : Draw)
    (hheld : heldOn dir name s = none) :
    Alone faulty dir name (some (Utf16.utf8 (encodeDeviceIdentity (generateDeviceIdentity draw))))
      (fun x t => ∀ identity, x = .ok identity → identity = generateDeviceIdentity draw ∧
        t.readFile (identityPath dir name) =
          some (Utf16.utf8 (encodeDeviceIdentity (generateDeviceIdentity draw))))
      (keptDeviceIdentity dir name draw) s := by
  refine Safe.bind_alone (Q := fun x t => t = s ∧ x = .ok none) ?_ ?_ (fun _ _ => nofun)
  · exact alone_readKept hf ⟨rfl, by rw [hheld]⟩
  · rintro _ t ⟨rfl, hx⟩
    cases hx
    refine Safe.bind_alone (alone_save _ t) (fun _ u hu => ?_) (fun _ _ _ _ => nofun)
    refine Safe.pure_alone fun identity hidentity => ?_
    cases hidentity
    exact ⟨rfl, hu rfl⟩

theorem alone_keepDeviceName_some (hf : Readable faulty (identityPath dir name))
    (deviceName : Utf16) (hheld : heldOn dir name s = some kept) :
    Alone faulty dir name
      (some (Utf16.utf8 (encodeDeviceIdentity { kept with name := deviceName })))
      (fun x t => ∀ did, x = .ok did → did = true ∧ t.readFile (identityPath dir name) =
        some (Utf16.utf8 (encodeDeviceIdentity { kept with name := deviceName })))
      (keepDeviceName dir name deviceName) s := by
  refine Safe.bind_alone (Q := fun x t => t = s ∧ x = .ok (some kept)) ?_ ?_ (fun _ _ => nofun)
  · exact alone_readKept hf ⟨rfl, by rw [hheld]⟩
  · rintro _ t ⟨rfl, hx⟩
    cases hx
    refine Safe.bind_alone (alone_save _ t) (fun _ u hu => ?_) (fun _ _ _ _ => nofun)
    refine Safe.pure_alone fun did hdid => ?_
    cases hdid
    exact ⟨rfl, hu rfl⟩

theorem alone_keepDeviceName_none {new : Option Bytes}
    (hf : Readable faulty (identityPath dir name)) (deviceName : Utf16)
    (hheld : heldOn dir name s = none) :
    Alone faulty dir name new (fun x t => t = s ∧ x = .ok false)
      (keepDeviceName dir name deviceName) s := by
  refine Safe.bind_alone (Q := fun x t => t = s ∧ x = .ok none) ?_ ?_ (fun _ _ => nofun)
  · exact alone_readKept hf ⟨rfl, by rw [hheld]⟩
  · rintro _ t ⟨rfl, hx⟩
    cases hx
    exact Safe.pure_alone ⟨rfl, rfl⟩

/-- A call that fails, or whose process is killed, happened or did not happen. -/
theorem exec_perform (hf : Readable faulty (identityPath dir name)) {c : StoreCall}
    {o : Option (Except IoError StoreReturned)}
    (he : Exec (fileEffects faulty) (perform dir name c) s o t) : Happens dir name c s o t := by
  cases c with
  | forgetDeviceIdentity =>
    have hnone (t : Disk) (h : t.readFile (identityPath dir name) = none) :
        heldOn dir name t = none := by
      rw [heldOn, h]
      rfl
    refine happens_of_alone hnone ?_ he
    refine Safe.bind_alone (alone_remove hf s) (fun _ t ht => ?_) (fun _ _ _ => nofun)
    refine Safe.pure_alone fun r hr => ?_
    cases hr
    exact ⟨rfl, hnone t (ht rfl)⟩
  | call c =>
    cases c with
    | keptDeviceIdentity draw =>
      cases hheld : heldOn dir name s with
      | some kept =>
        refine happens_of_held (r := .call (.keptDeviceIdentity kept)) (by rw [hheld]; rfl) ?_ he
        refine Safe.bind_alone (alone_keptDeviceIdentity_some hf draw hheld) ?_ (fun _ _ => nofun)
        rintro _ t ⟨rfl, hx⟩
        cases hx
        exact Safe.pure_alone ⟨rfl, rfl⟩
      | none =>
        have hname : (generateDeviceIdentity draw).name ≠ [] := deviceNameFrom_ne_nil _ _
        have hnew (t : Disk) (h : t.readFile (identityPath dir name) =
            some (Utf16.utf8 (encodeDeviceIdentity (generateDeviceIdentity draw)))) :
            heldOn dir name t =
              (act (heldOn dir name s) (.call (.keptDeviceIdentity draw))).2 := by
          rw [heldOn_encode h, if_neg hname, hheld]
          rfl
        refine happens_of_alone hnew ?_ he
        refine Safe.bind_alone (alone_keptDeviceIdentity_none hf draw hheld) ?_
          (fun _ _ _ _ => nofun)
        intro identity t ht
        obtain ⟨rfl, hwritten⟩ := ht identity rfl
        refine Safe.pure_alone fun r hr => ?_
        cases hr
        exact ⟨by rw [hheld]; rfl, hnew t hwritten⟩
    | keepDeviceName deviceName =>
      cases hheld : heldOn dir name s with
      | some kept =>
        have hnew (t : Disk) (h : t.readFile (identityPath dir name) =
            some (Utf16.utf8 (encodeDeviceIdentity { kept with name := deviceName }))) :
            heldOn dir name t =
              (act (heldOn dir name s) (.call (.keepDeviceName deviceName))).2 := by
          rw [heldOn_encode h, hheld]
          rfl
        refine happens_of_alone hnew ?_ he
        refine Safe.bind_alone (alone_keepDeviceName_some hf deviceName hheld) ?_
          (fun _ _ _ _ => nofun)
        intro did t ht
        obtain ⟨rfl, hwritten⟩ := ht did rfl
        refine Safe.pure_alone fun r hr => ?_
        cases hr
        exact ⟨by rw [hheld]; rfl, hnew t hwritten⟩
      | none =>
        refine happens_of_held (r := .call (.keepDeviceName deviceName false))
          (by rw [hheld]; rfl) ?_ he
        refine Safe.bind_alone (alone_keepDeviceName_none hf deviceName hheld) ?_ (fun _ _ => nofun)
        rintro _ t ⟨rfl, hx⟩
        cases hx
        exact Safe.pure_alone ⟨rfl, rfl⟩

/-! ## Runs -/

abbrev LogEntry := Logged StoreCall IoError StoreReturned

/-- Calls over one file. Whatever else is done to the disk in between leaves the file alone. -/
abbrev StoreLife (faulty : FileOp → Prop) (dir : Path) (name : String) :
    Disk → List LogEntry → Disk → Prop :=
  Life (fileEffects faulty) (perform dir name)
    fun s t => t.readFile (identityPath dir name) = s.readFile (identityPath dir name)

/-- The calls on a store of identities. -/
abbrev StoreReplay : Option DeviceIdentity → List LogEntry → Option DeviceIdentity → Prop :=
  Replay (Atomic act)

/-- Every run over a disk is one of a store of identities. -/
theorem life_replay (hf : Readable faulty (identityPath dir name))
    (h : StoreLife faulty dir name s log t) :
    StoreReplay (heldOn dir name s) log (heldOn dir name t) :=
  h.replay (fun _ _ _ _ => exec_perform hf) fun _ _ => heldOn_congr

/-- The call neither forgets the identity nor leaves it without a name. -/
def Keeps (c : StoreCall) : Prop := c ≠ .forgetDeviceIdentity ∧ c ≠ .call (.keepDeviceName [])

/-- An identity keeps its id; its name is the one it had or one it was given. -/
structure Descends (log : List LogEntry) (old new : DeviceIdentity) : Prop where
  deviceId : new.deviceId = old.deviceId
  name : new.name = old.name ∨ ∃ o, (.call (.keepDeviceName new.name), o) ∈ log

theorem Descends.cons (h : Descends log old new) (entry : LogEntry) :
    Descends (entry :: log) old new where
  deviceId := h.deviceId
  name := h.name.imp_right fun ⟨o, ho⟩ => ⟨o, List.mem_cons_of_mem entry ho⟩

/-- What is held stays held, as long as every call keeps it. -/
theorem descends (h : StoreReplay (some old) log final) (hlog : ∀ entry ∈ log, Keeps entry.1) :
    ∃ new, final = some new ∧ Descends log old new := by
  induction log generalizing old with
  | nil =>
    cases h
    exact ⟨old, rfl, rfl, .inl rfl⟩
  | cons entry log ih =>
    have htail : ∀ entry ∈ log, Keeps entry.1 := fun e he => hlog e (List.mem_cons_of_mem entry he)
    cases h with
    | @call _ _ _ c o _ hspec h =>
    cases hspec with
    | skipped _ =>
      obtain ⟨new, hfinal, hdescends⟩ := ih h htail
      exact ⟨new, hfinal, hdescends.cons _⟩
    | happened hr =>
      have hkeeps := hlog (c, o) List.mem_cons_self
      cases c with
      | forgetDeviceIdentity => exact absurd rfl hkeeps.1
      | call c =>
        cases c with
        | keptDeviceIdentity draw =>
          obtain ⟨new, hfinal, hdescends⟩ := ih h htail
          exact ⟨new, hfinal, hdescends.cons _⟩
        | keepDeviceName deviceName =>
          have hne : deviceName ≠ [] := by
            rintro rfl
            exact hkeeps.2 rfl
          have hact : (act (some old) (.call (.keepDeviceName deviceName))).2 =
              some { old with name := deviceName } := if_neg hne
          rw [hact] at h
          obtain ⟨new, hfinal, hdescends⟩ := ih h htail
          refine ⟨new, hfinal, hdescends.deviceId, ?_⟩
          rcases hdescends.name with hname | ⟨o', ho'⟩
          · have hname : new.name = deviceName := hname
            exact .inr ⟨o, by rw [hname]; exact List.mem_cons_self⟩
          · exact .inr ⟨o', List.mem_cons_of_mem _ ho'⟩

theorem kept_eq (h : StoreReplay held ((.call (.keptDeviceIdentity draw),
      some (.ok (.call (.keptDeviceIdentity identity)))) :: log) final) :
    (∀ old, held = some old → identity = old) ∧ StoreReplay (some identity) log final := by
  cases h with
  | call hspec h =>
  cases hspec with
  | skipped hr => exact absurd rfl (hr _)
  | happened hr =>
    have hreturned := hr _ rfl
    simp only [act, Core.Device.act, StoreReturned.call.injEq,
      Returned.keptDeviceIdentity.injEq] at hreturned h
    subst hreturned
    refine ⟨?_, h⟩
    rintro old rfl
    rfl

/-- An install keeps its id: whatever fails and whenever a process is killed, what is returned is
the identity that was returned before, under its name or one that a call in between was to keep. -/
theorem identity_kept (hf : Readable faulty (identityPath dir name))
    (h : StoreLife faulty dir name s (before ++ (.call (.keptDeviceIdentity draw),
        some (.ok (.call (.keptDeviceIdentity first)))) :: (mid ++
      (.call (.keptDeviceIdentity draw'), some (.ok (.call (.keptDeviceIdentity second)))) ::
        after)) t)
    (hmid : ∀ entry ∈ mid, Keeps entry.1) : Descends mid first second := by
  obtain ⟨_, -, hfirst⟩ := (life_replay hf h).split
  obtain ⟨_, hbetween, hsecond⟩ := (kept_eq hfirst).2.split
  obtain ⟨new, rfl, hdescends⟩ := descends hbetween hmid
  rwa [(kept_eq hsecond).1 new rfl]

/-- Unless something is in the way, or fails, a save succeeds. -/
theorem exists_exec_save (faulty : FileOp → Prop) {s : Disk} (dir : Path) (name : String)
    (serialized : Utf16)
    (hdir : ∀ p, p <+: dir → ∀ content, s.entry p ≠ some (.file content))
    (hbeside : s.entry (partialPath dir name) ≠ some .directory)
    (hpath : s.entry (identityPath dir name) ≠ some .directory) :
    ∃ t, Exec (fileEffects faulty) (save dir name serialized) s (some (.ok ())) t ∧
      t.readFile (identityPath dir name) = some (Utf16.utf8 serialized) := by
  have hne : name ++ ".partial" ≠ name := fun h =>
    partialPath_ne (congrArg (fun name => dir ++ [name]) h)
  obtain ⟨s₁, s₂, t, hcreated, hwritten, hrenamed, hdone, -⟩ :=
    Disk.exists_replaced hne hdir hbeside hpath (Utf16.utf8 serialized)
  refine ⟨t, ?_, hdone⟩
  exact .call (.inl ⟨rfl, hcreated⟩)
    (.call (.inl ⟨rfl, hwritten⟩) (.call (.inl ⟨rfl, hrenamed⟩) .done))

theorem exec_readKept (faulty : FileOp → Prop) :
    Exec (fileEffects faulty) (readKept dir name) s (some (.ok (heldOn dir name s))) s :=
  .call ⟨rfl, .inl rfl⟩ .done

theorem exec_kept (faulty : FileOp → Prop) (draw : Draw) (h : heldOn dir name s = some identity) :
    Exec (fileEffects faulty) (perform dir name (.call (.keptDeviceIdentity draw))) s
      (some (.ok (.call (.keptDeviceIdentity identity)))) s := by
  have hread : Exec _ (readKept dir name) s _ s := exec_readKept faulty
  have hkept : Exec (fileEffects faulty) (keptDeviceIdentity dir name draw) s
      (some (.ok identity)) s := hread.bind (by rw [h]) .done
  exact hkept.bind rfl .done

theorem exec_drawn {faulty : FileOp → Prop} {draw : Draw} (h : heldOn dir name s = none)
    (hsave : Exec (fileEffects faulty)
      (save dir name (encodeDeviceIdentity (generateDeviceIdentity draw))) s (some (.ok ())) t) :
    Exec (fileEffects faulty) (perform dir name (.call (.keptDeviceIdentity draw))) s
      (some (.ok (.call (.keptDeviceIdentity (generateDeviceIdentity draw))))) t := by
  have hread : Exec _ (readKept dir name) s _ s := exec_readKept faulty
  have hdrawn : Exec (fileEffects faulty) (keptDeviceIdentity dir name draw) s
      (some (.ok (generateDeviceIdentity draw))) t :=
    hread.bind (a := none) (by rw [h]) (hsave.bind rfl .done)
  exact hdrawn.bind rfl .done

/-- An identity that is drawn on an empty disk, and asked for again after the process that was to
rename the device was killed. -/
theorem identity_kept_killed : ∃ t, StoreLife (fun _ => False) [] "device.json" .empty
    ([] ++ (.call (.keptDeviceIdentity firstDraw),
        some (.ok (.call (.keptDeviceIdentity (generateDeviceIdentity firstDraw))))) ::
      ([(.call (.keepDeviceName [0x61]), none)] ++ (.call (.keptDeviceIdentity secondDraw),
        some (.ok (.call (.keptDeviceIdentity (generateDeviceIdentity firstDraw))))) :: [])) t ∧
    Descends [(.call (.keepDeviceName [0x61]), none)] (generateDeviceIdentity firstDraw)
      (generateDeviceIdentity firstDraw) := by
  have hroot (p : Path) (h : p <+: []) (content : Bytes) :
      Disk.empty.entry p ≠ some (.file content) := by
    have hentry : Disk.empty.entry p = some .directory := if_pos (List.prefix_nil.mp h)
    rw [hentry]
    nofun
  obtain ⟨t, hsave, hwritten⟩ := exists_exec_save (fun _ => False) [] "device.json"
    (encodeDeviceIdentity (generateDeviceIdentity firstDraw)) hroot (by decide) (by decide)
  have hname : (generateDeviceIdentity firstDraw).name ≠ [] := deviceNameFrom_ne_nil _ _
  have hheld : heldOn [] "device.json" t = some (generateDeviceIdentity firstDraw) := by
    rw [heldOn_encode hwritten, if_neg hname]
  have hlife : StoreLife (fun _ => False) [] "device.json" .empty ([] ++ _ :: ([_] ++ _ :: [])) t :=
    .call (exec_drawn rfl hsave)
      (.call (c := .call (.keepDeviceName [0x61])) .stop
        (.call (exec_kept _ secondDraw hheld) .nil))
  refine ⟨t, hlife, ?_⟩
  refine identity_kept ⟨id, id⟩ hlife fun entry hentry => ?_
  rw [List.mem_singleton.mp hentry]
  exact ⟨nofun, nofun⟩

end WarrenSdk.Node.DeviceStore
