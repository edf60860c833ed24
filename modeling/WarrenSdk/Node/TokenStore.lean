import WarrenSdk.Core.Edge.TokenBundle
import WarrenSdk.Lib.JsonPrefix
import WarrenSdk.Node.DeviceStore

/-!
# The tokens on disk (`token-store.ts`)

The bundle is written over the one before it, so a save that fails, or whose process is killed, may
leave a part of it. A part of a bundle is no JSON (`parse_cut`): a manager constructed over the file
holds the tokens of a bundle that was saved whole, or none.
-/

namespace WarrenSdk.Node.TokenStore
open Lib WarrenSdk.Core DeviceStore

section
-- the directory and the name of the file
variable (dir : Path) (name : String)

def tokensPath : Path := dir ++ [name]

def load : NodeProg (Option Utf16) := readText (tokensPath dir name)

def save (serialized : Utf16) : NodeProg Unit := do
  .change (.createDirAll dir) id
  .change (.write (tokensPath dir name) (Utf16.utf8 serialized)) id

/-- The document on a disk. -/
def held (s : Disk) : Option Json :=
  ((s.readFile (tokensPath dir name)).map Utf8.decode).bind Json.parse

end

variable {dir : Path} {name : String} {faulty : FileOp → Prop} {s t : Disk}

/-! ## A part of a document -/

/-- A text that was cut within a character is none. -/
theorem parse_replaced {members : List (Utf16 × Json)} {part : Utf16}
    (h : part <+: Json.stringify (.object members)) :
    Json.parse (part ++ Utf16.units Utf16.replacement) = none := by
  obtain ⟨inner, hinner⟩ := Json.stringify_object members
  rw [hinner] at h
  have hunits : Utf16.units Utf16.replacement = [0xFFFD] := by decide
  rw [hunits]
  obtain rfl | ⟨part, rfl, -⟩ := List.prefix_cons_iff.mp h
  · decide
  · by_contra hparse
    obtain ⟨j, hj⟩ := Option.ne_none_iff_exists'.mp hparse
    have hlast : (0x7B :: (part ++ [0xFFFD])).getLast? = some 0xFFFD :=
      List.getLast?_concat (l := 0x7B :: part)
    rcases Json.last_of_parse hj hlast with h | h
    · cases h
    · cases h

/-- What is read of a part of a document is the document, or is none. -/
theorem parse_cut {members : List (Utf16 × Json)} {part : Bytes} (h : Json.Plain (.object members))
    (hpart : part <+: Utf16.utf8 (Json.stringify (.object members))) :
    Json.parse (Utf8.decode part) = none ∨
      Json.parse (Utf8.decode part) = some (.object members) := by
  have hwell := Json.stringify_wellFormed h
  obtain ⟨k, hk⟩ := Utf8.decodeFrom_cut hpart
  generalize hcs : Utf16.codePoints (Json.stringify (.object members)) = cs at hk
  have hwhole : Utf16.ofChars (cs.take k) ++ Utf16.ofChars (cs.drop k) =
      Json.stringify (.object members) := by
    rw [Utf16.ofChars, Utf16.ofChars, ← List.flatMap_append, List.take_append_drop, ← hcs]
    exact hwell
  rcases hk with rfl | hk
  · rw [Utf8.decode, Utf8.decodeFrom_flatMap]
    by_cases hmore : Utf16.ofChars (cs.drop k) = []
    · rw [hmore, List.append_nil] at hwhole
      rw [hwhole]
      exact .inr (Json.parse_stringify h)
    · exact .inl (Json.parse_of_append h hwhole hmore)
  · left
    rw [Utf8.decode, hk, Utf16.ofChars, List.flatMap_append, List.flatMap_singleton]
    exact parse_replaced ⟨_, hwhole⟩

/-! ## One save -/

theorem held_congr (h : t.readFile (tokensPath dir name) = s.readFile (tokensPath dir name)) :
    held dir name t = held dir name s := by
  rw [held, held, h]

/-- What a save of a document may leave: the document before it, the one that is saved, or none. -/
def Saves (dir : Path) (name : String) (doc : Json) (s t : Disk) : Prop :=
  held dir name t = held dir name s ∨ held dir name t = some doc ∨ held dir name t = none

theorem Saves.isPreorder (dir : Path) (name : String) (doc : Json) :
    IsPreorder Disk (Saves dir name doc) where
  refl _ := .inl rfl
  trans _ _ _ h h' := by
    rcases h' with h' | h'
    · exact h.imp (h'.trans ·) (Or.imp (h'.trans ·) (h'.trans ·))
    · exact .inr h'

theorem Tears.saves {members : List (Utf16 × Json)} (h : Json.Plain (.object members))
    (htears : s.Tears (tokensPath dir name) (Utf16.utf8 (Json.stringify (.object members))) t) :
    Saves dir name (.object members) s t := by
  obtain ⟨part, hpart, hputs⟩ := htears
  have hheld : held dir name t = Json.parse (Utf8.decode part) := by
    rw [held, hputs.readFile_self]
    rfl
  rw [Saves, hheld]
  exact .inr (parse_cut h hpart).symm

theorem safe_save {members : List (Utf16 × Json)} (h : Json.Plain (.object members)) (s : Disk) :
    Safe (fileEffects faulty) Eq (Saves dir name (.object members))
      (fun x t => x = .ok () → held dir name t = some (.object members))
      (save dir name (Json.stringify (.object members))) s := by
  have hdir : ¬ Disk.Touches (tokensPath dir name) (.createDirAll dir) := id
  refine Safe.bind_alone (Q := fun _ _ => True) ?_ (fun _ s _ => ?_) (fun _ _ _ => nofun)
  · apply Safe.change_alone
    · intro t e ht
      exact ⟨.inl (held_congr (ht.readFile_of_not_touches hdir)), trivial⟩
    · intro t ht
      exact ⟨.inl (held_congr (ht.readFile_of_not_touches hdir)), trivial⟩
  · apply Safe.change_alone
    · rintro t e (rfl | ht)
      · exact ⟨.inl rfl, nofun⟩
      · exact ⟨Tears.saves h ht, nofun⟩
    · intro t ht
      have hheld : held dir name t = some (.object members) := by
        rw [held, Disk.Puts.readFile_self ht, Option.map_some, Utf8.decode_utf8,
          Json.stringify_wellFormed h, Option.bind_some, Json.parse_stringify h]
      exact ⟨.inr (.inl hheld), fun _ => hheld⟩

theorem exec_save {members : List (Utf16 × Json)} {o : Option (Except IoError Unit)}
    (h : Json.Plain (.object members))
    (he : Exec (fileEffects faulty) (save dir name (Json.stringify (.object members))) s o t) :
    Saves dir name (.object members) s t ∧
      (o = some (.ok ()) → held dir name t = some (.object members)) := by
  obtain ⟨hsaves, hQ⟩ := (safe_save h s).exec (Saves.isPreorder dir name _) he
  exact ⟨hsaves, fun ho => hQ _ ho rfl⟩

/-! ## Managers over the file -/

variable {E : Encodings}

/-- The document is a bundle of the manager; its epochs are in any order. -/
def IsBundle (E : Encodings) (m : TokenManager) (doc : Json) : Prop :=
  ∃ store : OrderedMap Nat (List TokenBytes), store.entries.Perm m.store.entries ∧
    doc = { m with store }.bundle E

theorem keyOfEpoch_injective : Function.Injective TokenManager.keyOfEpoch := by
  intro epoch epoch' h
  have hback := congrArg TokenManager.epochOfKey h
  rw [TokenManager.epochOfKey_keyOfEpoch, TokenManager.epochOfKey_keyOfEpoch] at hback
  exact Option.some.inj hback

theorem plain_bundle (E : Encodings) (m : TokenManager) : Json.Plain (m.bundle E) := by
  have hkeys : ([.ofString "v", .ofString "epochSecs", .ofString "epochs"] : List Utf16).Nodup := by
    decide
  have hepochs : (m.store.entries.map (TokenManager.epochMember E)).map Prod.fst =
      m.store.keys.map TokenManager.keyOfEpoch := by
    rw [OrderedMap.keys, List.map_map, List.map_map]
    rfl
  refine .object hkeys ?_
  simp only [List.forall_mem_cons]
  have hnodup : ((m.store.entries.map (TokenManager.epochMember E)).map Prod.fst).Nodup := by
    rw [hepochs]
    exact m.store.nodup.map keyOfEpoch_injective
  refine ⟨.number BUNDLE_VERSION, .number (m.epochSecs.getD 0 : Nat), .object hnodup ?_,
    List.forall_mem_nil _⟩
  intro member hmember
  obtain ⟨entry, -, rfl⟩ := List.mem_map.mp hmember
  refine .array fun item hitem => ?_
  obtain ⟨token, -, rfl⟩ := List.mem_map.mp hitem
  exact .string _

theorem IsBundle.plain {m : TokenManager} (h : IsBundle E m doc) :
    ∃ members, doc = .object members ∧ Json.Plain (.object members) := by
  obtain ⟨store, -, rfl⟩ := h
  exact ⟨_, rfl, plain_bundle E _⟩

/-- The order of the epochs does not matter to a manager that loads them. -/
theorem IsBundle.stored_new {m : TokenManager} (h : IsBundle E m doc)
    (options : TokenManagerOptions) :
    (TokenManager.new E options (some doc)).stored = m.stored := by
  obtain ⟨store, hperm, rfl⟩ := h
  have hget (epoch : Nat) : store.get epoch = m.store.get epoch := by
    ext tokens
    rw [OrderedMap.get_eq_some_iff, OrderedMap.get_eq_some_iff, hperm.mem_iff]
  rw [TokenManager.stored_new_bundle]
  funext epoch
  rw [TokenManager.stored, hget]
  rfl

/-- A bundle that is saved, with the manager it is of. -/
structure Bundle (E : Encodings) where
  manager : TokenManager
  doc : Json
  isBundle : IsBundle E manager doc

abbrev LogEntry (E : Encodings) := Logged (Bundle E) IoError Unit

/-- Saves into one file. Whatever else is done to the disk in between leaves the file alone. -/
abbrev SaveLife (E : Encodings) (faulty : FileOp → Prop) (dir : Path) (name : String) :
    Disk → List (LogEntry E) → Disk → Prop :=
  Life (fileEffects faulty) (fun b : Bundle E => save dir name (Json.stringify b.doc))
    fun s t => t.readFile (tokensPath dir name) = s.readFile (tokensPath dir name)

/-- What a save makes of the document on a disk. One that failed may leave none. -/
inductive Saved (old : Option Json) (b : Bundle E) (o : Option (Except IoError Unit)) :
    Option Json → Prop
  | whole : Saved old b o (some b.doc)
  | skipped : o ≠ some (.ok ()) → Saved old b o old
  | torn : o ≠ some (.ok ()) → Saved old b o none

theorem life_replay {log : List (LogEntry E)} (h : SaveLife E faulty dir name s log t) :
    Replay Saved (held dir name s) log (held dir name t) := by
  refine h.replay (fun b s o t he => ?_) fun _ _ => held_congr
  obtain ⟨members, hdoc, hplain⟩ := b.isBundle.plain
  rw [hdoc] at he
  obtain ⟨hsaves, hok⟩ := exec_save hplain he
  rw [← hdoc] at hsaves hok
  by_cases ho : o = some (.ok ())
  · rw [hok ho]
    exact .whole
  rcases hsaves with hsame | hwhole | hnone
  · rw [hsame]
    exact .skipped ho
  · rw [hwhole]
    exact .whole
  · rw [hnone]
    exact .torn ho

/-- What is held in the end was held at first, or was saved since. -/
theorem mem_of_replay {log : List (LogEntry E)} (h : Replay Saved old log final) :
    final = none ∨ final = old ∨ ∃ entry ∈ log, final = some entry.1.doc := by
  induction h with
  | nil => exact .inr (.inl rfl)
  | call hspec _ ih =>
    rcases ih with hnone | heq | ⟨entry, hentry, hdoc⟩
    · exact .inl hnone
    · cases hspec with
      | whole => exact .inr (.inr ⟨_, List.mem_cons_self, heq⟩)
      | skipped => exact .inr (.inl heq)
      | torn => exact .inl heq
    · exact .inr (.inr ⟨entry, List.mem_cons_of_mem _ hentry, hdoc⟩)

/-- The last of the saves is held, if no save failed. -/
theorem last_of_replay {b : Bundle E} {log : List (LogEntry E)}
    (h : Replay Saved (some b.doc) log final) (hlog : ∀ entry ∈ log, entry.2 = some (.ok ())) :
    final = some ((log.map Prod.fst).getLastD b).doc := by
  induction log generalizing b with
  | nil =>
    cases h
    rfl
  | cons entry log ih =>
    cases h with
    | call hspec h =>
    have hentry := hlog _ List.mem_cons_self
    cases hspec with
    | skipped ho | torn ho => exact absurd hentry ho
    | whole =>
      rw [ih h fun e he => hlog e (List.mem_cons_of_mem _ he), List.map_cons, List.getLastD_cons]

/-- What a manager holds that is constructed over the file. -/
def restarted (E : Encodings) (options : TokenManagerOptions) (text : Option Utf16) :
    Nat → List TokenBytes :=
  (TokenManager.new E options (text.bind Json.parse)).stored

theorem restarted_of_doc {text : Option Utf16} {b : Bundle E}
    (h : text.bind Json.parse = some b.doc) (options : TokenManagerOptions) :
    restarted E options text = b.manager.stored := by
  rw [restarted, h, b.isBundle.stored_new]

theorem restarted_of_none {text : Option Utf16} (h : text.bind Json.parse = none)
    (options : TokenManagerOptions) : restarted E options text = fun _ => [] := by
  rw [restarted, h]
  rfl

theorem exec_load {text : Option Utf16}
    (h : Exec (fileEffects faulty) (load dir name) s (some (.ok text)) t) :
    text.bind Json.parse = held dir name s ∨ faulty (.read (tokensPath dir name)) ∧
        text = none := by
  cases h with
  | call hr hk =>
    cases hk
    obtain ⟨rfl, rfl | ⟨hfaulty, rfl⟩⟩ := hr
    · exact .inl rfl
    · exact .inr ⟨hfaulty, rfl⟩

/-- A manager that is constructed over the file holds the tokens of the last save that returned, or
of one that was begun after it; or none, if a save failed or was killed after it, or if the file
cannot be read. -/
theorem restart_holds {b : Bundle E} {before after : List (LogEntry E)}
    (h : SaveLife E faulty dir name s (before ++ (b, some (.ok ())) :: after) t)
    (hload : Exec (fileEffects faulty) (load dir name) t (some (.ok text)) u)
    (options : TokenManagerOptions) :
    ((∃ b' ∈ b :: after.map Prod.fst, restarted E options text = b'.manager.stored) ∨
      restarted E options text = fun _ => []) ∧
    (¬ faulty (.read (tokensPath dir name)) → (∀ entry ∈ after, entry.2 = some (.ok ())) →
      restarted E options text = ((after.map Prod.fst).getLastD b).manager.stored) := by
  obtain ⟨_, -, hfrom⟩ := (life_replay h).split
  cases hfrom with
  | call hspec hafter =>
  cases hspec with
  | skipped ho | torn ho => exact absurd rfl ho
  | whole =>
    rcases exec_load hload with htext | ⟨hfaulty, rfl⟩
    · rw [← htext] at hafter
      constructor
      · rcases mem_of_replay hafter with hnone | hb | ⟨entry, hentry, hdoc⟩
        · exact .inr (restarted_of_none hnone options)
        · exact .inl ⟨b, List.mem_cons_self, restarted_of_doc hb options⟩
        · exact .inl ⟨entry.1, List.mem_cons_of_mem _ (List.mem_map_of_mem hentry),
            restarted_of_doc hdoc options⟩
      · intro _ hlog
        exact restarted_of_doc (last_of_replay hafter hlog) options
    · exact ⟨.inr (restarted_of_none rfl options), fun hreadable => absurd hfaulty hreadable⟩

theorem exec_saved {dir : Path} {text : Utf16} (hdir : ∀ p, p <+: dir → s.entry p = some .directory)
    (hopen : s.entry (dir ++ [name]) ≠ some .directory) :
    Exec (fileEffects faulty) (save dir name text) s (some (.ok ()))
      (s.insert dir name (.file (Utf16.utf8 text)) (hdir dir List.prefix_rfl) hopen) :=
  .call (.inl ⟨rfl, fun _ => .inl rfl, hdir⟩) (.call (.inl ⟨rfl, Disk.does_write _ hopen _⟩) .done)

/-- Of a save that is killed, any part may be written. -/
theorem exec_torn {dir : Path} {text : Utf16} {part : Bytes} (hpart : part <+: Utf16.utf8 text)
    (hdir : ∀ p, p <+: dir → s.entry p = some .directory)
    (hopen : s.entry (dir ++ [name]) ≠ some .directory) :
    Exec (fileEffects faulty) (save dir name text) s none
      (s.insert dir name (.file part) (hdir dir List.prefix_rfl) hopen) :=
  .call (.inl ⟨rfl, fun _ => .inl rfl, hdir⟩)
    (.within (.inl (.inr ⟨part, hpart, Disk.does_write _ hopen _⟩)))

/-- A bundle of a number of tokens. -/
def sampleBundle (count : Nat) : Bundle sampleEncodings :=
  ⟨.sampleStock count, _, _, .refl _, rfl⟩

/-- What is on the disk when the second save is killed. -/
def samplePart : Bytes := (Utf16.utf8 (Json.stringify (sampleBundle 1).doc)).take 20

/-- Two managers over one file: the first saves two tokens, and the process of the second, which
holds one, is killed while it saves. -/
theorem restart_holds_torn :
    ∃ t, SaveLife sampleEncodings (fun _ => False) [] "tokens.json" .empty
      ([] ++ (sampleBundle 2, some (.ok ())) :: [(sampleBundle 1, none)]) t ∧
    t.readFile ["tokens.json"] = some samplePart ∧
    ((∃ b' ∈ [sampleBundle 2, sampleBundle 1],
        restarted sampleEncodings {} (some (Utf8.decode samplePart)) = b'.manager.stored) ∨
      restarted sampleEncodings {} (some (Utf8.decode samplePart)) = fun _ => []) := by
  have hroot (p : Path) (h : p <+: []) : Disk.empty.entry p = some .directory :=
    if_pos (List.prefix_nil.mp h)
  have hfirst : Exec (fileEffects fun _ => False)
      (save [] "tokens.json" (Json.stringify (sampleBundle 2).doc)) .empty _ _ :=
    exec_saved hroot (by decide)
  generalize hs : Disk.insert _ _ _ _ _ _ = s at hfirst
  have hsroot (p : Path) (h : p <+: []) : s.entry p = some .directory := by
    rw [List.prefix_nil.mp h, ← hs]
    rfl
  have hsfile : s.entry ([] ++ ["tokens.json"]) ≠ some .directory := by
    rw [← hs, Disk.entry_insert_self]
    nofun
  have hsecond : Exec (fileEffects fun _ => False)
      (save [] "tokens.json" (Json.stringify (sampleBundle 1).doc)) s _ _ :=
    exec_torn (List.take_prefix 20 _) hsroot hsfile
  generalize ht : Disk.insert s _ _ _ _ _ = t at hsecond
  have htfile : t.readFile ["tokens.json"] = some samplePart := by
    rw [Disk.readFile_eq_some, ← ht]
    exact Disk.entry_insert_self (hsroot [] List.prefix_rfl) hsfile
  have hlife : SaveLife sampleEncodings (fun _ => False) [] "tokens.json" .empty
      ([] ++ (sampleBundle 2, some (.ok ())) :: [(sampleBundle 1, none)]) t :=
    .call hfirst (.call hsecond .nil)
  have hload : Exec (fileEffects fun _ => False) (load [] "tokens.json") t
      (some (.ok (some (Utf8.decode samplePart)))) t := .call ⟨rfl, .inl htfile.symm⟩ .done
  exact ⟨t, hlife, htfile, (restart_holds hlife hload {}).1⟩

end WarrenSdk.Node.TokenStore
