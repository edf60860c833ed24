import Mathlib.Data.List.Nodup
import WarrenSdk.Core.Edge.Token

/-!
# Blinding derived from the wallet (`edge/token-blinding.ts`)

The octets of slot `index` of `epoch` are a function of the wallet's blinding key and the slot, so
that every client of a wallet blinds the same batch.
-/

namespace WarrenSdk.Core
open Lib

variable (H : Hashes)

def BLINDING_SALT : Bytes := (Utf16.ofString "warren/token-blinding/v1").utf8

def BLINDING_PURPOSE_BROWSER_PROXY : Utf16 := Utf16.ofString "browser-proxy/v1"

def BLINDING_PURPOSE_SESSION : Utf16 := Utf16.ofString "session/v1"

def blindingKeyFromSeed (seed : Bytes) (purpose : Utf16) : Octets 32 :=
  H.hkdf seed BLINDING_SALT purpose.utf8

/-- Fixed widths, so that no two triples that fit them share an info. -/
def info (epoch index block : Nat) : Bytes := toBE 8 epoch ++ toBE 4 index ++ toBE 4 block

/-- `left` octets from block `block` on, and the block after the last one drawn. -/
def drawBlocks (key : Bytes) (epoch index left block : Nat) : Bytes × Nat :=
  if 0 < left then
    let chunk := (H.hkdf key BLINDING_SALT (info epoch index block)).1.take (min 32 left)
    let (rest, block) := drawBlocks key epoch index (left - 32) (block + 1)
    (chunk ++ rest, block)
  else ([], block)
termination_by left

theorem length_drawBlocks (key : Bytes) (epoch index left block : Nat) :
    (drawBlocks H key epoch index left block).1.length = left := by
  induction left using Nat.strong_induction_on generalizing block with
  | h left ih =>
    unfold drawBlocks
    split
    next hpos =>
      have hrest := ih (left - 32) (by omega) (block + 1)
      have hchunk := (H.hkdf key BLINDING_SALT (info epoch index block)).2
      simp only [List.length_append, List.length_take, hrest, hchunk]
      omega
    next hz => simp only [List.length_nil]; omega

def deterministicTokenRandom (key : Bytes) (epoch index : Nat) : TokenRandom :=
  fun byteLength block =>
    (⟨(drawBlocks H key epoch index byteLength block).1, length_drawBlocks ..⟩,
      (drawBlocks H key epoch index byteLength block).2)

/-! ## The blocks of a slot -/

/-- How many blocks a draw takes. -/
def blockCount (byteLength : Nat) : Nat := (byteLength + 31) / 32

theorem blockCount_of_pos (h : 0 < left) : blockCount left = blockCount (left - 32) + 1 := by
  unfold blockCount
  omega

/-- The infos that `drawBlocks` asks for, in its order. -/
def drawInfos (epoch index left block : Nat) : List Bytes :=
  if 0 < left then info epoch index block :: drawInfos epoch index (left - 32) (block + 1) else []
termination_by left

theorem drawInfos_eq (epoch index left block : Nat) : drawInfos epoch index left block =
    (List.range' block (blockCount left)).map (info epoch index) := by
  induction left using Nat.strong_induction_on generalizing block with
  | h left ih =>
    unfold drawInfos
    split
    · next hpos =>
      rw [ih (left - 32) (by omega), blockCount_of_pos hpos, List.range'_succ, List.map_cons]
    · next hz =>
      obtain rfl : left = 0 := by omega
      rfl

/-- A draw is cut from the blocks of its infos. -/
theorem drawBlocks_eq (key : Bytes) (epoch index left block : Nat) :
    drawBlocks H key epoch index left block =
      ((((drawInfos epoch index left block).map fun i =>
        (H.hkdf key BLINDING_SALT i).1).flatten).take
        left, block + blockCount left) := by
  induction left using Nat.strong_induction_on generalizing block with
  | h left ih =>
    unfold drawBlocks drawInfos
    split
    · next hpos =>
      have hcut (bs : Bytes) : ((H.hkdf key BLINDING_SALT (info epoch index block)).1 ++
        bs).take left =
          (H.hkdf key BLINDING_SALT (info epoch index block)).1.take (min 32 left) ++
            bs.take (left - 32) := by
        rw [List.take_append, List.take_eq_take_min, (H.hkdf key BLINDING_SALT _).2,
          Nat.min_comm left]
      rw [List.map_cons, List.flatten_cons, hcut, blockCount_of_pos hpos]
      simp only [ih (left - 32) (by omega)]
      exact Prod.ext rfl (by dsimp only; omega)
    · next hz =>
      obtain rfl : left = 0 := by omega
      rfl

/-- Draws of these lengths, one after the other. -/
def drawAll (random : TokenRandom) : List Nat → Nat → List Bytes × Nat
  | [], drawn => ([], drawn)
  | byteLength :: lengths, drawn =>
    let (bytes, drawn) := random byteLength drawn
    let (rest, drawn) := drawAll random lengths drawn
    (bytes.1 :: rest, drawn)

/-- The infos that draws of these lengths ask for. -/
def slotInfos (epoch index : Nat) : List Nat → Nat → List Bytes
  | [], _ => []
  | byteLength :: lengths, block =>
    drawInfos epoch index byteLength block ++
      slotInfos epoch index lengths (block + blockCount byteLength)

/-- How many blocks draws of these lengths take. -/
def blockTotal (lengths : List Nat) : Nat := (lengths.map blockCount).sum

theorem blockTotal_cons (byteLength : Nat) (lengths : List Nat) :
    blockTotal (byteLength :: lengths) = blockCount byteLength + blockTotal lengths := by
  rw [blockTotal, List.map_cons, List.sum_cons, blockTotal]

theorem slotInfos_eq (epoch index : Nat) (lengths : List Nat) (block : Nat) :
    slotInfos epoch index lengths block =
      (List.range' block (blockTotal lengths)).map (info epoch index) := by
  induction lengths generalizing block with
  | nil => rfl
  | cons byteLength lengths ih =>
    rw [slotInfos, drawInfos_eq, ih, ← List.map_append, blockTotal_cons, List.range'_append_1]

theorem drawAll_deterministic (key : Bytes) (epoch index : Nat) (lengths : List Nat) (block : Nat) :
    (drawAll (deterministicTokenRandom H key epoch index) lengths block).2 =
      block + blockTotal lengths := by
  induction lengths generalizing block with
  | nil => rfl
  | cons byteLength lengths ih =>
    simp only [drawAll, deterministicTokenRandom, ih]
    rw [drawBlocks_eq, blockTotal_cons, Nat.add_assoc]

/-- Infos of triples that fit their widths are told apart. -/
theorem info_inj (hepoch : epoch < 2 ^ 64) (hepoch' : epoch' < 2 ^ 64) (hindex : index < 2 ^ 32)
    (hindex' : index' < 2 ^ 32) (hblock : block < 2 ^ 32) (hblock' : block' < 2 ^ 32)
    (h : info epoch index block = info epoch' index' block') :
    (epoch, index) = (epoch', index') ∧ block = block' := by
  obtain ⟨hslot, hblocks⟩ := List.append_inj' h (by simp)
  obtain ⟨hepochs, hindices⟩ := List.append_inj' hslot (by simp)
  have hpow8 : (256 : Nat) ^ 8 = 2 ^ 64 := by decide
  have hpow4 : (256 : Nat) ^ 4 = 2 ^ 32 := by decide
  rw [← hpow8] at hepoch hepoch'
  rw [← hpow4] at hindex hindex' hblock hblock'
  rw [toBE_inj hepoch hepoch' hepochs, toBE_inj hindex hindex' hindices,
    toBE_inj hblock hblock' hblocks]
  exact ⟨rfl, rfl⟩

theorem slotInfos_nodup (hepoch : epoch < 2 ^ 64) (hindex : index < 2 ^ 32)
    (htotal : blockTotal lengths ≤ 2 ^ 32) : (slotInfos epoch index lengths 0).Nodup := by
  rw [slotInfos_eq]
  refine List.Nodup.map_on ?_ List.nodup_range'
  intro block hblock block' hblock' h
  have hlt := (List.mem_range'_1.mp hblock).2
  have hlt' := (List.mem_range'_1.mp hblock').2
  exact (info_inj hepoch hepoch hindex hindex (by omega) (by omega) h).2

/-! ## Draws one after the other -/

theorem length_drawAll (random : TokenRandom) (lengths : List Nat) (drawn : Nat) :
    (drawAll random lengths drawn).1.length = lengths.length := by
  induction lengths generalizing drawn with
  | nil => rfl
  | cons byteLength lengths ih => exact congrArg (· + 1) (ih _)

theorem drawAll_append (random : TokenRandom) (lengths more : List Nat) (drawn : Nat) :
    (drawAll random (lengths ++ more) drawn).1 = (drawAll random lengths drawn).1 ++
      (drawAll random more (drawAll random lengths drawn).2).1 := by
  induction lengths generalizing drawn with
  | nil => rfl
  | cons byteLength lengths ih => exact congrArg (_ :: ·) (ih _)

/-- A draw takes whole blocks, from the first that no draw before it took. -/
theorem drawAll_getElem? (key : Bytes) (epoch index : Nat) (before : List Nat) (byteLength : Nat)
    (after : List Nat) :
    (drawAll (deterministicTokenRandom H key epoch index) (before ++ byteLength :: after)
      0).1[before.length]? =
        some ((((List.range' (blockTotal before) (blockCount byteLength)).map fun block =>
          (H.hkdf key BLINDING_SALT (info epoch index block)).1).flatten).take byteLength) := by
  have hblock := drawAll_deterministic H key epoch index before 0
  rw [Nat.zero_add] at hblock
  rw [drawAll_append, hblock, List.getElem?_append_right (Nat.le_of_eq (length_drawAll ..)),
    length_drawAll, Nat.sub_self]
  simp only [drawAll, deterministicTokenRandom, List.getElem?_cons_zero]
  rw [drawBlocks_eq, drawInfos_eq, List.map_map]
  rfl

/-- The candidates that `randomCoprime` looks at decide what it gives. -/
theorem randomCoprime_of_drawAll {draw : TokenRandom}
    (h : randomCoprime n draw fuel drawn = some r) :
    ∃ candidates ≤ fuel, ∀ (draw' : TokenRandom) (drawn' : Nat),
      (drawAll draw' (List.replicate candidates AUTHENTICATOR_LEN) drawn').1 =
        (drawAll draw (List.replicate candidates AUTHENTICATOR_LEN) drawn).1 →
      randomCoprime n draw' fuel drawn' = some r := by
  induction fuel generalizing drawn with
  | zero => cases h
  | succ fuel ih =>
    rw [randomCoprime] at h
    have hone {draw' : TokenRandom} {drawn' : Nat} {candidates : Nat}
        (heq : (drawAll draw' (List.replicate (candidates + 1) AUTHENTICATOR_LEN) drawn').1 =
          (drawAll draw (List.replicate (candidates + 1) AUTHENTICATOR_LEN) drawn).1) :
        (draw' AUTHENTICATOR_LEN drawn').1 = (draw AUTHENTICATOR_LEN drawn).1 :=
      Subtype.ext (List.cons.inj heq).1
    have hmore (hnext : randomCoprime n draw fuel (draw AUTHENTICATOR_LEN drawn).2 = some r) :
        ∃ candidates ≤ fuel + 1, ∀ (draw' : TokenRandom) (drawn' : Nat),
          (drawAll draw' (List.replicate candidates AUTHENTICATOR_LEN) drawn').1 =
            (drawAll draw (List.replicate candidates AUTHENTICATOR_LEN) drawn).1 →
          (draw' AUTHENTICATOR_LEN drawn').1 = (draw AUTHENTICATOR_LEN drawn).1 ∧
            randomCoprime n draw' fuel (draw' AUTHENTICATOR_LEN drawn').2 = some r := by
      obtain ⟨candidates, hle, hsame⟩ := ih hnext
      refine ⟨candidates + 1, Nat.succ_le_succ hle, fun draw' drawn' heq => ?_⟩
      exact ⟨hone heq, hsame draw' _ (List.cons.inj heq).2⟩
    dsimp only at h
    split at h
    · next hz =>
      refine ⟨0, Nat.zero_le _, fun draw' drawn' _ => ?_⟩
      rw [randomCoprime]
      dsimp only
      rwa [if_pos hz]
    · next hz =>
      split at h
      · next hlt =>
        split at h
        · next hinv =>
          refine ⟨1, Nat.succ_le_succ (Nat.zero_le fuel), fun draw' drawn' heq => ?_⟩
          rw [randomCoprime]
          dsimp only
          rw [if_neg hz, hone heq, if_pos hlt, hinv]
          exact h
        · next hinv =>
          obtain ⟨candidates, hle, hsame⟩ := hmore h
          refine ⟨candidates, hle, fun draw' drawn' heq => ?_⟩
          obtain ⟨hbytes, hnext⟩ := hsame draw' drawn' heq
          rw [randomCoprime]
          dsimp only
          rw [if_neg hz, hbytes, if_pos hlt, hinv]
          exact hnext
      · next hge =>
        obtain ⟨candidates, hle, hsame⟩ := hmore h
        refine ⟨candidates, hle, fun draw' drawn' heq => ?_⟩
        obtain ⟨hbytes, hnext⟩ := hsame draw' drawn' heq
        rw [randomCoprime]
        dsimp only
        rw [if_neg hz, hbytes, if_neg hge]
        exact hnext

/-- The draws of `blindToken`: the nonce, the salt and the candidates. -/
def mintDraws (candidates : Nat) : List Nat :=
  NONCE_LEN :: HASH_LEN :: List.replicate candidates AUTHENTICATOR_LEN

theorem blindToken_of_drawAll {pk : IssuerPublicKey} {challengeDigest : Octets 32}
    {random : TokenRandom} (h : blindToken H pk challengeDigest { random } fuel = some r) :
    ∃ candidates ≤ fuel, ∀ random' : TokenRandom,
      (drawAll random' (mintDraws candidates) 0).1 = (drawAll random (mintDraws candidates) 0).1 →
        blindToken H pk challengeDigest { random := random' } fuel = some r := by
  have hheads {random' : TokenRandom} {candidates : Nat}
      (heq : (drawAll random' (mintDraws candidates) 0).1 =
        (drawAll random (mintDraws candidates) 0).1) :
      (random' NONCE_LEN 0).1 = (random NONCE_LEN 0).1 ∧
        (random' HASH_LEN (random' NONCE_LEN 0).2).1 = (random HASH_LEN (random NONCE_LEN 0).2).1 :=
    ⟨Subtype.ext (List.cons.inj heq).1, Subtype.ext (List.cons.inj (List.cons.inj heq).2).1⟩
  simp only [blindToken, Option.elim] at h ⊢
  split at h
  · next hem =>
    refine ⟨0, Nat.zero_le _, fun random' heq => ?_⟩
    rw [(hheads heq).1, (hheads heq).2, hem]
    exact h
  · next em hem =>
    cases hr : randomCoprime pk.n random fuel (random HASH_LEN (random NONCE_LEN 0).2).2 with
    | none =>
      rw [hr] at h
      cases h
    | some result =>
      obtain ⟨candidates, hle, hsame⟩ := randomCoprime_of_drawAll hr
      refine ⟨candidates, hle, fun random' heq => ?_⟩
      have hr' := hsame random' _ (List.cons.inj (List.cons.inj heq).2).2
      rw [(hheads heq).1, (hheads heq).2, hem, hr']
      rw [hr] at h
      exact h

/-- Minting tokens in slots of their own never asks for one info twice, and a slot takes its blocks
in order, whatever the draws. -/
theorem deterministicTokenRandom_apart :
    (∀ slots : List ((Nat × Nat) × List Nat), (slots.map Prod.fst).Nodup →
      (∀ slot ∈ slots, slot.1.1 < 2 ^ 64 ∧ slot.1.2 < 2 ^ 32 ∧ blockTotal slot.2 ≤ 2 ^ 32) →
      (slots.flatMap fun slot => slotInfos slot.1.1 slot.1.2 slot.2 0).Nodup) ∧
    (∀ (key : Bytes) (epoch index : Nat) (lengths : List Nat),
      slotInfos epoch index lengths 0 =
        (List.range (blockTotal lengths)).map (info epoch index) ∧
      (drawAll (deterministicTokenRandom H key epoch index) lengths 0).2 = blockTotal lengths ∧
      ∀ before byteLength after, lengths = before ++ byteLength :: after →
        (drawAll (deterministicTokenRandom H key epoch index) lengths 0).1[before.length]? =
          some ((((List.range' (blockTotal before) (blockCount byteLength)).map fun block =>
            (H.hkdf key BLINDING_SALT (info epoch index block)).1).flatten).take byteLength)) ∧
    ∀ (pk : IssuerPublicKey) (challengeDigest : Octets 32) (random : TokenRandom) (fuel : Nat)
      (result : Except Failure (Octets 256 × TokenClientState)),
      blindToken H pk challengeDigest { random } fuel = some result →
      ∃ candidates ≤ fuel, ∀ random' : TokenRandom,
        (drawAll random' (mintDraws candidates) 0).1 = (drawAll random (mintDraws candidates) 0).1 →
          blindToken H pk challengeDigest { random := random' } fuel = some result := by
  refine ⟨?_, ?_, fun pk challengeDigest random fuel result => blindToken_of_drawAll H⟩
  · intro slots hslots hfit
    rw [List.nodup_flatMap]
    refine ⟨fun slot hslot => slotInfos_nodup (hfit slot hslot).1 (hfit slot hslot).2.1
      (hfit slot hslot).2.2, ?_⟩
    refine (List.pairwise_map.mp hslots).imp_of_mem ?_
    intro slot slot' hslot hslot' hne i hi hi'
    obtain ⟨hepoch, hindex, htotal⟩ := hfit slot hslot
    obtain ⟨hepoch', hindex', htotal'⟩ := hfit slot' hslot'
    simp only [slotInfos_eq] at hi hi'
    obtain ⟨block, hblock, rfl⟩ := List.mem_map.mp hi
    obtain ⟨block', hblock', h⟩ := List.mem_map.mp hi'
    have hlt := (List.mem_range'_1.mp hblock).2
    have hlt' := (List.mem_range'_1.mp hblock').2
    exact hne (info_inj hepoch' hepoch hindex' hindex (by omega) (by omega) h).1.symm
  · intro key epoch index lengths
    refine ⟨?_, ?_, ?_⟩
    · rw [slotInfos_eq, List.range_eq_range']
    · rw [drawAll_deterministic, Nat.zero_add]
    · rintro before byteLength after rfl
      exact drawAll_getElem? H key epoch index before byteLength after

end WarrenSdk.Core
