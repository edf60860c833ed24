import WarrenSdk.Core.Errors
import WarrenSdk.Lib.Base58

/-!
# Addresses (`identity/ss58.ts`)

An address is the Base58 of a network prefix, a public key and two octets of a checksum. The decoder
takes more than the encoder writes: `aliases` are the other octets that it reads as a prefix.
-/

namespace WarrenSdk.Core.Ss58
open Lib

def WARREN_SS58_PREFIX : Int := 13295

def SS58PRE : Bytes := Utf16.utf8 "SS58PRE"

/-- A bijection between octet strings and the strings that are decoded. -/
structure Base58 where
  encode : Bytes → Utf16
  decode : Utf16 → Except Failure Bytes
  decode_eq_ok : ∀ {a bs}, decode a = .ok bs ↔ a = encode bs

/-- `encodePrefix`, in octets. -/
def encodePrefix (network : Int) : Except Failure Bytes :=
  if network < 0 ∨ 16383 < network then .error (.range "SS58 prefix out of range")
  else
    let n := network.toNat
    if n < 64 then .ok [UInt8.ofNat n]
    else
      let first := ((n &&& 0b11111100) >>> 2) ||| 0b01000000
      let second := (n >>> 8) ||| ((n &&& 0b00000011) <<< 6)
      .ok [UInt8.ofNat first, UInt8.ofNat second]

/-- How many octets the first one says the prefix has. -/
def prefixLen (firstByte : UInt8) : Nat := if firstByte &&& 0b01000000 ≠ 0 then 2 else 1

/-- The prefix at the front of `data`. -/
def decodePrefix (firstByte : UInt8) (data : Bytes) : Nat :=
  if prefixLen firstByte = 1 then firstByte.toNat
  else
    let second := (data.getD 1 0).toNat
    let high := second &&& 0b00111111
    let low2 := second >>> 6
    let mid := firstByte.toNat &&& 0b00111111
    (high <<< 8) ||| ((mid <<< 2) ||| low2)

section
variable (base58 : Base58) (blake2b : Bytes → Octets 64)

/-- Two octets of the hash of a payload. -/
def checksum (payload : Bytes) : Bytes := (blake2b (SS58PRE ++ payload)).1.take 2

def encodeAddress (publicKey : Bytes) (network : Int) : Except Failure Utf16 := do
  if publicKey.length ≠ 32 then throw (.range "Warren public key must be 32 bytes")
  let head ← encodePrefix network
  let payload := head ++ publicKey
  return base58.encode (payload ++ checksum blake2b payload)

def decodeAddress (address : Utf16) (network : Int) : Except Failure Bytes := do
  let data ← base58.decode address
  match data with
  | [] => throw (.range "empty SS58 address")
  | firstByte :: _ =>
    let n := prefixLen firstByte
    if data.length ≠ n + 34 then throw (.range "invalid SS58 address length")
    if (decodePrefix firstByte data : Int) ≠ network then
      throw (.range "unexpected SS58 network prefix")
    let publicKey := (data.drop n).take 32
    let payload := data.take (n + 32)
    if (data.drop (n + 32)).take 2 ≠ checksum blake2b payload then
      throw (.range "bad SS58 checksum")
    return publicKey

end

/-! ## Prefixes -/

/-- The octets of two that are read as `n`, the high bit of the first one `bit`. -/
def wide (bit n : Nat) : Bytes :=
  [UInt8.ofNat (n / 4 % 64 + 64 + 128 * bit), UInt8.ofNat (n / 256 + n % 4 * 64)]

/-- The octets that the encoder writes for `n`. -/
def head (n : Nat) : Bytes := if n < 64 then [UInt8.ofNat n] else wide 0 n

/-- The other octets that the decoder reads as `n`. -/
def aliases (n : Nat) : List Bytes :=
  wide 1 n :: ((if n < 64 then [wide 0 n] else []) ++
    (if 128 ≤ n ∧ n < 192 then [[UInt8.ofNat n]] else []))

theorem encodePrefix_eq {n : Nat} (h : n ≤ 16383) : encodePrefix n = .ok (head n) := by
  have hrange : ¬((n : Int) < 0 ∨ 16383 < (n : Int)) := by omega
  rw [encodePrefix, if_neg hrange, head]
  dsimp only
  rw [Int.toNat_natCast]
  split
  · rfl
  · have hmid : (n &&& 0b11111100) >>> 2 = n / 4 % 64 := by
      rw [Nat.shiftRight_and_distrib, Nat.shiftRight_eq_div_pow]
      exact Nat.and_two_pow_sub_one_eq_mod (n / 4) 6
    have hfirst : n / 4 % 64 ||| 0b01000000 = n / 4 % 64 + 64 := by
      have hlt : n / 4 % 64 < 2 ^ 6 := Nat.mod_lt _ (by decide)
      have hor : 2 ^ 6 * 1 + n / 4 % 64 = 0b01000000 ||| n / 4 % 64 :=
        Nat.two_pow_add_eq_or_of_lt hlt 1
      rw [Nat.or_comm]
      omega
    have hlow : (n &&& 0b00000011) <<< 6 = 2 ^ 6 * (n % 4) := by
      rw [Nat.shiftLeft_eq, Nat.mul_comm]
      exact congrArg (2 ^ 6 * ·) (Nat.and_two_pow_sub_one_eq_mod n 2)
    have hhigh : n >>> 8 = n / 256 := Nat.shiftRight_eq_div_pow n 8
    have hsecond : (n >>> 8) ||| ((n &&& 0b00000011) <<< 6) = n / 256 + n % 4 * 64 := by
      have hlt : n / 256 < 2 ^ 6 := by omega
      rw [hlow, hhigh, Nat.or_comm, ← Nat.two_pow_add_eq_or_of_lt hlt]
      omega
    rw [hmid, hfirst, hsecond]
    rfl

theorem prefixLen_eq (f : UInt8) : prefixLen f = if f.toNat / 64 % 2 = 1 then 2 else 1 := by
  have hall : ∀ n < 256, (n &&& 0b01000000 ≠ 0 ↔ n / 64 % 2 = 1) := by decide +kernel
  have hbit : f &&& 0b01000000 ≠ 0 ↔ f.toNat / 64 % 2 = 1 := by
    rw [← hall f.toNat f.toNat_lt, ne_eq, ← UInt8.toNat_inj, UInt8.toNat_and]
    rfl
  rw [prefixLen]
  exact if_congr hbit rfl rfl

theorem decodePrefix_one {f : UInt8} (h : prefixLen f = 1) (data : Bytes) :
    decodePrefix f data = f.toNat := if_pos h

theorem decodePrefix_two {f : UInt8} (h : prefixLen f = 2) (s : UInt8) (rest : Bytes) :
    decodePrefix f (f :: s :: rest) = s.toNat % 64 * 256 + f.toNat % 64 * 4 + s.toNat / 64 := by
  have hs := s.toNat_lt
  have hne : ¬prefixLen f = 1 := by omega
  have hhigh : s.toNat &&& 0b00111111 = s.toNat % 64 := Nat.and_two_pow_sub_one_eq_mod _ 6
  have hmid : f.toNat &&& 0b00111111 = f.toNat % 64 := Nat.and_two_pow_sub_one_eq_mod _ 6
  have hlow : s.toNat >>> 6 = s.toNat / 64 := Nat.shiftRight_eq_div_pow _ 6
  have hinner : (f.toNat % 64) <<< 2 ||| s.toNat / 64 = f.toNat % 64 * 4 + s.toNat / 64 := by
    have hlt : s.toNat / 64 < 2 ^ 2 := by omega
    rw [Nat.shiftLeft_eq, Nat.mul_comm, ← Nat.two_pow_add_eq_or_of_lt hlt]
  have houter : (s.toNat % 64) <<< 8 ||| (f.toNat % 64 * 4 + s.toNat / 64) =
      s.toNat % 64 * 256 + (f.toNat % 64 * 4 + s.toNat / 64) := by
    have hlt : f.toNat % 64 * 4 + s.toNat / 64 < 2 ^ 8 := by omega
    rw [Nat.shiftLeft_eq, Nat.mul_comm, ← Nat.two_pow_add_eq_or_of_lt hlt]
  have hget : (f :: s :: rest).getD 1 0 = s := rfl
  rw [decodePrefix, if_neg hne]
  dsimp only
  rw [hget, hhigh, hmid, hlow, hinner, houter]
  omega

/-- `x` are the octets of a prefix that the decoder reads as `n`. -/
def Reads (x : Bytes) (n : Nat) : Prop :=
  ∃ f t, x = f :: t ∧ x.length = prefixLen f ∧ decodePrefix f x = n

theorem reads_one {f : UInt8} : Reads [f] n ↔ prefixLen f = 1 ∧ f.toNat = n := by
  constructor
  · rintro ⟨g, t, heq, hlen, hread⟩
    cases heq
    have hone : prefixLen f = 1 := hlen.symm
    exact ⟨hone, (decodePrefix_one hone _).symm.trans hread⟩
  · rintro ⟨hone, rfl⟩
    exact ⟨f, [], rfl, hone.symm, decodePrefix_one hone _⟩

theorem reads_two {f s : UInt8} : Reads [f, s] n ↔
    prefixLen f = 2 ∧ s.toNat % 64 * 256 + f.toNat % 64 * 4 + s.toNat / 64 = n := by
  constructor
  · rintro ⟨g, t, heq, hlen, hread⟩
    cases heq
    have htwo : prefixLen f = 2 := hlen.symm
    exact ⟨htwo, (decodePrefix_two htwo s []).symm.trans hread⟩
  · rintro ⟨htwo, rfl⟩
    exact ⟨f, [s], rfl, htwo.symm, decodePrefix_two htwo s []⟩

theorem eq_ofNat_iff {f : UInt8} (h : n < 256) : f = UInt8.ofNat n ↔ f.toNat = n := by
  rw [← UInt8.toNat_inj, UInt8.toNat_ofNat_of_lt' h]

theorem reads_octet {n : Nat} (h : n < 64 ∨ 128 ≤ n ∧ n < 192) : Reads [UInt8.ofNat n] n := by
  have hn : (UInt8.ofNat n).toNat = n := UInt8.toNat_ofNat_of_lt' (show _ < 256 by omega)
  refine reads_one.mpr ⟨?_, hn⟩
  rw [prefixLen_eq, hn, if_neg (by omega)]

theorem reads_wide {n bit : Nat} (h : n ≤ 16383) (hbit : bit ≤ 1) : Reads (wide bit n) n := by
  have hdiv : n / 4 / 64 = n / 256 := Nat.div_div_eq_div_mul n 4 64
  have hfirst : (UInt8.ofNat (n / 4 % 64 + 64 + 128 * bit)).toNat = n / 4 % 64 + 64 + 128 * bit :=
    UInt8.toNat_ofNat_of_lt' (show _ < 256 by omega)
  have hsecond : (UInt8.ofNat (n / 256 + n % 4 * 64)).toNat = n / 256 + n % 4 * 64 :=
    UInt8.toNat_ofNat_of_lt' (show _ < 256 by omega)
  have hlow : (n / 256 + n % 4 * 64) % 64 = n / 256 := by omega
  have hhigh : (n / 256 + n % 4 * 64) / 64 = n % 4 := by omega
  have hmid : (n / 4 % 64 + 64 + 128 * bit) % 64 = n / 4 % 64 := by omega
  refine reads_two.mpr ⟨?_, ?_⟩
  · rw [prefixLen_eq, hfirst, if_pos (by omega)]
  · rw [hfirst, hsecond, hlow, hhigh, hmid]
    omega

theorem eq_wide {f s : UInt8} (h : Reads [f, s] n) : [f, s] = wide (f.toNat / 128) n := by
  obtain ⟨htwo, hread⟩ := reads_two.mp h
  have hf := f.toNat_lt
  have hs := s.toNat_lt
  have hodd : f.toNat / 64 % 2 = 1 := by
    by_contra heven
    rw [prefixLen_eq, if_neg heven] at htwo
    cases htwo
  have hbit : f.toNat / 64 / 2 = f.toNat / 128 := Nat.div_div_eq_div_mul _ 64 2
  have hhigh : n / 256 = s.toNat % 64 := by omega
  have hlow : n % 4 = s.toNat / 64 := by omega
  have hmid : n / 4 % 64 = f.toNat % 64 := by omega
  have hfirst : f = UInt8.ofNat (n / 4 % 64 + 64 + 128 * (f.toNat / 128)) :=
    (eq_ofNat_iff (by omega)).mpr (by omega)
  have hsecond : s = UInt8.ofNat (n / 256 + n % 4 * 64) := (eq_ofNat_iff (by omega)).mpr (by omega)
  rw [wide, ← hfirst, ← hsecond]

/-- What is read as `n` is what the encoder writes for `n`, or an alias. -/
theorem reads_iff {x : Bytes} (h : n ≤ 16383) : Reads x n ↔ x = head n ∨ x ∈ aliases n := by
  constructor
  · rintro ⟨f, t, rfl, hlen, hread⟩
    have hf := f.toNat_lt
    match t, hlen with
    | [], hlen =>
      obtain ⟨hone, rfl⟩ := reads_one.mp ⟨f, [], rfl, hlen, hread⟩
      have heven : ¬f.toNat / 64 % 2 = 1 := by
        intro hodd
        rw [prefixLen_eq, if_pos hodd] at hone
        cases hone
      by_cases hlow : f.toNat < 64
      · refine .inl ?_
        rw [head, if_pos hlow, UInt8.ofNat_toNat]
      · have hhigh : 128 ≤ f.toNat ∧ f.toNat < 192 := by omega
        refine .inr ?_
        rw [aliases, if_neg hlow, if_pos hhigh, UInt8.ofNat_toNat]
        simp
    | [s], hlen =>
      have heq := eq_wide ⟨f, [s], rfl, hlen, hread⟩
      have hbit : f.toNat / 128 = 0 ∨ f.toNat / 128 = 1 := by omega
      rcases hbit with hbit | hbit <;> rw [hbit] at heq <;> rw [heq]
      · by_cases hlow : n < 64
        · refine .inr ?_
          rw [aliases, if_pos hlow]
          simp
        · exact .inl (if_neg hlow).symm
      · exact .inr List.mem_cons_self
    | s :: u :: t, hlen =>
      rw [prefixLen_eq] at hlen
      split at hlen <;> simp at hlen
  · rintro (rfl | hmem)
    · rw [head]
      split
      · next hlow => exact reads_octet (.inl hlow)
      · exact reads_wide h (Nat.zero_le 1)
    · rw [aliases] at hmem
      rcases List.mem_cons.mp hmem with rfl | hmem
      · exact reads_wide h (Nat.le_refl 1)
      · rcases List.mem_append.mp hmem with hmem | hmem
        · split at hmem
          · rw [List.mem_singleton.mp hmem]
            exact reads_wide h (Nat.zero_le 1)
          · cases hmem
        · split at hmem
          · next hhigh =>
            rw [List.mem_singleton.mp hmem]
            exact reads_octet (.inr hhigh)
          · cases hmem

theorem head_notMem_aliases {n : Nat} (h : n ≤ 16383) : head n ∉ aliases n := by
  have hwide : wide 0 n ≠ wide 1 n := by
    intro heq
    have hfirst := congrArg UInt8.toNat (List.cons.inj heq).1
    rw [UInt8.toNat_ofNat_of_lt' (show _ < 256 by omega),
      UInt8.toNat_ofNat_of_lt' (show _ < 256 by omega)] at hfirst
    omega
  intro hmem
  rw [head, aliases] at hmem
  split at hmem
  · next hlow =>
    have hhigh : ¬(128 ≤ n ∧ n < 192) := by omega
    rw [if_neg hhigh] at hmem
    simp [wide] at hmem
  · rcases List.mem_cons.mp hmem with heq | hmem
    · exact hwide heq
    · split at hmem <;> simp [wide] at hmem

/-! ## Addresses -/

section
variable (base58 : Base58) (blake2b : Bytes → Octets 64)

/-- The octets of an address whose prefix is spelled `x`. -/
def addressOctets (x publicKey : Bytes) : Bytes :=
  x ++ publicKey ++ checksum blake2b (x ++ publicKey)

variable {base58 blake2b} {address : Utf16} {publicKey : Bytes} {n : Nat}

@[simp] theorem length_checksum (bytes : Bytes) : (checksum blake2b bytes).length = 2 := by
  rw [checksum, List.length_take, (blake2b _).2]
  rfl

theorem Base58.encode_inj {x y : Bytes} (h : base58.encode x = base58.encode y) : x = y := by
  have hx := base58.decode_eq_ok.mpr (rfl : base58.encode x = _)
  rw [base58.decode_eq_ok.mpr h] at hx
  cases hx
  rfl

theorem encodeAddress_eq_ok (h : n ≤ 16383) :
    encodeAddress base58 blake2b publicKey n = .ok address ↔
      publicKey.length = 32 ∧ address =
          base58.encode (addressOctets blake2b (head n) publicKey) := by
  unfold encodeAddress
  split
  · next hne =>
    constructor
    · intro hthrow
      cases hthrow
    · rintro ⟨hlen, -⟩
      exact absurd hlen hne
  · next hlen =>
    rw [encodePrefix_eq h]
    change Except.ok (base58.encode (addressOctets blake2b (head n) publicKey)) = _ ↔ _
    constructor
    · intro hok
      cases hok
      exact ⟨not_not.mp hlen, rfl⟩
    · rintro ⟨-, rfl⟩
      rfl

theorem decodePrefix_take (f : UInt8) (data : Bytes) :
    decodePrefix f (data.take (prefixLen f)) = decodePrefix f data := by
  by_cases hone : prefixLen f = 1
  · rw [decodePrefix_one hone, decodePrefix_one hone]
  · have htwo : prefixLen f = 2 := by
      rw [prefixLen_eq] at hone ⊢
      split at hone
      · next hodd => exact if_pos hodd
      · exact absurd rfl hone
    have hget : (data.take 2).getD 1 0 = data.getD 1 0 := by
      rw [List.getD_eq_getElem?_getD, List.getElem?_take_of_lt (by decide),
        ← List.getD_eq_getElem?_getD]
    rw [decodePrefix, decodePrefix, if_neg hone, if_neg hone, htwo, hget]

/-- What the decoder takes: a prefix, 32 octets of a key and their checksum. -/
theorem decodeAddress_eq_ok : decodeAddress base58 blake2b address n = .ok publicKey ↔
    publicKey.length = 32 ∧ ∃ x, Reads x n ∧
      address = base58.encode (addressOctets blake2b x publicKey) := by
  constructor
  · intro h
    obtain ⟨data, hdata, hread⟩ := bind_eq_ok.mp h
    rw [base58.decode_eq_ok] at hdata
    clear h
    cases data with
    | nil => cases hread
    | cons f t =>
      dsimp only at hread
      split at hread
      · cases hread
      · next hlen =>
        have hlen := not_not.mp hlen
        split at hread
        · cases hread
        · next hnetwork =>
          have hnetwork := Int.ofNat_inj.mp (not_not.mp hnetwork)
          split at hread
          · cases hread
          · next hsum =>
            have hsum := not_not.mp hsum
            cases hread
            refine ⟨?_, (f :: t).take (prefixLen f), ⟨f, t.take (prefixLen f - 1), ?_, ?_, ?_⟩, ?_⟩
            · rw [List.length_take, List.length_drop]
              omega
            · rw [prefixLen]
              split <;> rfl
            · rw [List.length_take]
              omega
            · rw [decodePrefix_take, hnetwork]
            · have hkey : (f :: t).take (prefixLen f) ++ ((f :: t).drop (prefixLen f)).take 32 =
                  (f :: t).take (prefixLen f + 32) := List.take_add.symm
              have hrest : ((f :: t).drop (prefixLen f + 32)).take 2 =
                  (f :: t).drop (prefixLen f + 32) := by
                refine List.take_of_length_le ?_
                rw [List.length_drop]
                omega
              rw [addressOctets, hkey, ← hsum, hrest, List.take_append_drop]
              exact hdata
  · rintro ⟨hkey, x, ⟨f, t, rfl, hlen, hread⟩, rfl⟩
    have hsum : (checksum blake2b (f :: t ++ publicKey)).length = 2 := length_checksum _
    have htotal : (addressOctets blake2b (f :: t) publicKey).length = prefixLen f + 34 := by
      rw [addressOctets, List.length_append, List.length_append, hlen, hkey, hsum]
    have htake : (addressOctets blake2b (f :: t) publicKey).take (prefixLen f) = f :: t := by
      rw [addressOctets, List.append_assoc, ← hlen, List.take_left]
    have hoctets : (addressOctets blake2b (f :: t) publicKey).take (prefixLen f + 32) =
        f :: t ++ publicKey := by
      rw [addressOctets, ← hlen, ← hkey, ← List.length_append, List.take_left]
    have hdrop : (addressOctets blake2b (f :: t) publicKey).drop (prefixLen f + 32) =
        checksum blake2b (f :: t ++ publicKey) := by
      rw [addressOctets, ← hlen, ← hkey, ← List.length_append, List.drop_left]
    have hpublic : ((addressOctets blake2b (f :: t) publicKey).drop (prefixLen f)).take 32 =
        publicKey := by
      rw [addressOctets, List.append_assoc, ← hlen, List.drop_left, ← hkey, List.take_left]
    have hnetwork : decodePrefix f (addressOctets blake2b (f :: t) publicKey) = n := by
      rw [← decodePrefix_take, htake, hread]
    refine bind_eq_ok.mpr ⟨_, base58.decode_eq_ok.mpr rfl, ?_⟩
    have hcons : addressOctets blake2b (f :: t) publicKey =
        f :: (t ++ publicKey ++ checksum blake2b (f :: t ++ publicKey)) := by
      simp only [addressOctets, List.cons_append]
    rw [hcons]
    dsimp only
    rw [← hcons, htotal, hnetwork, hdrop, hoctets, hpublic, if_neg (not_not.mpr rfl),
      if_neg (not_not.mpr rfl), if_neg (not_not.mpr (List.take_of_length_le hsum.le))]
    rfl

theorem addressOctets_ne {x : Bytes} (h : n ≤ 16383) (hx : x ∈ aliases n) {k : Bytes}
    (hpublic : publicKey.length = 32) (hk : k.length = 32) :
    addressOctets blake2b x k ≠ addressOctets blake2b (head n) publicKey := by
  intro heq
  have hlen := congrArg List.length heq
  simp only [addressOctets, List.length_append, length_checksum] at hlen
  simp only [addressOctets, List.append_assoc] at heq
  have hhead := (List.append_inj heq (by omega)).1
  exact head_notMem_aliases h (hhead ▸ hx)

/-- `address` is decoded to the keys that are encoded as it, and refused if there is none. -/
def Exact (base58 : Base58) (blake2b : Bytes → Octets 64) (address : Utf16) (n : Nat) : Prop :=
  (∀ k, decodeAddress base58 blake2b address n = .ok k ↔
    encodeAddress base58 blake2b k n = .ok address) ∧
  ((∀ k, encodeAddress base58 blake2b k n ≠ .ok address) →
    ∃ e, decodeAddress base58 blake2b address n = .error e)

theorem not_exact_alias {x : Bytes} (h : n ≤ 16383) (hx : x ∈ aliases n) (k : Octets 32) :
    ¬Exact base58 blake2b (base58.encode (addressOctets blake2b x k.1)) n := by
  intro hexact
  have hencode := (hexact.1 k.1).mp <|
    decodeAddress_eq_ok.mpr ⟨k.2, x, (reads_iff h).mpr (.inr hx), rfl⟩
  obtain ⟨hk, hcanonical⟩ := (encodeAddress_eq_ok h).mp hencode
  exact addressOctets_ne h hx hk k.2 (base58.encode_inj hcanonical)

/-- The decoder is exact on an address, unless its prefix is spelled by an alias. -/
theorem decodeAddress_exact_iff (h : n ≤ 16383) : Exact base58 blake2b address n ↔
    ¬∃ x ∈ aliases n, ∃ k : Octets 32, address = base58.encode (addressOctets blake2b x k.1) := by
  constructor
  · rintro hexact ⟨x, hx, k, rfl⟩
    exact not_exact_alias h hx k hexact
  · intro hnone
    have hiff : ∀ k, decodeAddress base58 blake2b address n = .ok k ↔
        encodeAddress base58 blake2b k n = .ok address := by
      intro k
      rw [decodeAddress_eq_ok, encodeAddress_eq_ok h]
      simp only [reads_iff h]
      constructor
      · rintro ⟨hk, x, rfl | hx, haddress⟩
        · exact ⟨hk, haddress⟩
        · exact absurd ⟨x, hx, ⟨k, hk⟩, haddress⟩ hnone
      · rintro ⟨hk, haddress⟩
        exact ⟨hk, head n, .inl rfl, haddress⟩
    refine ⟨hiff, fun hother => ?_⟩
    cases hdecode : decodeAddress base58 blake2b address n with
    | error e => exact ⟨e, rfl⟩
    | ok k => exact absurd ((hiff k).mp hdecode) (hother k)

end

/-! ## An address -/

/-- Base58 in its usual alphabet. -/
def plainBase58 : Base58 where
  encode := base58
  decode s := match ofBase58 s with
    | some bytes => .ok bytes
    | none => .error (.error "Unknown letter")
  decode_eq_ok {a bs} := by
    rw [← ofBase58_eq_some]
    cases ofBase58 a with
    | none => simp
    | some bytes => simp

def zeroHash (_ : Bytes) : Octets 64 := .zero 64

/-- An address of Warren's that the encoder writes. -/
theorem decodeAddress_exact_encoded :
    Exact plainBase58 zeroHash
      (plainBase58.encode (addressOctets zeroHash [0x7B, 0xF3] (.replicate 32 7))) 13295 := by
  refine (decodeAddress_exact_iff (by decide)).mpr ?_
  rintro ⟨x, hx, k, heq⟩
  obtain rfl : x = [0xFB, 0xF3] := List.mem_singleton.mp hx
  have hoctets := Base58.encode_inj heq
  have hfirst : some (0x7B : UInt8) = some 0xFB := congrArg List.head? hoctets
  exact absurd hfirst (by decide)

/-- The high bit of the first octet of Warren's prefix is not looked at. -/
theorem decodeAddress_not_exact_highBit :
    ¬Exact plainBase58 zeroHash
      (plainBase58.encode (addressOctets zeroHash [0xFB, 0xF3] (.replicate 32 0))) 13295 :=
  not_exact_alias (x := [0xFB, 0xF3]) (by decide) (by decide) (.zero 32)

end WarrenSdk.Core.Ss58
