import WarrenSdk.Lib.Leb128

/-!
# Ideal key derivation and encryption

Key derivation and authenticated encryption as functions of octets, and what makes them ideal: a key
tells all that it was derived from, and what was sealed is opened with its own key and data, and
with no other. Records of the arguments are ideal in this sense.
-/

namespace WarrenSdk.Lib

structure Hkdf where
  extract (ikm salt : Bytes) : Bytes
  expand (prk info : Bytes) (length : Nat) : Bytes

structure Aead where
  encrypt (key nonce aad payload : Bytes) : Bytes
  /-- What was sealed, or nothing if the tag does not verify. -/
  decrypt (key nonce aad sealed : Bytes) : Option Bytes

structure Hkdf.Ideal (K : Hkdf) : Prop where
  extract_inj {ikm ikm' salt : Bytes} : K.extract ikm salt = K.extract ikm' salt → ikm = ikm'
  expand_inj {prk prk' info info' : Bytes} {length : Nat} :
    K.expand prk info length = K.expand prk' info' length → prk = prk' ∧ info = info'

structure Aead.Ideal (A : Aead) (tagLen : Nat) : Prop where
  tag_le (key nonce aad payload : Bytes) : tagLen ≤ (A.encrypt key nonce aad payload).length
  decrypt_eq_some {key nonce aad payload sealed : Bytes} :
    A.decrypt key nonce aad sealed = some payload ↔ sealed = A.encrypt key nonce aad payload
  encrypt_inj {key key' nonce aad aad' payload payload' : Bytes} :
    A.encrypt key nonce aad payload = A.encrypt key' nonce aad' payload' → key = key' ∧ aad = aad'

namespace Aead.Ideal

variable {A : Aead} {tagLen : Nat}

theorem decrypt_encrypt (h : A.Ideal tagLen) (key nonce aad payload : Bytes) :
    A.decrypt key nonce aad (A.encrypt key nonce aad payload) = some payload :=
  h.decrypt_eq_some.mpr rfl

/-- What is opened with two keys has one key, and one associated data. -/
theorem decrypt_inj (h : A.Ideal tagLen) {sealed : Bytes}
    (ho : A.decrypt key nonce aad sealed = some payload)
    (ho' : A.decrypt key' nonce aad' sealed = some payload') : key = key' ∧ aad = aad' := by
  have he := h.decrypt_eq_some.mp ho
  exact h.encrypt_inj (he.symm.trans (h.decrypt_eq_some.mp ho'))

/-- Another key opens nothing that was sealed. -/
theorem decrypt_of_key_ne (h : A.Ideal tagLen) (hne : key ≠ key') :
    A.decrypt key nonce aad (A.encrypt key' nonce aad' payload) = none := by
  apply Option.eq_none_iff_forall_ne_some.mpr
  intro p ho
  exact hne (h.decrypt_inj ho (h.decrypt_encrypt key' nonce aad' payload)).1

end Aead.Ideal

/-! ## Records -/

/-- Octets behind their length. -/
def sized (bs : Bytes) : Bytes := toLeb bs.length ++ bs

theorem sized_append_inj {as bs r r' : Bytes} (h : sized as ++ r = sized bs ++ r') :
    as = bs ∧ r = r' := by
  rw [sized, sized, List.append_assoc, List.append_assoc] at h
  obtain ⟨hlen, hrest⟩ := (isLeb_toLeb as.length).append_inj (isLeb_toLeb bs.length) h
  exact List.append_inj hrest (toLeb_inj hlen)

/-- Keys that are records of what they were derived from. -/
def recordHkdf : Hkdf where
  extract ikm salt := ikm ++ salt
  expand prk info _ := sized prk ++ info

theorem ideal_recordHkdf : recordHkdf.Ideal where
  extract_inj h := List.append_cancel_right h
  expand_inj h := sized_append_inj h

/-- Ciphertexts that are records of what was sealed, with a tag of zeros. -/
def recordAead (tagLen : Nat) : Aead where
  encrypt key _ aad payload := sized key ++ (sized aad ++ (payload ++ List.replicate tagLen 0))
  decrypt key _ aad sealed :=
    let rest := sealed.drop (sized key ++ sized aad).length
    let payload := rest.take (rest.length - tagLen)
    if sealed = sized key ++ (sized aad ++ (payload ++ List.replicate tagLen 0)) then some payload
    else none

theorem ideal_recordAead (tagLen : Nat) : (recordAead tagLen).Ideal tagLen where
  tag_le key nonce aad payload := by
    simp only [recordAead, List.length_append, List.length_replicate]
    omega
  decrypt_eq_some := by
    intro key nonce aad payload sealed
    simp only [recordAead]
    constructor
    · intro h
      split at h
      · next hs =>
        cases h
        exact hs
      · cases h
    · rintro rfl
      have hrest : (sized key ++ (sized aad ++ (payload ++ List.replicate tagLen 0))).drop
          (sized key ++ sized aad).length = payload ++ List.replicate tagLen 0 := by
        rw [← List.append_assoc, List.drop_left]
      have hlen : (payload ++ List.replicate tagLen (0 : UInt8)).length - tagLen =
          payload.length := by
        rw [List.length_append, List.length_replicate, Nat.add_sub_cancel]
      rw [hrest, hlen, List.take_left, if_pos rfl]
  encrypt_inj h := by
    obtain ⟨hkey, hrest⟩ := sized_append_inj h
    exact ⟨hkey, (sized_append_inj hrest).1⟩

end WarrenSdk.Lib
