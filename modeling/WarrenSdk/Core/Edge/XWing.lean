import WarrenSdk.Core.Edge.Seal

/-!
# The hybrid key encapsulation (`edge/xwing.ts`)

Two shared secrets, of ML-KEM-768 and of X25519, are hashed into one with the transcript of the
second. Where both components are ideal, the recipient recovers the sender's secret, and secrets of
different components are different.
-/

namespace WarrenSdk.Core
open Lib

def XWING_LABEL : Bytes := [0x5c, 0x2e, 0x2f, 0x2f, 0x5e, 0x5c]
def XWING_MLKEM_EK_LEN : Nat := 1184
def XWING_MLKEM_CT_LEN : Nat := 1088
def XWING_X25519_LEN : Nat := 32

/-- `ml_kem768`, whose functions throw on octets of the wrong form. -/
structure MlKem where
  encapsulate (publicKey msg : Bytes) : Option (Bytes × Bytes)
  decapsulate (cipherText secretKey : Bytes) : Option Bytes

/-- What the encapsulation imports. -/
structure XWingPackages where
  mlKem : MlKem
  x25519 : Curve
  sha3 : Bytes → Bytes

structure XWingRecipientPublicKey where
  mlkem768Ek : Bytes
  x25519Pubkey : Bytes

structure XWingRecipientSecretKey where
  mlkem768Dk : Bytes
  x25519Secret : Bytes
  x25519Pubkey : Bytes

structure XWingCiphertext where
  mlkemCt : Bytes
  x25519Ct : Bytes

structure XWingEncapsulation where
  ciphertext : XWingCiphertext
  sharedSecret : Bytes

/-- What a function of a package gives, if it does not throw. -/
def unlessThrown (message : String) : Option α → Except Failure α
  | some a => .ok a
  | none => .error (.error message)

@[simp] theorem unlessThrown_eq_ok {a : α} : unlessThrown message o = .ok a ↔ o = some a := by
  cases o with
  | none => simp [unlessThrown]
  | some b => simp [unlessThrown]

section
variable (P : XWingPackages)

def xwingCombiner (ssM ssX ctX pkX : Bytes) : Bytes :=
  P.sha3 (ssM ++ (ssX ++ (ctX ++ (pkX ++ XWING_LABEL))))

def xwingRecipientPublicFromDescriptor (mlkem768Ek x25519Pubkey : Bytes) :
    Except Failure XWingRecipientPublicKey := do
  expectLen mlkem768Ek XWING_MLKEM_EK_LEN "mlkem768Ek"
  expectLen x25519Pubkey XWING_X25519_LEN "x25519Pubkey"
  return { mlkem768Ek, x25519Pubkey }

def xwingRecipientFromParts (mlkem768Dk x25519Secret : Bytes) :
    Except Failure XWingRecipientSecretKey := do
  expectLen x25519Secret XWING_X25519_LEN "x25519Secret"
  return { mlkem768Dk, x25519Secret, x25519Pubkey := P.x25519.getPublicKey x25519Secret }

def xwingEncapsulate (recipient : XWingRecipientPublicKey) (mSeed ephXSeed : Bytes) :
    Except Failure XWingEncapsulation := do
  expectLen mSeed 32 "mSeed"
  expectLen ephXSeed XWING_X25519_LEN "ephXSeed"
  let (mlkemCt, ssM) ← unlessThrown "invalid public key"
    (P.mlKem.encapsulate recipient.mlkem768Ek mSeed)
  let ctX := P.x25519.getPublicKey ephXSeed
  let ssX ← unlessThrown "invalid private or public key received"
    (P.x25519.getSharedSecret ephXSeed recipient.x25519Pubkey)
  return { ciphertext := { mlkemCt, x25519Ct := ctX },
           sharedSecret := xwingCombiner P ssM ssX ctX recipient.x25519Pubkey }

def xwingDecapsulate (secret : XWingRecipientSecretKey) (ciphertext : XWingCiphertext) :
    Except Failure Bytes := do
  expectLen ciphertext.mlkemCt XWING_MLKEM_CT_LEN "mlkemCt"
  expectLen ciphertext.x25519Ct XWING_X25519_LEN "x25519Ct"
  let ssM ← unlessThrown "invalid ciphertext"
    (P.mlKem.decapsulate ciphertext.mlkemCt secret.mlkem768Dk)
  let ssX ← unlessThrown "invalid private or public key received"
    (P.x25519.getSharedSecret secret.x25519Secret ciphertext.x25519Ct)
  return xwingCombiner P ssM ssX ciphertext.x25519Ct secret.x25519Pubkey

end

/-! ## Ideal components -/

/-- The randomness of one encapsulation. -/
structure Draw where
  mSeed : Octets 32
  ephXSeed : Octets XWING_X25519_LEN

/-- The components are ideal for the keys of a recipient: what is encapsulated for its public key is
recovered with its secret key. The hash is injective. -/
structure XWingPackages.Ideal (P : XWingPackages) (secret : XWingRecipientSecretKey)
    (recipient : XWingRecipientPublicKey) : Prop where
  x25519Pubkey : secret.x25519Pubkey = recipient.x25519Pubkey
  mlKem {msg : Bytes} : msg.length = 32 → ∃ ct ss,
    P.mlKem.encapsulate recipient.mlkem768Ek msg = some (ct, ss) ∧
      P.mlKem.decapsulate ct secret.mlkem768Dk = some ss ∧
        ct.length = XWING_MLKEM_CT_LEN ∧ ss.length = 32
  x25519 {eph : Bytes} : eph.length = XWING_X25519_LEN → ∃ ss,
    P.x25519.getSharedSecret eph recipient.x25519Pubkey = some ss ∧
      P.x25519.getSharedSecret secret.x25519Secret (P.x25519.getPublicKey eph) = some ss ∧
        (P.x25519.getPublicKey eph).length = XWING_X25519_LEN ∧ ss.length = XWING_X25519_LEN
  sha3_inj {a b : Bytes} : P.sha3 a = P.sha3 b → a = b

/-- The component secrets of an encapsulation. -/
def XWingPackages.secrets (P : XWingPackages) (recipient : XWingRecipientPublicKey) (d : Draw) :
    Option Bytes × Option Bytes :=
  ((P.mlKem.encapsulate recipient.mlkem768Ek d.mSeed.1).map (·.2),
    P.x25519.getSharedSecret d.ephXSeed.1 recipient.x25519Pubkey)

section
variable {P : XWingPackages} {recipient : XWingRecipientPublicKey}

theorem xwingEncapsulate_eq_ok {mSeed ephXSeed : Bytes} {enc : XWingEncapsulation} :
    xwingEncapsulate P recipient mSeed ephXSeed = .ok enc ↔
      mSeed.length = 32 ∧ ephXSeed.length = XWING_X25519_LEN ∧
        ∃ ct ssM ssX, P.mlKem.encapsulate recipient.mlkem768Ek mSeed = some (ct, ssM) ∧
          P.x25519.getSharedSecret ephXSeed recipient.x25519Pubkey = some ssX ∧
          enc = ⟨⟨ct, P.x25519.getPublicKey ephXSeed⟩,
            xwingCombiner P ssM ssX (P.x25519.getPublicKey ephXSeed) recipient.x25519Pubkey⟩ := by
  simp only [xwingEncapsulate, bind_eq_ok, expectLen_eq_ok, unlessThrown_eq_ok, pure, Except.pure,
    Except.ok.injEq]
  constructor
  · rintro ⟨-, hm, -, hx, ⟨ct, ssM⟩, hM, ssX, hX, rfl⟩
    exact ⟨hm, hx, ct, ssM, ssX, hM, hX, rfl⟩
  · rintro ⟨hm, hx, ct, ssM, ssX, hM, hX, rfl⟩
    exact ⟨(), hm, (), hx, (ct, ssM), hM, ssX, hX, rfl⟩

theorem xwingDecapsulate_eq_ok {secret : XWingRecipientSecretKey} {ct : XWingCiphertext} :
    xwingDecapsulate P secret ct = .ok ss ↔
      ct.mlkemCt.length = XWING_MLKEM_CT_LEN ∧ ct.x25519Ct.length = XWING_X25519_LEN ∧
        ∃ ssM ssX, P.mlKem.decapsulate ct.mlkemCt secret.mlkem768Dk = some ssM ∧
          P.x25519.getSharedSecret secret.x25519Secret ct.x25519Ct = some ssX ∧
          xwingCombiner P ssM ssX ct.x25519Ct secret.x25519Pubkey = ss := by
  simp only [xwingDecapsulate, bind_eq_ok, expectLen_eq_ok, unlessThrown_eq_ok, pure, Except.pure,
    Except.ok.injEq]
  constructor
  · rintro ⟨-, hm, -, hx, ssM, hM, ssX, hX, hss⟩
    exact ⟨hm, hx, ssM, ssX, hM, hX, hss⟩
  · rintro ⟨hm, hx, ssM, ssX, hM, hX, hss⟩
    exact ⟨(), hm, (), hx, ssM, hM, ssX, hX, hss⟩

variable {secret : XWingRecipientSecretKey}

/-- An encapsulation for ideal keys succeeds, and its secret is recovered. -/
theorem XWingPackages.Ideal.decapsulate (h : P.Ideal secret recipient) (d : Draw) :
    ∃ enc, xwingEncapsulate P recipient d.mSeed.1 d.ephXSeed.1 = .ok enc ∧
      xwingDecapsulate P secret enc.ciphertext = .ok enc.sharedSecret := by
  obtain ⟨ct, ssM, hM, hM', hct, -⟩ := h.mlKem d.mSeed.2
  obtain ⟨ssX, hX, hX', hpk, -⟩ := h.x25519 d.ephXSeed.2
  refine ⟨_, xwingEncapsulate_eq_ok.mpr ⟨d.mSeed.2, d.ephXSeed.2, ct, ssM, ssX, hM, hX, rfl⟩, ?_⟩
  refine xwingDecapsulate_eq_ok.mpr ⟨hct, hpk, ssM, ssX, hM', hX', ?_⟩
  rw [h.x25519Pubkey]

/-- The combined secrets of two encapsulations tell their component secrets apart. -/
theorem XWingPackages.Ideal.secrets_eq (h : P.Ideal secret recipient) {d d' : Draw}
    (hd : xwingEncapsulate P recipient d.mSeed.1 d.ephXSeed.1 = .ok enc)
    (hd' : xwingEncapsulate P recipient d'.mSeed.1 d'.ephXSeed.1 = .ok enc')
    (he : enc.sharedSecret = enc'.sharedSecret) : P.secrets recipient d =
        P.secrets recipient d' := by
  obtain ⟨-, -, ct, ssM, ssX, hM, hX, rfl⟩ := xwingEncapsulate_eq_ok.mp hd
  obtain ⟨-, -, ct', ssM', ssX', hM', hX', rfl⟩ := xwingEncapsulate_eq_ok.mp hd'
  obtain ⟨_, _, hm, -, -, hlenM⟩ := h.mlKem d.mSeed.2
  obtain ⟨_, _, hm', -, -, hlenM'⟩ := h.mlKem d'.mSeed.2
  obtain ⟨_, hx, -, -, hlenX⟩ := h.x25519 d.ephXSeed.2
  obtain ⟨_, hx', -, -, hlenX'⟩ := h.x25519 d'.ephXSeed.2
  cases hM.symm.trans hm
  cases hM'.symm.trans hm'
  cases hX.symm.trans hx
  cases hX'.symm.trans hx'
  obtain ⟨rfl, hrest⟩ := List.append_inj (h.sha3_inj he) (hlenM.trans hlenM'.symm)
  obtain ⟨rfl, -⟩ := List.append_inj hrest (hlenX.trans hlenX'.symm)
  rw [XWingPackages.secrets, XWingPackages.secrets, hM, hM', hX, hX']
  rfl

end

/-! ## Sample components -/

/-- The message as the secret of ML-KEM, and sums of octets as those of X25519. -/
def sampleXWing : XWingPackages where
  mlKem.encapsulate _ msg := some (msg ++ List.replicate (XWING_MLKEM_CT_LEN - 32) 0, msg)
  mlKem.decapsulate ct _ := some (ct.take 32)
  x25519.getPublicKey secret := secret
  x25519.getSharedSecret secret publicKey := some (List.zipWith (· + ·) secret publicKey)
  sha3 := id

def sampleSecret : XWingRecipientSecretKey := ⟨[], List.replicate 32 0, List.replicate 32 0⟩

def sampleRecipient : XWingRecipientPublicKey := ⟨[], List.replicate 32 0⟩

theorem ideal_sampleXWing : sampleXWing.Ideal sampleSecret sampleRecipient where
  x25519Pubkey := rfl
  mlKem {msg} h := by
    refine ⟨_, msg, rfl, ?_, ?_, h⟩
    · simp [sampleXWing, ← h]
    · rw [List.length_append, h, List.length_replicate]
      rfl
  x25519 {eph} h := by
    refine ⟨_, rfl, ?_, h, ?_⟩
    · exact congrArg some (List.zipWith_comm_of_comm UInt8.add_comm)
    · rw [List.length_zipWith, h]
      rfl
  sha3_inj h := h

end WarrenSdk.Core
