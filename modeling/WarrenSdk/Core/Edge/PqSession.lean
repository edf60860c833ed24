import WarrenSdk.Core.Edge.PqSeal

/-!
# Runs of a post-quantum session

A client is rekeyed and pruned in any order. In every state of the run it holds the secret of its
epoch and, if the last call was a rekey, that of the epoch before. The exit recovers the secret of
the epoch it was created from, so it and the client agree exactly on the epochs the client still
holds.
-/

namespace WarrenSdk.Core
open Lib PqSeal

namespace WarrenPqClientSession

inductive Call
  | rekey (draw : Draw)
  | prunePendingOldEpoch

variable (P : XWingPackages)

/-- A call that throws leaves the session as it was. -/
def step (s : WarrenPqClientSession) : Call → WarrenPqClientSession
  | .rekey draw =>
    match s.rekey P draw with
    | .ok s => s
    | .error _ => s
  | .prunePendingOldEpoch => s.prunePendingOldEpoch

def run (s : WarrenPqClientSession) (calls : List Call) : WarrenPqClientSession :=
  calls.foldl (step P) s

def Call.draw : Call → Option Draw
  | .rekey draw => some draw
  | .prunePendingOldEpoch => none

/-- What the rekeys of `calls` draw. States after the same rekeys are in the same epoch. -/
def rekeys (calls : List Call) : List Draw := calls.filterMap Call.draw

/-- There was a rekey, and no pruning since: the last call was a rekey. -/
def Overlap (calls : List Call) : Prop := ∃ draw, calls.getLast? = some (.rekey draw)

/-- The client has a secret for `epoch` after `calls`, which brought it to `s`: it is the current
epoch, or the one before the last rekey, if nothing was pruned since. -/
def Live (s : WarrenPqClientSession) (calls : List Call) (epoch : Nat) : Prop :=
  epoch = s.currentEpoch ∨ Overlap calls ∧ epoch + 1 = s.currentEpoch

/-- No two encapsulations have the same component secrets. -/
def Fresh (recipient : XWingRecipientPublicKey) (draws : List Draw) : Prop :=
  draws.Pairwise fun d d' => P.secrets recipient d ≠ P.secrets recipient d'

/-! ## What a session holds -/

variable {P} {recipient : XWingRecipientPublicKey}

/-- `secret` is the shared secret of the encapsulation drawn in epoch `epoch`. -/
def SecretOf (P : XWingPackages) (recipient : XWingRecipientPublicKey) (draws : List Draw)
    (epoch : Nat) (secret : Bytes) : Prop :=
  ∃ d enc, draws[epoch]? = some d ∧
    xwingEncapsulate P recipient d.mSeed.1 d.ephXSeed.1 = .ok enc ∧ enc.sharedSecret = secret

/-- A session after the encapsulations `draws`, the first of them its creation. -/
structure Holds (P : XWingPackages) (recipient : XWingRecipientPublicKey)
    (exitId : Octets EXIT_ID_LEN) (draws : List Draw) (s : WarrenPqClientSession) : Prop where
  recipientEq : s.recipient = recipient
  exitIdEq : s.exitId = exitId
  drawn : 0 < draws.length
  epoch : s.currentEpoch = min (draws.length - 1) MAX_EXACT
  /-- The material on the wire is that of the secret. -/
  current : ∃ d enc, draws[draws.length - 1]? = some d ∧
    xwingEncapsulate P recipient d.mSeed.1 d.ephXSeed.1 = .ok enc ∧
      enc.sharedSecret = s.sharedSecret ∧
        enc.ciphertext = ⟨s.currentPqCt, s.currentEncapsulatedKey⟩
  pending (old : PqPendingOldEpoch) : s.pendingOldEpoch = some old → 2 ≤ draws.length ∧
    old.epoch = min (draws.length - 2) MAX_EXACT ∧
      SecretOf P recipient draws (draws.length - 2) old.sharedSecret

theorem toNumber_succ_min (n : Nat) : toNumber (min n MAX_EXACT + 1) = min (n + 1) MAX_EXACT := by
  rcases Nat.lt_or_ge (n + 1) MAX_EXACT with hlt | hge
  · rw [Nat.min_eq_left (Nat.le_of_succ_le (Nat.le_of_lt hlt)), Nat.min_eq_left (Nat.le_of_lt hlt),
      toNumber_of_lt hlt]
  · rw [Nat.min_eq_right hge]
    rcases Nat.lt_or_ge n MAX_EXACT with hn | hn
    · have heq : n + 1 = MAX_EXACT := Nat.le_antisymm hn hge
      rw [Nat.min_eq_left (Nat.le_of_lt hn), heq]
      decide +kernel
    · rw [Nat.min_eq_right hn]
      decide +kernel

theorem holds_create {draw : Draw} {exitId : Bytes}
    (h : create P recipient exitId draw = .ok s) : Holds P recipient s.exitId [draw] s := by
  unfold create at h
  obtain ⟨enc, henc, h⟩ := bind_eq_ok.mp h
  split at h
  · cases h
    exact
      { recipientEq := rfl
        exitIdEq := rfl
        drawn := Nat.one_pos
        epoch := rfl
        current := ⟨draw, enc, rfl, henc, rfl, rfl⟩
        pending := nofun }
  · cases h

variable {secret : XWingRecipientSecretKey} {exitId : Octets EXIT_ID_LEN} {draws : List Draw}
  {s : WarrenPqClientSession}

theorem Holds.next (h : Holds P recipient exitId draws s) {d : Draw}
    (henc : xwingEncapsulate P recipient d.mSeed.1 d.ephXSeed.1 = .ok enc) :
    Holds P recipient exitId (draws ++ [d]) (s.next enc) := by
  have hpos := h.drawn
  have hlen : (draws ++ [d]).length = draws.length + 1 := List.length_append
  have hlast : (draws ++ [d])[draws.length]? = some d := List.getElem?_concat_length
  refine
    { recipientEq := h.recipientEq
      exitIdEq := h.exitIdEq
      drawn := by omega
      epoch := ?_
      current := ⟨d, enc, by rw [hlen]; exact hlast, henc, rfl, rfl⟩
      pending := ?_ }
  · have hsucc := toNumber_succ_min (draws.length - 1)
    rw [← h.epoch, Nat.sub_add_cancel hpos] at hsucc
    rw [hlen]
    exact hsucc
  · intro old hold
    cases hold
    obtain ⟨d', enc', hd', henc', hsecret, -⟩ := h.current
    have hprev : (draws ++ [d])[draws.length - 1]? = some d' := by
      rw [List.getElem?_append_left (by omega), hd']
    rw [hlen, show draws.length + 1 - 2 = draws.length - 1 by omega]
    exact ⟨by omega, h.epoch, d', enc', hprev, henc', hsecret⟩

theorem Holds.prune (h : Holds P recipient exitId draws s) :
    Holds P recipient exitId draws s.prunePendingOldEpoch :=
  { h with pending := nofun }

/-- Every rekey for an ideal recipient succeeds. -/
theorem Holds.step_rekey (hP : P.Ideal secret recipient) (h : Holds P recipient exitId draws s)
    (d : Draw) : ∃ enc, xwingEncapsulate P recipient d.mSeed.1 d.ephXSeed.1 = .ok enc ∧
      step P s (.rekey d) = s.next enc := by
  obtain ⟨enc, henc, -⟩ := hP.decapsulate d
  refine ⟨enc, henc, ?_⟩
  have hrekey : s.rekey P d = .ok (s.next enc) :=
    bind_eq_ok.mpr ⟨enc, by rw [h.recipientEq]; exact henc, rfl⟩
  rw [step, hrekey]

theorem holds_run (hP : P.Ideal secret recipient) (h : Holds P recipient exitId [d₀] s)
    (calls : List Call) :
    Holds P recipient exitId (d₀ :: rekeys calls) (run P s calls) := by
  induction calls using List.reverseRecOn with
  | nil => exact h
  | append_singleton calls c ih =>
    rw [run, List.foldl_append, rekeys, List.filterMap_append]
    cases c with
    | rekey d =>
      obtain ⟨enc, henc, hstep⟩ := ih.step_rekey hP d
      change Holds P recipient exitId _ (step P (run P s calls) (.rekey d))
      rw [hstep]
      exact ih.next henc
    | prunePendingOldEpoch =>
      rw [List.filterMap_cons_none rfl, List.filterMap_nil, List.append_nil]
      exact ih.prune

/-- There is an old epoch exactly if the last call was a rekey. -/
theorem pending_run_iff (hP : P.Ideal secret recipient) (h : Holds P recipient exitId [d₀] s)
    (calls : List Call) (hne : s.pendingOldEpoch = none) :
    (run P s calls).pendingOldEpoch.isSome ↔ Overlap calls := by
  induction calls using List.reverseRecOn with
  | nil => simp [run, hne, Overlap]
  | append_singleton calls c _ =>
    rw [run, List.foldl_append]
    cases c with
    | rekey d =>
      obtain ⟨enc, -, hstep⟩ := (holds_run hP h calls).step_rekey hP d
      rw [List.foldl_cons, List.foldl_nil]
      change (step P (run P s calls) (.rekey d)).pendingOldEpoch.isSome ↔ _
      rw [hstep]
      exact ⟨fun _ => ⟨d, List.getLast?_concat⟩, fun _ => rfl⟩
    | prunePendingOldEpoch => simp [step, prunePendingOldEpoch, Overlap]

/-! ## Agreement -/

section
variable {all : List Draw} {calls : List Call}

theorem SecretOf.mono (h : SecretOf P recipient draws epoch σ) (hpre : draws <+: all) :
    SecretOf P recipient all epoch σ := by
  obtain ⟨d, enc, hd, henc⟩ := h
  obtain ⟨rest, rfl⟩ := hpre
  exact ⟨d, enc, List.getElem?_append_left (List.getElem?_eq_some_iff.mp hd).1 ▸ hd, henc⟩

theorem SecretOf.eq (h : SecretOf P recipient draws epoch σ)
    (h' : SecretOf P recipient draws epoch σ') : σ = σ' := by
  obtain ⟨d, enc, hd, henc, rfl⟩ := h
  obtain ⟨d', enc', hd', henc', rfl⟩ := h'
  cases hd.symm.trans hd'
  cases henc.symm.trans henc'
  rfl

/-- Secrets of different epochs are different, if the component secrets are. -/
theorem SecretOf.ne (hP : P.Ideal secret recipient) (hfresh : Fresh P recipient draws)
    (h : SecretOf P recipient draws j σ) (h' : SecretOf P recipient draws k σ') (hne : j ≠ k) :
    σ ≠ σ' := by
  obtain ⟨d, enc, hd, henc, rfl⟩ := h
  obtain ⟨d', enc', hd', henc', rfl⟩ := h'
  obtain ⟨hj, rfl⟩ := List.getElem?_eq_some_iff.mp hd
  obtain ⟨hk, rfl⟩ := List.getElem?_eq_some_iff.mp hd'
  intro heq
  have hsecrets := hP.secrets_eq henc henc' heq
  rcases Nat.lt_or_gt_of_ne hne with hlt | hlt
  · exact List.pairwise_iff_getElem.mp hfresh j k hj hk hlt hsecrets
  · exact List.pairwise_iff_getElem.mp hfresh k j hk hj hlt hsecrets.symm

/-- The secret of an epoch is the one that was drawn in it. -/
theorem Holds.secretFor (h : Holds P recipient exitId draws s) {k : Nat} (hk : k < MAX_EXACT)
    (hσ : s.secretFor k = some σ) : SecretOf P recipient draws k σ := by
  unfold WarrenPqClientSession.secretFor at hσ
  have hepoch := h.epoch
  split at hσ
  · next heq =>
    cases hσ
    obtain ⟨d, enc, hd, henc, hsecret, -⟩ := h.current
    have hlast : draws.length - 1 = k := by
      have := Nat.cast_inj.mp heq
      omega
    exact ⟨d, enc, hlast ▸ hd, henc, hsecret⟩
  · split at hσ
    · next old hold =>
      split at hσ
      · next heq =>
        cases hσ
        obtain ⟨-, hold, hsecret⟩ := h.pending old hold
        have hlast : draws.length - 2 = k := by
          have := Nat.cast_inj.mp heq
          omega
        exact hlast ▸ hsecret
      · cases hσ
    · cases hσ

/-- The client has a secret for the epochs that are live, and no other. -/
theorem Holds.secretFor_isSome (h : Holds P recipient exitId draws s) {k : Nat} (hk : k < 2 ^ 32)
    (hpending : s.pendingOldEpoch.isSome ↔ Overlap calls) :
    (s.secretFor k).isSome ↔ Live s calls k := by
  have hmax : 2 ^ 32 + 1 < MAX_EXACT := by decide
  have hepoch := h.epoch
  unfold WarrenPqClientSession.secretFor
  rw [Live, ← hpending]
  split
  · next heq => exact ⟨fun _ => .inl (Nat.cast_inj.mp heq), fun _ => rfl⟩
  · next hne =>
    have hne := mt Nat.cast_inj.mpr hne
    cases hold : s.pendingOldEpoch with
    | none => simp [hne]
    | some old =>
      obtain ⟨hlen, hold, -⟩ := h.pending old hold
      simp only [hne, false_or, Option.isSome_some, true_and]
      split
      · next heq =>
        have heq := Nat.cast_inj.mp heq
        refine ⟨fun _ => ?_, fun _ => rfl⟩
        omega
      · next hne =>
        have hne := mt Nat.cast_inj.mpr hne
        refine ⟨nofun, fun heq => absurd ?_ hne⟩
        omega

/-- The exit that is created from the material of a state has the secret of that state. -/
theorem Holds.create_exit (hP : P.Ideal secret recipient) (h : Holds P recipient exitId draws s) :
    WarrenPqExitSession.create P secret s.currentEncapsulatedKey s.currentPqCt s.exitId =
      .ok ⟨s.sharedSecret, s.exitId, s.currentEncapsulatedKey⟩ := by
  obtain ⟨d, enc, -, henc, hsecret, hct⟩ := h.current
  obtain ⟨enc', henc', hdec⟩ := hP.decapsulate d
  cases henc.symm.trans henc'
  rw [hct, hsecret] at hdec
  exact bind_eq_ok.mpr ⟨_, hdec, rfl⟩

/-- The current secret is that of the current epoch. -/
theorem Holds.secretOf_current (h : Holds P recipient exitId draws s)
    (hlt : s.currentEpoch < MAX_EXACT) : SecretOf P recipient draws s.currentEpoch
        s.sharedSecret := by
  obtain ⟨d, enc, hd, henc, hsecret, -⟩ := h.current
  have hlast : draws.length - 1 = s.currentEpoch := by
    have := h.epoch
    omega
  exact ⟨d, enc, hlast ▸ hd, henc, hsecret⟩

/-- A forward frame is refused as a response, by every session. -/
theorem openResponse_sealInner (hK : K.Ideal) (hA : A.Ideal AEAD_TAG_LEN)
    (s s' : WarrenPqClientSession) (payload : Bytes) (epoch : Rat) (seq : Int) (pqCt : Bytes) :
    ∃ e, s.openResponse K A (s'.sealInner K A payload epoch seq pqCt) = .error e := by
  rcases hres : s.openResponse K A (s'.sealInner K A payload epoch seq pqCt) with e | p
  · exact ⟨e, rfl⟩
  · obtain ⟨-, -, σ, -, hopen⟩ := openResponse_eq_ok.mp hres
    have hrefused : ∃ e, openWithSecret K A σ s.exitId (s'.sealInner K A payload epoch seq pqCt)
        true = .error e := openWithSecret_refused hK hA (.inr (by decide))
    obtain ⟨e, he⟩ := hrefused
    cases hopen.symm.trans he

/-- A response is refused as a forward frame, by every exit. -/
theorem openFrame_sealResponse (hK : K.Ideal) (hA : A.Ideal AEAD_TAG_LEN)
    (x x' : WarrenPqExitSession) (payload : Bytes) (epoch : Rat) (seq : Int) :
    ∃ e, x.openFrame K A (x'.sealResponse K A payload epoch seq) = .error e := by
  unfold WarrenPqExitSession.openFrame
  split
  · exact ⟨_, rfl⟩
  · split
    · exact ⟨_, rfl⟩
    · exact openWithSecret_refused hK hA (.inr (show false ≠ true by decide))

/-- The exit opens what the client seals with their common secret. -/
theorem openFrame_sealInner (hA : A.Ideal AEAD_TAG_LEN) {x : WarrenPqExitSession}
    (hexit : x.exitId = s.exitId) (hsecret : x.sharedSecret = s.sharedSecret) (payload : Bytes)
    (epoch : Rat) (seq : Int) (pqCt : Bytes) :
    x.openFrame K A (s.sealInner K A payload epoch seq pqCt) = .ok payload := by
  have hid : (s.sealInner K A payload epoch seq pqCt).exitId = x.exitId.1 := by
    rw [hexit]
    rfl
  have hversion : (s.sealInner K A payload epoch seq pqCt).version = WARREN_HPKE_VERSION_V2 := rfl
  rw [WarrenPqExitSession.openFrame, if_neg (not_not.mpr hid), if_neg (not_not.mpr hversion),
    hsecret, hexit]
  exact openWithSecret_sealWithSecret hA

/-- The client opens what the exit seals with the secret the client has for the epoch. -/
theorem openResponse_sealResponse (hA : A.Ideal AEAD_TAG_LEN) {x : WarrenPqExitSession}
    (hexit : x.exitId = s.exitId) {epoch : Rat} (hsecret : s.secretFor epoch = some x.sharedSecret)
    (payload : Bytes) (seq : Int) :
    s.openResponse K A (x.sealResponse K A payload epoch seq) = .ok payload := by
  rw [openResponse_of_secretFor (congrArg Subtype.val hexit) rfl hsecret, ← hexit]
  exact openWithSecret_sealWithSecret hA

/-- Without the exit's secret for the epoch, the client refuses what the exit seals. -/
theorem openResponse_refused (hK : K.Ideal) (hA : A.Ideal AEAD_TAG_LEN) {x : WarrenPqExitSession}
    {epoch : Rat} (hsecret : s.secretFor epoch ≠ some x.sharedSecret) (payload : Bytes)
    (seq : Int) :
    ∃ e, s.openResponse K A (x.sealResponse K A payload epoch seq) = .error e := by
  rcases hres : s.openResponse K A (x.sealResponse K A payload epoch seq) with e | p
  · exact ⟨e, rfl⟩
  · obtain ⟨-, -, σ, hσ, hopen⟩ := openResponse_eq_ok.mp hres
    have hne : σ ≠ x.sharedSecret := by
      rintro rfl
      exact hsecret hσ
    have hrefused : ∃ e, openWithSecret K A σ s.exitId (x.sealResponse K A payload epoch seq) true =
        .error e := openWithSecret_refused hK hA (.inl hne)
    obtain ⟨e, he⟩ := hrefused
    cases hopen.symm.trans he

theorem create_pending {exitId : Bytes} (h : create P recipient exitId draw = .ok s) :
    s.pendingOldEpoch = none := by
  unfold create at h
  obtain ⟨enc, -, h⟩ := bind_eq_ok.mp h
  split at h
  · cases h
    rfl
  · cases h

theorem rekeys_of_take (calls : List Call) (i : Nat) : rekeys (calls.take i) <+: rekeys calls :=
  (List.take_prefix i calls).filterMap Call.draw

/-- In a run of rekeys and prunings, the exit that was created at one point and the client at
another agree: a response is opened if its epoch is that of the exit and is live, and is refused
otherwise; in the exit's epoch, what the client seals is opened; and nothing is opened in the wrong
direction. -/
theorem session_agreement (hP : P.Ideal secret recipient) (hK : K.Ideal) (hA : A.Ideal AEAD_TAG_LEN)
    {exitId : Bytes} (hcreate : create P recipient exitId d₀ = .ok s₀)
    (hfresh : Fresh P recipient (d₀ :: rekeys calls)) (i m : Nat) :
    let past := run P s₀ (calls.take i)
    let now := run P s₀ (calls.take m)
    ∃ x, WarrenPqExitSession.create P secret past.currentEncapsulatedKey past.currentPqCt
        past.exitId = .ok x ∧
      (∀ k : Nat, past.currentEpoch < 2 ^ 32 → k < 2 ^ 32 → ∀ payload seq,
        (past.currentEpoch = k ∧ now.Live (calls.take m) k →
          now.openResponse K A (x.sealResponse K A payload k seq) = .ok payload) ∧
        (¬ (past.currentEpoch = k ∧ now.Live (calls.take m) k) →
          ∃ e, now.openResponse K A (x.sealResponse K A payload k seq) = .error e)) ∧
      (rekeys (calls.take i) = rekeys (calls.take m) → ∀ payload seq,
        x.openFrame K A (now.sealSetup K A payload now.currentEpoch seq) = .ok payload ∧
        x.openFrame K A (now.sealData K A payload now.currentEpoch seq) = .ok payload) ∧
      ∀ payload epoch seq,
        (∃ e, now.openResponse K A (past.sealSetup K A payload epoch seq) = .error e) ∧
        (∃ e, now.openResponse K A (past.sealData K A payload epoch seq) = .error e) ∧
        ∀ x', ∃ e, x.openFrame K A (WarrenPqExitSession.sealResponse K A x' payload epoch seq) =
          .error e := by
  intro past now
  have hmax : 2 ^ 32 < MAX_EXACT := by decide
  have hs₀ := holds_create hcreate
  have hpast : Holds P recipient s₀.exitId (d₀ :: rekeys (calls.take i)) past := holds_run hP hs₀ _
  have hnow : Holds P recipient s₀.exitId (d₀ :: rekeys (calls.take m)) now := holds_run hP hs₀ _
  have hpending : now.pendingOldEpoch.isSome ↔ Overlap (calls.take m) :=
    pending_run_iff hP hs₀ _ (create_pending hcreate)
  have hexit : past.exitId = now.exitId := hpast.exitIdEq.trans hnow.exitIdEq.symm
  have hpre (n : Nat) : d₀ :: rekeys (calls.take n) <+: d₀ :: rekeys calls :=
    (List.prefix_cons_inj d₀).mpr (rekeys_of_take calls n)
  refine ⟨_, hpast.create_exit hP, ?_, ?_, ?_⟩
  · intro k hj hk payload seq
    have hsecret := (hpast.secretOf_current (Nat.lt_trans hj hmax)).mono (hpre i)
    have hlive := hnow.secretFor_isSome hk hpending
    have hdrawn {σ : Bytes} (hσ : now.secretFor k = some σ) :
        SecretOf P recipient (d₀ :: rekeys calls) k σ :=
      (hnow.secretFor (Nat.lt_trans hk hmax) hσ).mono (hpre m)
    constructor
    · rintro ⟨rfl, hk⟩
      obtain ⟨σ, hσ⟩ := Option.isSome_iff_exists.mp (hlive.mpr hk)
      rw [(hdrawn hσ).eq hsecret] at hσ
      exact openResponse_sealResponse hA hexit hσ payload seq
    · intro hnot
      refine openResponse_refused hK hA (fun hσ => hnot ⟨?_, ?_⟩) payload seq
      · by_contra hne
        exact hsecret.ne hP hfresh (hdrawn hσ) hne rfl
      · exact hlive.mp (Option.isSome_iff_exists.mpr ⟨_, hσ⟩)
  · intro hsame payload seq
    have hsecret : past.sharedSecret = now.sharedSecret := by
      obtain ⟨d, enc, hd, henc, hσ, -⟩ := hpast.current
      obtain ⟨d', enc', hd', henc', hσ', -⟩ := hnow.current
      rw [← hsame] at hd'
      cases hd.symm.trans hd'
      cases henc.symm.trans henc'
      exact hσ.symm.trans hσ'
    exact ⟨openFrame_sealInner hA hexit hsecret payload _ seq _,
      openFrame_sealInner hA hexit hsecret payload _ seq _⟩
  · intro payload epoch seq
    exact ⟨openResponse_sealInner hK hA now past payload epoch seq _,
      openResponse_sealInner hK hA now past payload epoch seq _,
      fun x' => openFrame_sealResponse hK hA _ x' payload epoch seq⟩

end

/-- An exit of the epoch 0 answers after the client's rekey. -/
theorem session_agreement_overlap :
    let draw (n : UInt8) : Draw := ⟨⟨List.replicate 32 n, rfl⟩, ⟨List.replicate 32 0, rfl⟩⟩
    ∃ s₀ x, create sampleXWing sampleRecipient (List.replicate 16 0) (draw 0) = .ok s₀ ∧
      WarrenPqExitSession.create sampleXWing sampleSecret s₀.currentEncapsulatedKey s₀.currentPqCt
        s₀.exitId = .ok x ∧
      (run sampleXWing s₀ [.rekey (draw 1)]).openResponse recordHkdf (recordAead AEAD_TAG_LEN)
        (x.sealResponse recordHkdf (recordAead AEAD_TAG_LEN) [7] (0 : Nat) 5) = .ok [7] := by
  intro draw
  have hcreate : ∃ s₀, create sampleXWing sampleRecipient (List.replicate 16 0) (draw 0) = .ok s₀ ∧
      s₀.currentEpoch = 0 ∧ (run sampleXWing s₀ [.rekey (draw 1)]).currentEpoch = 1 :=
    ⟨_, rfl, rfl, rfl⟩
  obtain ⟨s₀, hs₀, hzero, hone⟩ := hcreate
  have hfresh : Fresh sampleXWing sampleRecipient (draw 0 :: rekeys [.rekey (draw 1)]) := by
    have hne : sampleXWing.secrets sampleRecipient (draw 0) ≠
        sampleXWing.secrets sampleRecipient (draw 1) := by decide
    exact List.pairwise_pair.mpr hne
  obtain ⟨x, hx, hresponse, -⟩ := session_agreement ideal_sampleXWing ideal_recordHkdf
    (ideal_recordAead AEAD_TAG_LEN) hs₀ hfresh 0 1
  have hlive : Live (run sampleXWing s₀ [.rekey (draw 1)]) [.rekey (draw 1)] 0 :=
    .inr ⟨⟨_, rfl⟩, hone.symm⟩
  have hlt : s₀.currentEpoch < 2 ^ 32 := by
    rw [hzero]
    decide
  exact ⟨s₀, x, hs₀, hx, (hresponse 0 hlt (by decide) [7] 5).1 ⟨hzero, hlive⟩⟩

end WarrenPqClientSession

end WarrenSdk.Core
