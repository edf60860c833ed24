import WarrenSdk.Core.Edge.TokenImage

/-!
# The ledger of settled epochs

The refreshes of one manager, one after another. An epoch is asked for in a refresh exactly if the
refresh reaches it, its key can be used, and no request for it has settled it before: by a mint, or
by the answer that it was issued already. Any other failure leaves it to be asked for again.
-/

namespace WarrenSdk.Core
open Lib

variable {H : Hashes} {E : Encodings} {fuel : Nat} {pass : Pass}

/-! ## Errors before the issuer is asked -/

/-- An error that no issuer and no registry has answered. -/
def Failure.Local : Failure → Prop
  | .api _ => False
  | .edge e => e.rejectReason = none
  | .range _ | .error _ => True

theorem local_modInverse (h : modInverse a m = .error e) : e.Local := by
  unfold modInverse at h
  split at h
  · cases h
    trivial
  · dsimp only at h
    split at h
    · cases h
      trivial
    · cases h

theorem local_i2osp (h : i2osp n len = .error e) : e.Local := by
  unfold i2osp at h
  split at h
  · cases h
    trivial
  · cases h

theorem local_emsaPssEncode (h : emsaPssEncode H message emBits salt = .error e) : e.Local := by
  unfold emsaPssEncode at h
  dsimp only at h
  split at h
  · cases h
    trivial
  · cases h

theorem local_randomCoprime {draw : TokenRandom}
    (h : randomCoprime n draw fuel drawn = some (.error e)) :
    e.Local := by
  induction fuel generalizing drawn with
  | zero => cases h
  | succ fuel ih =>
    unfold randomCoprime at h
    dsimp only at h
    split at h
    · cases h
      trivial
    · split at h
      · split at h
        · cases h
        · exact ih h
      · exact ih h

theorem local_blindWith (h : blindWith pk nonce challengeDigest m r = .error e) : e.Local := by
  unfold blindWith at h
  cases hinv : modInverse r pk.n with
  | error e' =>
    rw [hinv] at h
    cases h
    exact local_modInverse hinv
  | ok rInv =>
    rw [hinv] at h
    cases hblinded : i2osp (m * modPow r pk.e pk.n % pk.n) AUTHENTICATOR_LEN with
    | error e' =>
      change (i2osp _ _ >>= _) = _ at h
      rw [hblinded] at h
      cases h
      exact local_i2osp hblinded
    | ok blindedRequest =>
      change (i2osp _ _ >>= _) = _ at h
      rw [hblinded] at h
      cases h

theorem local_blindToken (h : blindToken H pk challengeDigest opts fuel = some (.error e)) :
    e.Local := by
  unfold blindToken at h
  dsimp only at h
  split at h
  next hem =>
    cases h
    exact local_emsaPssEncode hem
  · split at h
    · cases h
    next hr =>
      cases h
      cases hblind : opts.blind with
      | none =>
        rw [hblind] at hr
        exact local_randomCoprime hr
      | some r =>
        rw [hblind] at hr
        cases hr
    · exact local_blindWith (Option.some.inj h)

theorem local_blindSlots {left i : Nat}
    (h : blindSlots H E pk challengeDigest blindingKey epoch fuel left i = some (.error e)) :
    e.Local := by
  induction left generalizing i with
  | zero => cases h
  | succ left ih =>
    unfold blindSlots at h
    split at h
    · cases h
    next hblind =>
      cases h
      exact local_blindToken hblind
    · split at h
      · cases h
        trivial
      · split at h
        · cases h
        next hrest =>
          cases h
          exact ih hrest
        · cases h

theorem local_issuerKeyForEpoch (h : issuerKeyForEpoch H E directory epoch = .error e) :
    e.Local := by
  unfold issuerKeyForEpoch at h
  split at h
  · cases h
    rfl
  · split at h
    · cases h
      trivial
    next spki _ =>
      cases hpk : issuerPublicKeyFromSpki H spki with
      | error e' =>
        rw [hpk] at h
        cases h
        unfold issuerPublicKeyFromSpki at hpk
        dsimp only at hpk
        split at hpk
        · cases hpk
          rfl
        · cases hpk
      | ok pk =>
        rw [hpk] at h
        change (if _ then _ else _) = _ at h
        split at h
        · cases h
          rfl
        · cases h

theorem local_mintRequest
    (h : mintRequest H E directory epoch count blindingKey deviceId fuel = some (.error e)) :
    e.Local := by
  unfold mintRequest at h
  split at h
  next hkey =>
    cases h
    exact local_issuerKeyForEpoch hkey
  · dsimp only at h
    split at h
    next hcd =>
      obtain ⟨challengeDigest, hok⟩ := exists_challengeDigest (H := H) directory.issuerName
        directory.contextLabel epoch
      cases hcd.symm.trans hok
    · split at h
      · cases h
      next hslots =>
        cases h
        exact local_blindSlots hslots
      · cases h

/-! ## Usable keys -/

/-- The key of the epoch is published, and a batch of the quota can be blinded under it. -/
def usable (H : Hashes) (E : Encodings) (fuel : Nat) (blindingKey : Bytes)
    (directory : TokenIssuerDirectory) (epoch : Nat) : Bool :=
  match mintRequest H E directory epoch directory.quotaPerEpoch blindingKey none fuel with
  | some (.ok _) => true
  | _ => false

/-- The device only goes along with a request. -/
theorem mintRequest_deviceId (directory : TokenIssuerDirectory) (epoch count : Nat)
    (blindingKey : Bytes) (deviceId : Option Utf16) :
    mintRequest H E directory epoch count blindingKey deviceId fuel =
      (mintRequest H E directory epoch count blindingKey none fuel).map fun made =>
        made.map fun minting => { minting with request := { minting.request with deviceId } } := by
  unfold mintRequest
  split
  · rfl
  · dsimp only
    split
    · rfl
    · split <;> rfl

/-- A batch is requested exactly of a usable key; what fails before has asked nobody. -/
theorem mintRequest_usable
    (h : mintRequest H E directory epoch directory.quotaPerEpoch blindingKey deviceId fuel =
      some made) :
    (∃ minting, made = .ok minting ∧ usable H E fuel blindingKey directory epoch = true ∧
        minting.request.epochs.map (·.epoch) = [epoch]) ∨
      ∃ e, made = .error e ∧ usable H E fuel blindingKey directory epoch = false ∧ e.Local := by
  cases made with
  | ok minting =>
    obtain ⟨-, slots, -, -, -, -, hrequest⟩ := mintRequest_spec h
    rw [mintRequest_deviceId, Option.map_eq_some_iff] at h
    obtain ⟨made, hmade, hmap⟩ := h
    cases made with
    | error e => cases hmap
    | ok minting' =>
      refine .inl ⟨minting, rfl, ?_, by rw [hrequest]; rfl⟩
      rw [usable, hmade]
  | error e =>
    refine .inr ⟨e, rfl, ?_, local_mintRequest h⟩
    rw [mintRequest_deviceId, Option.map_eq_some_iff] at h
    obtain ⟨made, hmade, hmap⟩ := h
    cases made with
    | ok minting => cases hmap
    | error e' => rw [usable, hmade]

/-! ## What is observed of a manager -/

namespace Failure

/-- The refusal that settles an epoch. -/
def alreadyIssued : Failure → Bool
  | .edge e => e.rejectReason = some REJECT_ALREADY_ISSUED
  | _ => false

/-- The answer that the device is unknown. -/
def unregistered : Failure → Bool
  | .api e => e.code = .deviceUnregistered
  | _ => false

/-- An error that ends the pass of a refresh. -/
def endsPass : Failure → Bool
  | .api e => e.code = .deviceRevoked || e.status = some 401 || answersEveryEpoch e
  | _ => false

theorem Local.alreadyIssued {e : Failure} (h : e.Local) : e.alreadyIssued = false := by
  cases e with
  | edge e =>
    have hnone : e.rejectReason = none := h
    simp [Failure.alreadyIssued, hnone]
  | _ => rfl

theorem Local.unregistered {e : Failure} (h : e.Local) : e.unregistered = false := by
  cases e with
  | api e => exact h.elim
  | _ => rfl

end Failure

/-- What was seen of one refresh. -/
structure PassRecord where
  now : Nat := 0
  /-- The directory it was answered. -/
  directory : Option TokenIssuerDirectory := none
  /-- The epochs that a request had settled when it started. -/
  settledBefore : List Nat := []
  /-- The epochs it asked for, once for each request. -/
  asked : List Nat := []
  /-- The epochs for which it was answered that the device is unknown. -/
  unregistered : List Nat := []
  /-- The epoch whose error ended it. -/
  endedAt : Option Nat := none

/-- The refresh asked for more epochs. -/
def PassRecord.ask (epochs : List Nat) (p : PassRecord) : PassRecord :=
  { p with asked := p.asked ++ epochs }

/-- What was seen of a manager: the epochs for which a request was answered with a batch or with the
refusal that settles, and its last refresh. -/
structure History where
  settled : List Nat := []
  refresh : PassRecord := {}

def Sent.epochs : Sent → List Nat
  | .issue request => request.epochs.map (·.epoch)
  | _ => []

namespace History

/-- The request for an epoch ended in `error`. -/
def refused (epoch : Nat) (error : Failure) (h : History) : History :=
  if error.alreadyIssued then { h with settled := h.settled ++ [epoch] } else h

/-- The issuer answered that it does not know the device, if that is what it answered. -/
def unknown (epoch : Nat) (error : Failure) (h : History) : History :=
  if error.unregistered then
    { h with refresh := { h.refresh with unregistered := h.refresh.unregistered ++ [epoch] } }
  else h

/-- The issuer answered the request for an epoch. -/
def answered (H : Hashes) (E : Encodings) (minting : Minting) (epoch : Nat)
    (answer : Except Failure TokenIssueResponse) (h : History) : History :=
  match answer with
  | .error e => (h.refused epoch e).unknown epoch e
  | .ok response =>
    match mintTokens H E minting epoch response with
    | .error e => (h.refused epoch e).unknown epoch e
    | .ok _ => { h with settled := h.settled ++ [epoch] }

/-- What is seen of an event in state `s`. -/
def see (H : Hashes) (E : Encodings) (s : TokenState) (h : History) : TokenEvent → History
  | .refresh now => { h with refresh := { now, settledBefore := h.settled } }
  | .directory _ (.ok directory) _ =>
    { h with refresh := { h.refresh with directory := some directory } }
  | .issued u answer =>
    match s.refreshes u with
    | some (.minting _ epoch _ minting) => h.answered H E minting epoch answer
    | _ => h
  -- The registration before asking once more failed, and the request with it.
  | .registered u (.error e) _ =>
    match s.refreshes u with
    | some (.reregistering _ epoch _) => h.refused epoch e
    | _ => h
  | .resume u _ =>
    match s.refreshes u with
    | some (.failed _ epoch e) =>
      if e.endsPass then { h with refresh := { h.refresh with endedAt := some epoch } } else h
    | _ => h
  | _ => h

/-- What is seen of the requests that were sent. -/
def sees (sent : List Sent) (h : History) : History :=
  { h with refresh := h.refresh.ask (sent.flatMap Sent.epochs) }

theorem sees_eq {h : History} (hsent : sent.flatMap Sent.epochs = []) : h.sees sent = h := by
  simp [sees, PassRecord.ask, hsent]

end History

/-- A step of a manager that is watched. -/
def ledgerStep (H : Hashes) (E : Encodings) (fuel : Nat) (s : TokenState × History)
    (e : TokenEvent) : Option (TokenState × History) :=
  (tokenStep H E fuel s.1 e).map fun t =>
    (t, (s.2.see H E s.1 e).sees (t.sent.drop s.1.sent.length))

/-- No refresh is in flight. -/
def TokenState.Idle (s : TokenState) : Prop := ∀ u, s.refreshes u = none

/-- The refreshes of one manager do not overlap and their time does not go back; the directories
publish each epoch once, and their epochs last `secs`. -/
def InTurn (secs : Nat) (s : TokenState × History) : TokenEvent → Prop
  | .refresh now => s.1.Idle ∧ s.2.refresh.now ≤ now
  | .directory _ (.ok directory) _ =>
    directory.epochSecs = secs ∧ (directory.keys.map (·.epoch)).Nodup
  | .restart _ => False
  | _ => True

/-! ## A refresh and what was seen of it -/

/-- The epochs a refresh is to ask for, in the order of its directory. -/
def PassRecord.due (p : PassRecord) (directory : TokenIssuerDirectory) (current : Nat) : List Nat :=
  (directory.keys.map (·.epoch)).filter fun epoch => current ≤ epoch ∧ epoch ∉ p.settledBefore

/-- A refresh has come to the end of `done`, with `rest` to come: it has asked for what is usable
there, and for what is in `more` once more. -/
structure PassRecord.Reached (H : Hashes) (E : Encodings) (fuel : Nat) (key : Bytes)
    (p : PassRecord) (directory : TokenIssuerDirectory) (done rest more : List Nat) : Prop where
  fetched : p.directory = some directory
  due : ∃ current, currentEpoch directory p.now = .ok current ∧
    p.due directory current = done ++ rest
  nodup : (directory.keys.map (·.epoch)).Nodup
  asked : p.asked.Perm (done.filter (usable H E fuel key directory) ++ more)
  retried : ∀ epoch ∈ more, epoch ∈ done ∧ usable H E fuel key directory epoch = true ∧
    epoch ∈ p.unregistered
  once : more.length ≤ 1

/-- A refresh is over: it never came to its epochs, or came to their end, or was ended. -/
def PassRecord.Over (H : Hashes) (E : Encodings) (fuel : Nat) (key : Option Bytes)
    (p : PassRecord) : Prop :=
  p.asked = [] ∧ (∀ directory, p.directory = some directory →
      ∃ e, currentEpoch directory p.now = .error e) ∨
    ∃ k directory done rest more, key = some k ∧
      p.Reached H E fuel k directory done rest more ∧
      (rest = [] ∧ p.endedAt = none ∨
        ∃ before last, done = before ++ [last] ∧ p.endedAt = some last)

/-- A refresh has not been answered its directory. -/
structure History.Opening (h : History) : Prop where
  directory : h.refresh.directory = none
  asked : h.refresh.asked = []
  unregistered : h.refresh.unregistered = []
  endedAt : h.refresh.endedAt = none
  settled : h.refresh.settledBefore = h.settled

/-- A refresh is in its pass, at the end of `done`. -/
structure History.Passing (H : Hashes) (E : Encodings) (fuel : Nat) (key : Option Bytes)
    (h : History) (pass : Pass) (done more : List Nat) : Prop where
  wallet : key = some pass.blindingKey
  reached : h.refresh.Reached H E fuel pass.blindingKey pass.directory done pass.rest more
  endedAt : h.refresh.endedAt = none
  first : pass.registered = false → more = []

/-- The epoch whose request has ended, and which the refresh is about to settle. -/
def Refresh.pending : Refresh → Option Nat
  | .minted _ epoch _ => some epoch
  | .mintFailed _ epoch _ e => if e.alreadyIssued then some epoch else none
  | .failed _ epoch e => if e.alreadyIssued then some epoch else none
  | _ => none

/-- Where the refresh is, given what was seen of it; `none` when it is over. -/
def History.Stage (H : Hashes) (E : Encodings) (fuel : Nat) (key : Option Bytes) (h : History) :
    Option Refresh → Prop
  | none => h.refresh.Over H E fuel key
  | some (.registering now k) => now = h.refresh.now ∧ key = some k ∧ h.Opening
  | some (.registered now k) => now = h.refresh.now ∧ key = some k ∧ h.Opening
  | some (.fetching now k) => now = h.refresh.now ∧ key = some k ∧ h.Opening
  | some (.minting pass epoch _ _) =>
    usable H E fuel pass.blindingKey pass.directory epoch = true ∧
      ∃ done more, h.Passing H E fuel key pass (done ++ [epoch]) more
  | some (.minted pass epoch _) => ∃ done more, h.Passing H E fuel key pass (done ++ [epoch]) more
  | some (.mintFailed pass epoch _ e) =>
    (usable H E fuel pass.blindingKey pass.directory epoch = false → e.Local) ∧
      (e.unregistered = true → epoch ∈ h.refresh.unregistered) ∧
      ∃ done more, h.Passing H E fuel key pass (done ++ [epoch]) more
  | some (.reregistering pass epoch _) =>
    usable H E fuel pass.blindingKey pass.directory epoch = true ∧
      epoch ∈ h.refresh.unregistered ∧ pass.registered = true ∧
      ∃ done, h.Passing H E fuel key pass (done ++ [epoch]) []
  | some (.failed pass epoch _) => ∃ done more, h.Passing H E fuel key pass (done ++ [epoch]) more

/-- The epochs that were seen settled are those that the manager has settled, but for the pending
one; what is past may have been pruned. -/
structure History.Kept (secs : Nat) (key : Option Bytes) (m : TokenManager) (pending : Option Nat)
    (h : History) : Prop where
  agrees : ∀ epoch, h.refresh.now / secs ≤ epoch →
    (epoch ∈ h.settled ↔ epoch ∈ m.settled ∨ pending = some epoch)
  wallet : m.blindingKey = key

/-- The manager, its refresh and what was seen of them agree. -/
structure History.Holds (H : Hashes) (E : Encodings) (fuel secs : Nat) (key : Option Bytes)
    (m : TokenManager) (r : Option Refresh) (h : History) : Prop where
  stage : h.Stage H E fuel key r
  kept : h.Kept secs key m (r.bind Refresh.pending)
  live : r.isSome = true → m.revoked = false

/-- One refresh at most is in flight. -/
def Watched (H : Hashes) (E : Encodings) (fuel secs : Nat) (key : Option Bytes)
    (s : TokenState × History) : Prop :=
  ∃ u r, s.1.refreshes = Function.update (fun _ => none) u r ∧
    s.2.Holds H E fuel secs key s.1.manager r

/-! ## The parts of a pass -/

namespace TokenManager

/-- `m` and `n` mint alike. -/
structure SameLedger (m n : TokenManager) : Prop where
  settled : n.settled = m.settled
  revoked : n.revoked = m.revoked
  blindingKey : n.blindingKey = m.blindingKey

theorem SameLedger.rfl {m : TokenManager} : m.SameLedger m := ⟨.refl _, .refl _, .refl _⟩

@[simp] theorem mem_settled_settle (m : TokenManager) (epoch e : Nat) :
    e ∈ (m.settle epoch).settled ↔ e ∈ m.settled ∨ e = epoch := by
  unfold settle
  split
  next hmem =>
    refine ⟨.inl, fun h => h.elim id ?_⟩
    rintro rfl
    exact hmem
  next => simp

theorem sameLedger_popCurrent {m : TokenManager} (h : m.popCurrent now = some (token, n)) :
    m.SameLedger n := by
  unfold popCurrent at h
  split at h
  · cases h
  · split at h
    · cases h
    · split at h
      · cases h
      · cases h
        exact ⟨rfl, rfl, rfl⟩

end TokenManager

/-- `t` is `s` with refresh `u` at `r`, after `new` was sent. -/
structure TokenState.Moved (u : Nat) (r : Option Refresh) (new : List Sent) (s t : TokenState) :
    Prop where
  refreshes : t.refreshes = Function.update s.refreshes u r
  sent : t.sent = s.sent ++ new
  same : s.manager.SameLedger t.manager

namespace TokenState

theorem moved_suspend (s : TokenState) (u : Nat) (r : Refresh) :
    Moved u (some r) [] s (s.suspend u r) := ⟨rfl, (List.append_nil _).symm, .rfl⟩

theorem moved_ask (s : TokenState) (u : Nat) (request : Sent) (r : Refresh) :
    Moved u (some r) [request] s ((s.ask request).suspend u r) := ⟨rfl, rfl, .rfl⟩

theorem moved_finish {s : TokenState} (hs : s.refreshes = fun _ => none) (u : Nat)
    (result : Except Failure Unit) : Moved u none [] s (s.finish u result) where
  refreshes := by
    rw [hs, Function.update_eq_self]
    exact hs
  sent := (List.append_nil _).symm
  same := .rfl

theorem moved_persistAndFinish {s : TokenState} (hs : s.refreshes = fun _ => none) (u : Nat)
    (saved : Bool) (result : Except Failure Unit) :
    Moved u none [] s (s.persistAndFinish E u saved result) := by
  cases saved with
  | false => exact moved_finish hs u _
  | true =>
    have hsaved : ({ s with persisted := some (s.manager.bundle E) } : TokenState).refreshes =
        fun _ => none := hs
    obtain ⟨hr, hsent, hm⟩ := moved_finish hsaved u result
    exact ⟨hr, hsent, hm⟩

theorem Moved.of_same {s s' : TokenState} (h : Moved u r new s' t)
    (hr : s'.refreshes = s.refreshes) (hsent : s'.sent = s.sent)
    (hm : s.manager.SameLedger s'.manager) : Moved u r new s t where
  refreshes := by rw [h.refreshes, hr]
  sent := by rw [h.sent, hsent]
  same := ⟨h.same.settled.trans hm.settled, h.same.revoked.trans hm.revoked,
    h.same.blindingKey.trans hm.blindingKey⟩

theorem adopt_same (s : TokenState) (view : DeviceView) :
    (s.adopt view).refreshes = s.refreshes ∧ (s.adopt view).sent = s.sent ∧
      s.manager.SameLedger (s.adopt view).manager := by
  unfold adopt
  split
  · exact ⟨rfl, rfl, .rfl⟩
  · split
    · exact ⟨rfl, rfl, .rfl⟩
    · exact ⟨rfl, rfl, ⟨rfl, rfl, rfl⟩⟩

/-- An epoch is asked for exactly if its key is usable. -/
theorem mint_moved (h : s.mint H E fuel u pass epoch device = some t) :
    (∃ minting, usable H E fuel pass.blindingKey pass.directory epoch = true ∧
        (Sent.issue minting.request).epochs = [epoch] ∧
        Moved u (some (.minting pass epoch device minting)) [.issue minting.request] s t) ∨
      ∃ e, usable H E fuel pass.blindingKey pass.directory epoch = false ∧ e.Local ∧
        Moved u (some (.mintFailed pass epoch device e)) [] s t := by
  unfold mint at h
  split at h
  · cases h
  next e hmade =>
    cases h
    obtain ⟨minting, hok, -⟩ | ⟨e', herror, husable, hlocal⟩ := mintRequest_usable hmade
    · cases hok
    · cases herror
      exact .inr ⟨e, husable, hlocal, moved_suspend s u _⟩
  next minting hmade =>
    cases h
    obtain ⟨minting', hok, husable, hepochs⟩ | ⟨e', herror, -⟩ := mintRequest_usable hmade
    · cases hok
      exact .inl ⟨minting, husable, hepochs, moved_ask s u _ _⟩
    · cases herror

end TokenState

/-! ## What is seen and what is due -/

namespace PassRecord

variable {p : PassRecord} {directory : TokenIssuerDirectory}

/-- The next epoch is asked for, unless its key is not usable. -/
theorem Reached.next (h : p.Reached H E fuel key directory done (epoch :: rest) more)
    (hnew : new = [epoch].filter (usable H E fuel key directory)) :
    (p.ask new).Reached H E fuel key directory (done ++ [epoch]) rest more := by
  obtain ⟨current, hcurrent, hdue⟩ := h.due
  refine ⟨h.fetched, ⟨current, hcurrent, ?_⟩, h.nodup, ?_, fun e he => ?_, h.once⟩
  · rw [List.append_assoc]
    exact hdue
  · have hperm : (p.asked ++ new).Perm
        (done.filter (usable H E fuel key directory) ++ more ++ new) := h.asked.append_right new
    refine hperm.trans ?_
    rw [List.filter_append, List.append_assoc, List.append_assoc, ← hnew]
    exact List.Perm.append_left _ List.perm_append_comm
  · obtain ⟨hmem, husable, hunregistered⟩ := h.retried e he
    exact ⟨List.mem_append_left _ hmem, husable, hunregistered⟩

/-- The last epoch is asked for once more. -/
theorem Reached.retry (h : p.Reached H E fuel key directory (done ++ [epoch]) rest [])
    (husable : usable H E fuel key directory epoch = true) (hmem : epoch ∈ p.unregistered) :
    (p.ask [epoch]).Reached H E fuel key directory (done ++ [epoch]) rest [epoch] := by
  refine ⟨h.fetched, h.due, h.nodup, ?_, fun e he => ?_, Nat.le_refl _⟩
  · have hperm := h.asked.append_right [epoch]
    rwa [List.append_nil] at hperm
  · cases List.mem_singleton.mp he
    exact ⟨List.mem_append_right _ (List.mem_singleton_self _), husable, hmem⟩

/-- What is seen of answers leaves what was reached. -/
theorem Reached.unregistered (h : p.Reached H E fuel key directory done rest more)
    (epochs : List Nat) :
    { p with unregistered := p.unregistered ++ epochs : PassRecord }.Reached H E fuel key directory
      done rest more where
  fetched := h.fetched
  due := h.due
  nodup := h.nodup
  asked := h.asked
  retried e he := by
    obtain ⟨hmem, husable, hunregistered⟩ := h.retried e he
    exact ⟨hmem, husable, List.mem_append_left _ hunregistered⟩
  once := h.once

end PassRecord

namespace History

variable {secs : Nat} {key : Option Bytes} {m n : TokenManager} {h : History}

theorem Kept.of_same (hk : h.Kept secs key m pending) (hm : m.SameLedger n) :
    h.Kept secs key n pending where
  agrees := by
    rw [hm.settled]
    exact hk.agrees
  wallet := hm.blindingKey.trans hk.wallet

theorem Kept.sees (hk : h.Kept secs key m pending) (sent : List Sent) :
    (h.sees sent).Kept secs key m pending := ⟨hk.agrees, hk.wallet⟩

theorem Kept.settle (hk : h.Kept secs key m (some epoch)) :
    h.Kept secs key (m.settle epoch) none where
  agrees e he := by
    rw [hk.agrees e he, TokenManager.mem_settled_settle]
    simp [eq_comm]
  wallet := (TokenManager.blindingKey_settle m epoch).trans hk.wallet

/-- An epoch is seen settled before the manager settles it. -/
theorem Kept.seen (hk : h.Kept secs key m none) (epoch : Nat) :
    { h with settled := h.settled ++ [epoch] : History }.Kept secs key m (some epoch) where
  agrees e he := by
    have hmem : e ∈ h.settled ++ [epoch] ↔ e ∈ h.settled ∨ e = epoch := by simp
    change e ∈ h.settled ++ [epoch] ↔ _
    rw [hmem, hk.agrees e he]
    simp [eq_comm]
  wallet := hk.wallet

theorem Kept.refused (hk : h.Kept secs key m none) (epoch : Nat) (error : Failure) :
    (h.refused epoch error).Kept secs key m (if error.alreadyIssued then some epoch else none) := by
  unfold History.refused
  split
  · exact hk.seen epoch
  · exact hk

theorem Kept.unknown (hk : h.Kept secs key m pending) (epoch : Nat) (error : Failure) :
    (h.unknown epoch error).Kept secs key m pending := by
  unfold History.unknown
  split
  · exact ⟨hk.agrees, hk.wallet⟩
  · exact hk

theorem refresh_refused (h : History) (epoch : Nat) (error : Failure) :
    (h.refused epoch error).refresh = h.refresh := by
  unfold History.refused
  split <;> rfl

theorem Passing.of_refresh {h' : History} (hp : h.Passing H E fuel key pass done more)
    (hr : h'.refresh = h.refresh) : h'.Passing H E fuel key pass done more where
  wallet := hp.wallet
  reached := by rw [hr]; exact hp.reached
  endedAt := by rw [hr]; exact hp.endedAt
  first := hp.first

theorem Passing.unknown (hp : h.Passing H E fuel key pass done more) (epoch : Nat)
    (error : Failure) : (h.unknown epoch error).Passing H E fuel key pass done more := by
  unfold History.unknown
  split
  · exact ⟨hp.wallet, hp.reached.unregistered [epoch], hp.endedAt, hp.first⟩
  · exact hp

theorem mem_unregistered_unknown (h : History) (epoch : Nat) {error : Failure}
    (hu : error.unregistered = true) : epoch ∈ (h.unknown epoch error).refresh.unregistered := by
  unfold History.unknown
  rw [if_pos hu]
  exact List.mem_append_right _ (List.mem_singleton_self epoch)

/-- The next epoch of the pass is asked for, unless its key is not usable. -/
theorem Passing.next (hp : h.Passing H E fuel key pass done more)
    (hrest : pass.rest = epoch :: rest)
    (hsent : sent.flatMap Sent.epochs =
      [epoch].filter (usable H E fuel pass.blindingKey pass.directory)) :
    (h.sees sent).Passing H E fuel key { pass with rest } (done ++ [epoch]) more where
  wallet := hp.wallet
  reached := by
    have hreached := hp.reached
    rw [hrest] at hreached
    exact hreached.next hsent
  endedAt := hp.endedAt
  first := hp.first

end History

namespace TokenState

/-- Refresh `u` goes on as was seen. -/
def Follows (H : Hashes) (E : Encodings) (fuel secs : Nat) (key : Option Bytes) (u : Nat)
    (h : History) (s t : TokenState) : Prop :=
  ∃ r new, Moved u r new s t ∧ (h.sees new).Holds H E fuel secs key t.manager r

variable {secs : Nat} {key : Option Bytes} {h : History} {s t : TokenState}

theorem Follows.of_suspend (hm : Moved u (some r) new s t) (hnew : new.flatMap Sent.epochs = [])
    (hstage : h.Stage H E fuel key (some r)) (hk : h.Kept secs key s.manager r.pending)
    (hlive : s.manager.revoked = false) : Follows H E fuel secs key u h s t := by
  refine ⟨some r, new, hm, ?_⟩
  rw [History.sees_eq hnew]
  exact ⟨hstage, hk.of_same hm.same, fun _ => hm.same.revoked.trans hlive⟩

theorem Follows.of_over (hm : Moved u none [] s t) (hstage : h.refresh.Over H E fuel key)
    (hk : h.Kept secs key s.manager none) : Follows H E fuel secs key u h s t := by
  refine ⟨none, [], hm, ?_⟩
  rw [History.sees_eq rfl]
  exact ⟨hstage, hk.of_same hm.same, nofun⟩

/-- A refresh that is over leaves no other in flight. -/
theorem Follows.watched {s' : TokenState} (hf : Follows H E fuel secs key u h s' t)
    (hs : s'.refreshes = fun _ => none) (hsent : s'.sent = s.sent) :
    Watched H E fuel secs key (t, h.sees (t.sent.drop s.sent.length)) := by
  obtain ⟨r, new, hm, hh⟩ := hf
  refine ⟨u, r, by rw [hm.refreshes, hs], ?_⟩
  have hdrop : t.sent.drop s.sent.length = new := by rw [hm.sent, hsent, List.drop_left]
  rw [hdrop]
  exact hh

/-- The pass goes on with the next epoch, or is over. -/
theorem follows_mintNext (hs : s.refreshes = fun _ => none)
    (hp : h.Passing H E fuel key pass done more) (hk : h.Kept secs key s.manager none)
    (hlive : s.manager.revoked = false) (hstep : s.mintNext H E fuel u saved pass = some t) :
    Follows H E fuel secs key u h s t := by
  unfold mintNext at hstep
  split at hstep
  next hrest =>
    cases hstep
    refine .of_over (moved_persistAndFinish hs u saved _) (.inr ?_) hk
    exact ⟨_, _, done, _, more, hp.wallet, hp.reached, .inl ⟨hrest, hp.endedAt⟩⟩
  next epoch rest hrest =>
    obtain ⟨minting, husable, hepochs, hm⟩ | ⟨e, husable, hlocal, hm⟩ := mint_moved hstep
    · have hasked : [Sent.issue minting.request].flatMap Sent.epochs =
          [epoch].filter (usable H E fuel pass.blindingKey pass.directory) := by
        simp [hepochs, husable]
      have hnext := hp.next hrest hasked
      refine ⟨_, _, hm, ⟨husable, done, more, hnext⟩, ?_, fun _ => hm.same.revoked.trans hlive⟩
      exact (hk.of_same hm.same).sees _
    · have hasked : ([] : List Sent).flatMap Sent.epochs =
          [epoch].filter (usable H E fuel pass.blindingKey pass.directory) := by simp [husable]
      have hnext := hp.next hrest hasked
      have hpending : (Refresh.mintFailed { pass with rest } epoch s.manager.device e).pending =
          none := by simp [Refresh.pending, hlocal.alreadyIssued]
      rw [History.sees_eq rfl] at hnext
      refine .of_suspend hm rfl ⟨fun _ => hlocal, ?_, done, more, hnext⟩ ?_ hlive
      · intro hunregistered
        cases hlocal.unregistered.symm.trans hunregistered
      · rw [hpending]
        exact hk

/-- A refresh starts when no other is in flight. -/
theorem follows_refresh (hs : s.refreshes = fun _ => none) (hk : h.Kept secs key s.manager none)
    (hnow : h.refresh.now ≤ now) (u : Nat) :
    Follows H E fuel secs key u { h with refresh := { now, settledBefore := h.settled } } s
      (s.refresh u now) := by
  have hk : { h with refresh := { now, settledBefore := h.settled } : History }.Kept secs key
      s.manager none :=
    ⟨fun e he => hk.agrees e (Nat.le_trans (Nat.div_le_div_right hnow) he), hk.wallet⟩
  have hopening : { h with refresh := { now, settledBefore := h.settled } : History }.Opening :=
    ⟨rfl, rfl, rfl, rfl, rfl⟩
  unfold refresh
  split
  · exact .of_over (moved_finish hs u _) (.inl ⟨rfl, nofun⟩) hk
  next k hkey =>
    have hwallet : key = some k := hk.wallet.symm.trans hkey
    split
    · exact .of_over (moved_finish hs u _) (.inl ⟨rfl, nofun⟩) hk
    next hlive =>
      have hlive : s.manager.revoked = false := Bool.eq_false_iff.mpr hlive
      split
      · exact .of_suspend (moved_suspend s u _) rfl ⟨rfl, hwallet, hopening⟩ hk hlive
      · exact .of_suspend (moved_ask s u _ _) rfl ⟨rfl, hwallet, hopening⟩ hk hlive

/-- The registration at the start is answered. -/
theorem follows_startRegistered (u : Nat) (saved : Bool) (answer : Except Failure DeviceView)
    (hs : s.refreshes = fun _ => none) (hkey : key = some k) (ho : h.Opening)
    (hk : h.Kept secs key s.manager none) (hlive : s.manager.revoked = false) :
    Follows H E fuel secs key u h s
        (s.startRegistered E u h.refresh.now k saved answer) ∨
      Follows H E fuel secs key u h { s with manager := s.manager.dropStock }
        (s.startRegistered E u h.refresh.now k saved answer) := by
  have hover : h.refresh.Over H E fuel key :=
    .inl ⟨ho.asked, fun directory hd => by cases ho.directory.symm.trans hd⟩
  have hstage : h.Stage H E fuel key (some (.registered h.refresh.now k)) := ⟨rfl, hkey, ho⟩
  unfold startRegistered
  split
  next view =>
    obtain ⟨hr, hsent, hm⟩ := adopt_same s view
    exact .inl (.of_suspend ((moved_suspend _ u _).of_same hr hsent hm) rfl hstage hk hlive)
  · split
    · have hs' : ({ s with manager := s.manager.dropStock } : TokenState).refreshes =
          fun _ => none := hs
      exact .inr (.of_over (moved_persistAndFinish hs' u saved _) hover ⟨hk.agrees, hk.wallet⟩)
    · split
      · exact .inl (.of_over (moved_finish hs u _) hover hk)
      · exact .inl (.of_suspend (moved_suspend s u _) rfl hstage hk hlive)
  · exact .inl (.of_suspend (moved_suspend s u _) rfl hstage hk hlive)

/-- What is past is pruned, and what is to come is due. -/
theorem targets_eq_due (hk : h.Kept secs key s.manager none) (ho : h.Opening)
    (hcurrent : current = h.refresh.now / secs) (directory : TokenIssuerDirectory) :
    (s.manager.adoptDirectory directory current).targets directory current =
      h.refresh.due directory current := by
  refine List.filter_congr fun e _ => ?_
  rw [decide_eq_decide, ho.settled]
  refine and_congr_right fun hle => not_congr ?_
  rw [hk.agrees e (hcurrent ▸ hle)]
  simp [TokenManager.adoptDirectory, TokenManager.pruneBefore, hle]

/-- The directory is answered. -/
theorem follows_fetched (hs : s.refreshes = fun _ => none) (hkey : key = some k)
    (ho : h.Opening) (hk : h.Kept secs key s.manager none) (hlive : s.manager.revoked = false)
    (hsecs : directory.epochSecs = secs) (hnodup : (directory.keys.map (·.epoch)).Nodup)
    (hstep : s.fetched H E fuel u h.refresh.now k saved (.ok directory) = some t) :
    Follows H E fuel secs key u
        { h with refresh := { h.refresh with directory := some directory } } s t ∨
      ∃ current, Follows H E fuel secs key u
        { h with refresh := { h.refresh with directory := some directory } }
        { s with manager := s.manager.adoptDirectory directory current } t := by
  simp only [fetched] at hstep
  split at hstep
  next e hcurrent =>
    cases hstep
    refine .inl (.of_over (moved_finish hs u _) (.inl ⟨ho.asked, fun d hd => ?_⟩)
      ⟨hk.agrees, hk.wallet⟩)
    cases hd
    exact ⟨e, hcurrent⟩
  next current hcurrent =>
    have heq : current = h.refresh.now / secs := by
      unfold currentEpoch at hcurrent
      split at hcurrent
      · cases hcurrent
      · cases hcurrent
        rw [hsecs]
    have hp : { h with refresh := { h.refresh with directory := some directory } : History }.Passing
        H E fuel key ⟨directory, k, (s.manager.adoptDirectory directory current).targets directory
          current, false⟩ [] [] := by
      refine ⟨hkey, ⟨rfl, ⟨current, hcurrent, ?_⟩, hnodup, ?_, ?_, Nat.zero_le 1⟩, ho.endedAt,
        fun _ => rfl⟩
      · exact (targets_eq_due hk ho heq directory).symm
      · have hasked : h.refresh.asked = [] := ho.asked
        rw [hasked]
        exact .refl _
      · intro e he
        cases he
    refine .inr ⟨current, follows_mintNext hs hp ⟨fun e he => ?_, hk.wallet⟩ hlive hstep⟩
    rw [hk.agrees e he]
    simp [TokenManager.adoptDirectory, TokenManager.pruneBefore, heq ▸ he]

/-- The issuer answers. -/
theorem follows_issued (u : Nat) (device : Option DeviceRegistration) (minting : Minting)
    (answer : Except Failure TokenIssueResponse) (hk : h.Kept secs key s.manager none)
    (hlive : s.manager.revoked = false)
    (husable : usable H E fuel pass.blindingKey pass.directory epoch = true)
    (hp : h.Passing H E fuel key pass (done ++ [epoch]) more) :
    Follows H E fuel secs key u (h.answered H E minting epoch answer) s
      (s.issued H E u pass epoch device minting answer) := by
  have hfailed (e : Failure) : Follows H E fuel secs key u ((h.refused epoch e).unknown epoch e) s
      (s.suspend u (.mintFailed pass epoch device e)) := by
    have hpassing := (hp.of_refresh (h.refresh_refused epoch e)).unknown epoch e
    refine .of_suspend (moved_suspend s u _) rfl ⟨fun h => ?_, fun hu => ?_, done, more, hpassing⟩
      ((hk.refused epoch e).unknown epoch e) hlive
    · cases husable.symm.trans h
    · exact History.mem_unregistered_unknown _ epoch hu
  unfold issued History.answered
  cases answer with
  | error e => exact hfailed e
  | ok response =>
    cases hmint : mintTokens H E minting epoch response with
    | error e =>
      simp only [hmint]
      exact hfailed e
    | ok tokens =>
      simp only [hmint]
      have hstage : { h with settled := h.settled ++ [epoch] : History }.Stage H E fuel key
          (some (.minted pass epoch tokens)) := ⟨done, more, hp.of_refresh rfl⟩
      exact .of_suspend (moved_suspend s u _) rfl hstage (hk.seen epoch) hlive

/-- The tokens of an epoch are stocked. -/
theorem follows_stocked (hs : s.refreshes = fun _ => none)
    (hk : h.Kept secs key s.manager (some epoch)) (hlive : s.manager.revoked = false)
    (hp : h.Passing H E fuel key pass done more)
    (hstep : s.stocked H E fuel u saved pass epoch tokens = some t) :
    Follows H E fuel secs key u h { s with manager := s.manager.stock epoch tokens } t := by
  simp only [stocked, hlive, Bool.false_eq_true, if_false] at hstep
  have hstock : (s.manager.settle epoch).SameLedger (s.manager.stock epoch tokens) := by
    unfold TokenManager.stock
    simp only
    split <;> exact ⟨rfl, rfl, rfl⟩
  have hrevoked : (s.manager.settle epoch).revoked = s.manager.revoked := by
    unfold TokenManager.settle
    split <;> rfl
  refine follows_mintNext hs hp (hk.settle.of_same hstock) ?_ hstep
  exact (hstock.revoked.trans hrevoked).trans hlive

/-- A device the issuer does not know is registered once more, once in a pass. -/
theorem follows_mintFailed (u : Nat) (hlive : s.manager.revoked = false)
    (hstage : h.Stage H E fuel key (some (.mintFailed pass epoch device error)))
    (hk : h.Kept secs key s.manager (Refresh.mintFailed pass epoch device error).pending) :
    Follows H E fuel secs key u h s (s.mintFailed u pass epoch device error) := by
  obtain ⟨hlocal, hunregistered, done, more, hp⟩ := hstage
  have hfailed : Follows H E fuel secs key u h s (s.suspend u (.failed pass epoch error)) :=
    .of_suspend (moved_suspend s u _) rfl ⟨done, more, hp⟩ hk hlive
  unfold mintFailed
  split
  next device e =>
    split
    next hunknown =>
      have husable : usable H E fuel pass.blindingKey pass.directory epoch = true := by
        by_contra hne
        exact hlocal (Bool.eq_false_iff.mpr hne)
      cases hp.first hunknown.2
      refine .of_suspend (moved_ask s u _ _) rfl
        ⟨husable, hunregistered (decide_eq_true hunknown.1), rfl, done, ?_⟩ hk hlive
      exact ⟨hp.wallet, hp.reached, hp.endedAt, fun _ => rfl⟩
    · exact hfailed
  · exact hfailed

/-- The registration before asking once more is answered. -/
theorem follows_reregistered (hlive : s.manager.revoked = false)
    (hstage : h.Stage H E fuel key (some (.reregistering pass epoch device)))
    (hk : h.Kept secs key s.manager none)
    (hstep : s.reregistered H E fuel u pass epoch device answer = some t) :
    Follows H E fuel secs key u
      (match answer with
        | .error e => h.refused epoch e
        | .ok _ => h) s t := by
  obtain ⟨husable, hunregistered, hregistered, done, hp⟩ := hstage
  unfold reregistered at hstep
  split at hstep
  next e =>
    cases hstep
    refine .of_suspend (moved_suspend s u _) rfl ⟨done, [], ?_⟩ (hk.refused epoch e) hlive
    exact hp.of_refresh (h.refresh_refused epoch e)
  next view =>
    obtain ⟨hr, hsent, hm⟩ := adopt_same s view
    obtain ⟨minting, -, hepochs, hmoved⟩ | ⟨e, hnot, -⟩ := mint_moved hstep
    · have hmoved := hmoved.of_same hr hsent hm
      have hsees : h.sees [.issue minting.request] =
          { h with refresh := h.refresh.ask [epoch] } := by
        simp [History.sees, hepochs]
      refine ⟨_, _, hmoved, ?_, (hk.of_same hmoved.same).sees _,
        fun _ => hmoved.same.revoked.trans hlive⟩
      rw [hsees]
      refine ⟨husable, done, [epoch], hp.wallet, hp.reached.retry husable hunregistered,
        hp.endedAt, fun hfirst => ?_⟩
      cases hregistered.symm.trans hfirst
    · cases husable.symm.trans hnot

/-- The error of an epoch settles it, ends the pass, or leaves the epoch for the next refresh. -/
theorem follows_caught (hs : s.refreshes = fun _ => none) (hlive : s.manager.revoked = false)
    (hp : h.Passing H E fuel key pass (done ++ [epoch]) more)
    (hk : h.Kept secs key s.manager (if error.alreadyIssued then some epoch else none))
    (hstep : s.caught H E fuel u saved pass epoch error = some t) :
    ∃ m, Follows H E fuel secs key u
      (if error.endsPass then { h with refresh := { h.refresh with endedAt := some epoch } } else h)
      { s with manager := m } t := by
  have hover : { h.refresh with endedAt := some epoch : PassRecord }.Over H E fuel key :=
    .inr ⟨_, _, _, _, more, hp.wallet,
      ⟨hp.reached.fetched, hp.reached.due, hp.reached.nodup, hp.reached.asked, hp.reached.retried,
        hp.reached.once⟩, .inr ⟨done, epoch, rfl, rfl⟩⟩
  unfold caught at hstep
  split at hstep
  next e =>
    split at hstep
    next hrevoked =>
      cases hstep
      have hends : (Failure.api e).endsPass = true := by simp [Failure.endsPass, hrevoked]
      rw [if_pos hends]
      have hs' : ({ s with manager := s.manager.dropStock } : TokenState).refreshes =
          fun _ => none := hs
      exact ⟨s.manager.dropStock, .of_over (moved_persistAndFinish hs' u saved _) hover
        ⟨hk.agrees, hk.wallet⟩⟩
    next hrevoked =>
      split at hstep
      next hends =>
        cases hstep
        have hends : (Failure.api e).endsPass = true := by
          simp only [Failure.endsPass, Bool.or_assoc, Bool.or_eq_true, decide_eq_true_eq]
          exact .inr hends
        rw [if_pos hends]
        exact ⟨s.manager, .of_over (moved_persistAndFinish hs u saved _) hover
          ⟨hk.agrees, hk.wallet⟩⟩
      next hgoes =>
        have hgoes : ¬ (Failure.api e).endsPass = true := by
          simpa [Failure.endsPass, Bool.or_assoc, hrevoked] using hgoes
        rw [if_neg hgoes]
        exact ⟨s.manager, follows_mintNext hs hp hk hlive hstep⟩
  next e =>
    split at hstep
    next hsettles =>
      have hissued : (Failure.edge e).alreadyIssued = true := decide_eq_true hsettles
      rw [if_pos hissued] at hk
      have hrevoked : (s.manager.settle epoch).revoked = s.manager.revoked := by
        unfold TokenManager.settle
        split <;> rfl
      exact ⟨s.manager.settle epoch,
        follows_mintNext hs hp hk.settle (hrevoked.trans hlive) hstep⟩
    next hleft =>
      have hissued : ¬ (Failure.edge e).alreadyIssued = true := fun h => hleft (of_decide_eq_true h)
      rw [if_neg hissued] at hk
      exact ⟨s.manager, follows_mintNext hs hp hk hlive hstep⟩
  next hapi hedge =>
    cases error with
    | api e => exact absurd rfl (hapi e)
    | edge e => exact absurd rfl (hedge e)
    | range message => exact ⟨s.manager, follows_mintNext hs hp hk hlive hstep⟩
    | error message => exact ⟨s.manager, follows_mintNext hs hp hk hlive hstep⟩

/-! ## Runs -/

/-- What leaves the refreshes and the ledger alone. -/
theorem watched_of_same (hw : Watched H E fuel secs key (s, h)) (hr : t.refreshes = s.refreshes)
    (hsent : t.sent = s.sent) (hm : s.manager.SameLedger t.manager) :
    Watched H E fuel secs key (t, h.sees (t.sent.drop s.sent.length)) := by
  obtain ⟨u, r, hu, hh⟩ := hw
  refine ⟨u, r, by rw [hr, hu], ?_⟩
  rw [hsent, List.drop_length, History.sees_eq rfl]
  exact ⟨hh.stage, hh.kept.of_same hm, fun hr => hm.revoked.trans (hh.live hr)⟩

/-- The one refresh that is in flight. -/
theorem eq_of_inFlight {r : Option Refresh} {x : Refresh}
    (hr : s.refreshes = Function.update (fun _ => none) u r) (hx : s.refreshes v = some x) :
    v = u ∧ r = some x := by
  rw [hr] at hx
  rcases eq_or_ne v u with rfl | hne
  · rw [Function.update_self] at hx
    exact ⟨rfl, hx⟩
  · rw [Function.update_of_ne hne] at hx
    cases hx

theorem wake_refreshes {r : Option Refresh}
    (hr : s.refreshes = Function.update (fun _ => none) u r) :
    (s.wake u).refreshes = fun _ => none := by
  change Function.update s.refreshes u none = _
  rw [hr, Function.update_idem]
  exact Function.update_eq_self u _

theorem watched_refresh (hw : Watched H E fuel secs key (s, h))
    (ho : InTurn secs (s, h) (.refresh now))
    (hstep : tokenStep H E fuel s (.refresh now) = some t) :
    Watched H E fuel secs key
        (t, (h.see H E s (.refresh now)).sees (t.sent.drop s.sent.length)) := by
  obtain ⟨u, r, hr, hh⟩ := hw
  cases hstep
  obtain ⟨hidle, hnow⟩ := ho
  have hnone : s.refreshes = fun _ => none := funext hidle
  have hk : h.Kept secs key s.manager none := by
    have hu := hidle u
    rw [hr, Function.update_self] at hu
    cases hu
    exact hh.kept
  have hs : ({ s with nextRefresh := s.nextRefresh + 1, clock := now } : TokenState).refreshes =
      fun _ => none := hnone
  exact (follows_refresh hs hk hnow s.nextRefresh).watched hs rfl

theorem watched_takeCurrentStack (hw : Watched H E fuel secs key (s, h))
    (hstep : tokenStep H E fuel s (.takeCurrentStack now saved) = some t) :
    Watched H E fuel secs key
        (t, (h.see H E s (.takeCurrentStack now saved)).sees (t.sent.drop s.sent.length)) := by
  cases hstep
  have hsame : ∀ t : TokenState, t =
    TokenState.takeCurrentStack E now saved { s with clock := now } →
      t.refreshes = s.refreshes ∧ t.sent = s.sent ∧ s.manager.SameLedger t.manager := by
    rintro t rfl
    unfold takeCurrentStack
    split
    · exact ⟨rfl, rfl, .rfl⟩
    next token m hpop =>
      have hm : s.manager.SameLedger m := TokenManager.sameLedger_popCurrent hpop
      cases saved with
      | false => exact ⟨rfl, rfl, hm⟩
      | true => exact ⟨rfl, rfl, hm⟩
  obtain ⟨hrefreshes, hsent, hm⟩ := hsame _ rfl
  exact watched_of_same hw hrefreshes hsent hm

theorem watched_registered (hw : Watched H E fuel secs key (s, h))
    (hstep : tokenStep H E fuel s (.registered v answer saved) = some t) :
    Watched H E fuel secs key
        (t, (h.see H E s (.registered v answer saved)).sees (t.sent.drop s.sent.length)) := by
  obtain ⟨u, r, hr, hh⟩ := hw
  have hwake := wake_refreshes hr
  simp only [tokenStep] at hstep
  split at hstep
  next now k hv =>
    obtain ⟨rfl, rfl⟩ := eq_of_inFlight hr hv
    cases hstep
    obtain ⟨rfl, hkey, hopening⟩ := hh.stage
    have hsee : h.see H E s (.registered v answer saved) = h := by
      unfold History.see
      cases answer with
      | ok view => rfl
      | error e => simp only [hv]
    rw [hsee]
    obtain hf | hf := follows_startRegistered (s := s.wake v) v saved answer hwake hkey hopening
      hh.kept (hh.live rfl)
    · exact hf.watched hwake rfl
    · exact hf.watched hwake rfl
  next pass epoch device hv =>
    obtain ⟨rfl, rfl⟩ := eq_of_inFlight hr hv
    have hf := follows_reregistered (s := s.wake v) (hh.live rfl) hh.stage hh.kept hstep
    cases answer with
    | ok view => exact hf.watched hwake rfl
    | error e =>
      have hsee : h.see H E s (.registered v (.error e) saved) = h.refused epoch e := by
        simp only [History.see, hv]
      rw [hsee]
      exact hf.watched hwake rfl
  · cases hstep

theorem watched_directory (hw : Watched H E fuel secs key (s, h))
    (ho : InTurn secs (s, h) (.directory v answer saved))
    (hstep : tokenStep H E fuel s (.directory v answer saved) = some t) :
    Watched H E fuel secs key
        (t, (h.see H E s (.directory v answer saved)).sees (t.sent.drop s.sent.length)) := by
  obtain ⟨u, r, hr, hh⟩ := hw
  have hwake := wake_refreshes hr
  simp only [tokenStep] at hstep
  split at hstep
  next now k hv =>
    obtain ⟨rfl, rfl⟩ := eq_of_inFlight hr hv
    obtain ⟨rfl, hkey, hopening⟩ := hh.stage
    cases answer with
    | error e =>
      cases hstep
      have hover : h.refresh.Over H E fuel key :=
        .inl ⟨hopening.asked, fun d hd => by cases hopening.directory.symm.trans hd⟩
      exact (Follows.of_over (moved_finish hwake v _) hover hh.kept).watched hwake rfl
    | ok directory =>
      obtain ⟨hsecs, hnodup⟩ := ho
      obtain hf | ⟨current, hf⟩ := follows_fetched hwake hkey hopening hh.kept (hh.live rfl)
        hsecs hnodup hstep
      · exact hf.watched hwake rfl
      · exact hf.watched hwake rfl
  · cases hstep

theorem watched_issued (hw : Watched H E fuel secs key (s, h))
    (hstep : tokenStep H E fuel s (.issued v answer) = some t) :
    Watched H E fuel secs key
        (t, (h.see H E s (.issued v answer)).sees (t.sent.drop s.sent.length)) := by
  obtain ⟨u, r, hr, hh⟩ := hw
  have hwake := wake_refreshes hr
  simp only [tokenStep] at hstep
  split at hstep
  next pass epoch device minting hv =>
    obtain ⟨rfl, rfl⟩ := eq_of_inFlight hr hv
    cases hstep
    obtain ⟨husable, done, more, hp⟩ := hh.stage
    have hsee : h.see H E s (.issued v answer) = h.answered H E minting epoch answer := by
      simp only [History.see, hv]
    rw [hsee]
    have hf := follows_issued (s := s.wake v) v device minting answer hh.kept (hh.live rfl)
      husable hp
    exact hf.watched hwake rfl
  · cases hstep

theorem watched_resume (hw : Watched H E fuel secs key (s, h))
    (hstep : tokenStep H E fuel s (.resume v saved) = some t) :
    Watched H E fuel secs key
        (t, (h.see H E s (.resume v saved)).sees (t.sent.drop s.sent.length)) := by
  obtain ⟨u, r, hr, hh⟩ := hw
  have hwake := wake_refreshes hr
  simp only [tokenStep] at hstep
  split at hstep
  next now k hv =>
    obtain ⟨rfl, rfl⟩ := eq_of_inFlight hr hv
    cases hstep
    have hsee : h.see H E s (.resume v saved) = h := by simp only [History.see, hv]
    rw [hsee]
    have hf : Follows H E fuel secs key v h (s.wake v) _ :=
      .of_suspend (r := .fetching now k) (moved_ask _ v .getDirectory _) rfl hh.stage hh.kept
        (hh.live rfl)
    exact hf.watched hwake rfl
  next pass epoch tokens hv =>
    obtain ⟨rfl, rfl⟩ := eq_of_inFlight hr hv
    obtain ⟨done, more, hp⟩ := hh.stage
    have hsee : h.see H E s (.resume v saved) = h := by simp only [History.see, hv]
    rw [hsee]
    exact (follows_stocked hwake hh.kept (hh.live rfl) hp hstep).watched hwake rfl
  next pass epoch device error hv =>
    obtain ⟨rfl, rfl⟩ := eq_of_inFlight hr hv
    cases hstep
    have hsee : h.see H E s (.resume v saved) = h := by simp only [History.see, hv]
    rw [hsee]
    have hf := follows_mintFailed (s := s.wake v) v (hh.live rfl) hh.stage hh.kept
    exact hf.watched hwake rfl
  next pass epoch error hv =>
    obtain ⟨rfl, rfl⟩ := eq_of_inFlight hr hv
    obtain ⟨done, more, hp⟩ := hh.stage
    have hsee : h.see H E s (.resume v saved) =
        if error.endsPass then { h with refresh := { h.refresh with endedAt := some epoch } }
        else h := by
      simp only [History.see, hv]
    rw [hsee]
    obtain ⟨m, hf⟩ := follows_caught hwake (hh.live rfl) hp hh.kept hstep
    exact hf.watched hwake rfl
  · cases hstep

/-- The step lemma. -/
theorem watched_tokenStep (hw : Watched H E fuel secs key (s, h)) (ho : InTurn secs (s, h) e)
    (hstep : tokenStep H E fuel s e = some t) :
    Watched H E fuel secs key (t, (h.see H E s e).sees (t.sent.drop s.sent.length)) := by
  cases e with
  | refresh now => exact watched_refresh hw ho hstep
  | takeCurrentStack now saved => exact watched_takeCurrentStack hw hstep
  | restart options => exact ho.elim
  | setDeviceName name =>
    cases hstep
    exact watched_of_same hw rfl rfl ⟨rfl, rfl, rfl⟩
  | registered v answer saved => exact watched_registered hw hstep
  | directory v answer saved => exact watched_directory hw ho hstep
  | issued v answer => exact watched_issued hw hstep
  | resume v saved => exact watched_resume hw hstep

theorem watched_started (options : TokenManagerOptions) (raw : Option Json) :
    Watched H E fuel secs options.blindingKey (started E options raw, {}) := by
  refine ⟨0, none, (Function.update_eq_self 0 _).symm, .inl ⟨rfl, nofun⟩,
    ⟨fun e _ => ?_, ?_⟩, nofun⟩
  · obtain ⟨store, epochSecs, hnew⟩ := TokenManager.new_eq (E := E) options raw
    simp [started, hnew]
  · exact TokenManager.blindingKey_new options raw

theorem watched_run {options : TokenManagerOptions} {raw : Option Json}
    (hrun : Run (ledgerStep H E fuel) (InTurn secs) (started E options raw, {}) (s, h)) :
    Watched H E fuel secs options.blindingKey (s, h) := by
  refine hrun.invariant (I := Watched H E fuel secs options.blindingKey) ?_
    (watched_started options raw)
  rintro ⟨s, h⟩ e t hw ho hstep
  obtain ⟨t', ht, rfl⟩ := Option.map_eq_some_iff.mp hstep
  exact watched_tokenStep hw ho ht

/-! ## Which epochs are asked for -/

/-- Of two distinct entries only one stands before the other. -/
theorem not_sublist_swap {l : List Nat} (hl : l.Nodup) (h : [a, b].Sublist l) :
    ¬ [b, a].Sublist l := by
  intro h'
  induction l with
  | nil => cases h
  | cons x l ih =>
    obtain ⟨hx, hl⟩ := List.nodup_cons.mp hl
    cases h with
    | cons _ h =>
      cases h' with
      | cons _ h' => exact ih hl h h'
      | cons_cons _ h' => exact hx (h.mem (List.mem_cons_of_mem _ (List.mem_singleton_self _)))
    | cons_cons _ h =>
      cases h' with
      | cons _ h' => exact hx (h'.mem (List.mem_cons_of_mem _ (List.mem_singleton_self _)))
      | cons_cons _ h' => exact hx (h.mem (List.mem_singleton_self _))

/-- What is done is what does not stand after the last of it. -/
theorem mem_iff_not_after {l : List Nat} (hl : l.Nodup)
    (hfilter : l.filter p = before ++ [last] ++ rest) (he : e ∈ l.filter p) :
    e ∈ before ++ [last] ↔ ¬ [last, e].Sublist l := by
  have hsub : (before ++ [last] ++ rest).Sublist l := hfilter ▸ List.filter_sublist
  have hnodup : (before ++ [last] ++ rest).Nodup := hl.sublist hsub
  constructor
  · intro hdone hafter
    rcases List.mem_append.mp hdone with hbefore | hlast
    · have hsplit : [e, last].Sublist (before ++ [last]) :=
        (List.singleton_sublist.mpr hbefore).append (.refl [last])
      exact not_sublist_swap hl ((hsplit.trans (List.sublist_append_left _ rest)).trans hsub) hafter
    · cases List.mem_singleton.mp hlast
      simpa using hl.sublist hafter
  · intro hafter
    rw [hfilter] at he
    rcases List.mem_append.mp he with hdone | hrest
    · exact hdone
    · have hsplit : [last, e].Sublist (before ++ [last] ++ rest) :=
        (List.sublist_append_right before [last]).append (List.singleton_sublist.mpr hrest)
      exact absurd (hsplit.trans hsub) hafter

end TokenState

namespace PassRecord

/-- The refresh's directory publishes the epoch with a usable key, the epoch is not past, and no
request had settled it. -/
def Wants (H : Hashes) (E : Encodings) (fuel : Nat) (key : Option Bytes) (p : PassRecord)
    (epoch : Nat) : Prop :=
  ∃ directory k current, p.directory = some directory ∧ key = some k ∧
    epoch ∈ directory.keys.map (·.epoch) ∧ usable H E fuel k directory epoch = true ∧
    currentEpoch directory p.now = .ok current ∧ current ≤ epoch ∧ epoch ∉ p.settledBefore

/-- The refresh was ended at an epoch that stands before this one in its directory. -/
def CutOff (p : PassRecord) (epoch : Nat) : Prop :=
  ∃ directory last, p.directory = some directory ∧ p.endedAt = some last ∧
    [last, epoch].Sublist (directory.keys.map (·.epoch))

variable {p : PassRecord} {key : Option Bytes} {directory : TokenIssuerDirectory}

theorem mem_due :
    e ∈ p.due directory current ↔
      e ∈ directory.keys.map (·.epoch) ∧ current ≤ e ∧ e ∉ p.settledBefore := by
  rw [due, List.mem_filter, decide_eq_true_eq]

theorem Reached.nodup_done (h : p.Reached H E fuel k directory done rest more) : done.Nodup := by
  obtain ⟨current, -, hdue⟩ := h.due
  have hnodup : (p.due directory current).Nodup := h.nodup.filter _
  rw [hdue] at hnodup
  exact (List.nodup_append.mp hnodup).1

theorem Reached.mem_asked (h : p.Reached H E fuel k directory done rest more) :
    e ∈ p.asked ↔ e ∈ done ∧ usable H E fuel k directory e = true := by
  rw [h.asked.mem_iff, List.mem_append, List.mem_filter]
  refine ⟨fun he => he.elim id fun he => ?_, .inl⟩
  obtain ⟨hdone, husable, -⟩ := h.retried e he
  exact ⟨hdone, husable⟩

theorem Reached.wants (h : p.Reached H E fuel k directory done rest more) (hkey : key = some k)
    (he : e ∈ p.asked) : p.Wants H E fuel key e := by
  obtain ⟨hdone, husable⟩ := h.mem_asked.mp he
  obtain ⟨current, hcurrent, hdue⟩ := h.due
  have hmem : e ∈ p.due directory current := hdue ▸ List.mem_append_left _ hdone
  obtain ⟨hpublished, hle, hsettled⟩ := mem_due.mp hmem
  exact ⟨directory, k, current, h.fetched, hkey, hpublished, husable, hcurrent, hle, hsettled⟩

/-- An epoch is asked for once, and once more if it is the one in `more`. -/
theorem Reached.count_asked (h : p.Reached H E fuel k directory done rest more) (e : Nat) :
    p.asked.count e ≤ 1 + more.count e := by
  rw [h.asked.count_eq, List.count_append]
  exact Nat.add_le_add_right (List.nodup_iff_count_le_one.mp (h.nodup_done.filter _) e) _

/-- When the refresh is over, everything it wants has been asked for, unless it was ended before. -/
theorem Over.mem_asked_iff (h : p.Over H E fuel key) :
    e ∈ p.asked ↔ p.Wants H E fuel key e ∧ ¬ p.CutOff e := by
  obtain ⟨hasked, herror⟩ | ⟨k, directory, done, rest, more, hkey, hreached, hend⟩ := h
  · rw [hasked]
    refine ⟨nofun, ?_⟩
    rintro ⟨⟨directory, k, current, hdirectory, -, -, -, hcurrent, -⟩, -⟩
    obtain ⟨error, herror⟩ := herror directory hdirectory
    cases herror.symm.trans hcurrent
  · have hdone (he : p.Wants H E fuel key e) : e ∈ done ↔ ¬ p.CutOff e := by
      obtain ⟨directory', k', current', hdirectory, -, hpublished, -, hcurrent', hle, hsettled⟩ :=
        he
      cases hreached.fetched.symm.trans hdirectory
      obtain ⟨current, hcurrent, hdue⟩ := hreached.due
      cases hcurrent.symm.trans hcurrent'
      have hmem : e ∈ p.due directory _ := mem_due.mpr ⟨hpublished, hle, hsettled⟩
      rcases hend with ⟨rfl, hended⟩ | ⟨before, last, rfl, hended⟩
      · rw [List.append_nil] at hdue
        refine iff_of_true (hdue ▸ hmem) ?_
        rintro ⟨_, last, -, hlast, -⟩
        cases hended.symm.trans hlast
      · rw [TokenState.mem_iff_not_after hreached.nodup hdue hmem, not_iff_not]
        constructor
        · exact fun hafter => ⟨directory, last, hdirectory, hended, hafter⟩
        · rintro ⟨directory', last', hdirectory', hlast, hafter⟩
          cases hdirectory.symm.trans hdirectory'
          cases hended.symm.trans hlast
          exact hafter
    constructor
    · intro he
      have hwants := hreached.wants hkey he
      exact ⟨hwants, (hdone hwants).mp (hreached.mem_asked.mp he).1⟩
    · rintro ⟨hwants, hcut⟩
      obtain ⟨directory', k', -, hdirectory, hkey', -, husable, -⟩ := id hwants
      cases hreached.fetched.symm.trans hdirectory
      cases hkey.symm.trans hkey'
      exact hreached.mem_asked.mpr ⟨(hdone hwants).mpr hcut, husable⟩

end PassRecord

theorem History.Stage.reached {h : History} {r : Option Refresh} (hs : h.Stage H E fuel key r) :
    h.refresh.asked = [] ∨ ∃ k directory done rest more, key = some k ∧
      h.refresh.Reached H E fuel k directory done rest more := by
  have hpassing {pass done more} (hp : h.Passing H E fuel key pass done more) :
      h.refresh.asked = [] ∨ ∃ k directory done rest more, key = some k ∧
        h.refresh.Reached H E fuel k directory done rest more :=
    .inr ⟨_, _, _, _, _, hp.wallet, hp.reached⟩
  cases r with
  | none =>
    obtain ⟨hasked, -⟩ | ⟨k, directory, done, rest, more, hkey, hreached, -⟩ := hs
    · exact .inl hasked
    · exact .inr ⟨k, directory, done, rest, more, hkey, hreached⟩
  | some r =>
    cases r with
    | registering now k => exact .inl hs.2.2.asked
    | registered now k => exact .inl hs.2.2.asked
    | fetching now k => exact .inl hs.2.2.asked
    | minting pass epoch device minting =>
      obtain ⟨-, done, more, hp⟩ := hs
      exact hpassing hp
    | minted pass epoch tokens =>
      obtain ⟨done, more, hp⟩ := hs
      exact hpassing hp
    | mintFailed pass epoch device error =>
      obtain ⟨-, -, done, more, hp⟩ := hs
      exact hpassing hp
    | reregistering pass epoch device =>
      obtain ⟨-, -, -, done, hp⟩ := hs
      exact hpassing hp
    | failed pass epoch error =>
      obtain ⟨done, more, hp⟩ := hs
      exact hpassing hp

namespace TokenState

/-- A refresh asks for an epoch exactly if it wants it and was not ended before; what a request has
settled is never asked for again. At most one epoch is asked for twice, after the answer that the
device is unknown. -/
theorem asked_iff {options : TokenManagerOptions} {raw : Option Json}
    (hrun : Run (ledgerStep H E fuel) (InTurn secs) (started E options raw, {}) (s, h)) :
    (s.Idle → ∀ e, e ∈ h.refresh.asked ↔
      h.refresh.Wants H E fuel options.blindingKey e ∧ ¬ h.refresh.CutOff e) ∧
    (∀ e ∈ h.refresh.asked, h.refresh.Wants H E fuel options.blindingKey e) ∧
    (∀ e, h.refresh.asked.count e ≤ 2 ∧
      (h.refresh.asked.count e = 2 → e ∈ h.refresh.unregistered)) ∧
    ∀ e e', h.refresh.asked.count e = 2 → h.refresh.asked.count e' = 2 → e = e' := by
  obtain ⟨u, r, hr, hh⟩ := watched_run hrun
  refine ⟨fun hidle e => ?_, ?_⟩
  · have hnone : r = none := by
      have hu := hidle u
      rwa [hr, Function.update_self] at hu
    have hstage := hh.stage
    rw [hnone] at hstage
    exact PassRecord.Over.mem_asked_iff hstage
  · obtain hasked | ⟨k, directory, done, rest, more, hkey, hreached⟩ := hh.stage.reached
    · rw [hasked]
      exact ⟨nofun, fun e => ⟨Nat.zero_le 2, nofun⟩, nofun⟩
    · have hcount (e : Nat) : h.refresh.asked.count e ≤ 2 ∧
          (h.refresh.asked.count e = 2 → e ∈ more) := by
        have hle : h.refresh.asked.count e ≤ 1 + more.count e := hreached.count_asked e
        have honce : more.count e ≤ 1 := List.count_le_length.trans hreached.once
        refine ⟨by omega, fun htwo => List.count_pos_iff.mp (by omega)⟩
      refine ⟨fun e he => hreached.wants hkey he, fun e => ⟨(hcount e).1, fun htwo => ?_⟩,
        fun e e' htwo htwo' => ?_⟩
      · exact (hreached.retried e ((hcount e).2 htwo)).2.2
      · have hone := hreached.once
        have he := (hcount e).2 htwo
        have he' := (hcount e').2 htwo'
        obtain ⟨x, rfl⟩ := List.length_eq_one_iff.mp
          (Nat.le_antisymm hone (List.length_pos_of_mem he))
        rw [List.mem_singleton.mp he, List.mem_singleton.mp he']

/-! ## A run of the sample account -/

theorem ledger_tail {s₀ : TokenState × History}
    (hrun : Run (ledgerStep H E fuel) (InTurn secs) s₀ (s, h))
    (hstep : tokenStep H E fuel s e = some t) (ho : InTurn secs (s, h) e) :
    Run (ledgerStep H E fuel) (InTurn secs) s₀
      (t, (h.see H E s e).sees (t.sent.drop s.sent.length)) := by
  refine hrun.tail ho ?_
  rw [ledgerStep, hstep, Option.map_some]

/-- An answer of the issuer says nothing more of the refresh than that the device is unknown. -/
theorem answered_refresh (minting : Minting) (epoch : Nat)
    (answer : Except Failure TokenIssueResponse) (h : History) :
    (h.answered H E minting epoch answer).refresh = { h.refresh with
      unregistered := (h.answered H E minting epoch answer).refresh.unregistered } := by
  have hunknown (e : Failure) : ((h.refused epoch e).unknown epoch e).refresh = { h.refresh with
      unregistered := ((h.refused epoch e).unknown epoch e).refresh.unregistered } := by
    unfold History.unknown
    split
    · rw [h.refresh_refused]
    · rw [h.refresh_refused]
  unfold History.answered
  split
  · exact hunknown _
  · split
    · exact hunknown _
    · rfl

/-- The first refresh asks for the epoch it is answered. -/
theorem asked_iff_served : ∃ s h,
    Run (ledgerStep sampleHashes sampleEncodings 1) (InTurn 3600)
      (started sampleEncodings sampleAccount.options none, {}) (s, h) ∧
    s.Idle ∧ 7 ∈ h.refresh.asked := by
  obtain ⟨tokens, s₁, s₂, s₃, s₄, t, hne, hs⟩ := exists_sampleServed
  obtain ⟨pass, minting, hminting⟩ := hs.minting
  obtain ⟨pass', hminted⟩ := hs.minted
  have hidle : t.Idle := idle_of_served hs
  have hsee {r : Refresh} {s : TokenState} (h : History)
    (hr : s.refreshes sampleStart.nextRefresh = some r)
      (hfailed : ∀ pass epoch e, r ≠ .failed pass epoch e) :
      h.see sampleHashes sampleEncodings s (.resume sampleStart.nextRefresh true) = h := by
    unfold History.see
    simp only [hr]
    cases r with
    | failed pass epoch e => exact absurd rfl (hfailed pass epoch e)
    | _ => rfl
  have hstart : InTurn 3600 (sampleStart, {}) (.refresh (3600 * 7)) := ⟨fun _ => rfl, Nat.zero_le _⟩
  have hrun := ledger_tail .refl hs.refresh hstart
  replace hrun := ledger_tail hrun hs.resume trivial
  rw [hsee _ hs.registered nofun] at hrun
  replace hrun := ledger_tail hrun hs.directory ⟨rfl, by decide⟩
  replace hrun := ledger_tail hrun hs.issued trivial
  replace hrun := ledger_tail hrun hs.stocked trivial
  rw [hsee _ hminted nofun] at hrun
  obtain ⟨h, hrun, asked, unregistered, hrefresh⟩ : ∃ h,
      Run (ledgerStep sampleHashes sampleEncodings 1) (InTurn 3600) (sampleStart, {}) (t, h) ∧
      ∃ asked unregistered, h.refresh =
        { now := 3600 * 7, directory := some (sampleAccount.hourly 7), asked, unregistered } := by
    refine ⟨_, hrun, ?_⟩
    simp only [History.sees, History.see, hminting]
    rw [answered_refresh]
    exact ⟨_, _, rfl⟩
  refine ⟨t, h, hrun, hidle, ((asked_iff hrun).1 hidle 7).mpr ⟨?_, ?_⟩⟩
  · obtain ⟨minting, hm, -⟩ := Account.minted_of_batch batch_sample_ne_nil
    refine ⟨sampleAccount.hourly 7, sampleAccount.blindingKey, 7, ?_, rfl, ?_, ?_, ?_,
      Nat.le_refl 7, ?_⟩
    · rw [hrefresh]
    · decide
    · have hm : mintRequest sampleHashes sampleEncodings (sampleAccount.hourly 7) 7
          (sampleAccount.hourly 7).quotaPerEpoch sampleAccount.blindingKey none 1 =
            some (.ok minting) := hm
      rw [usable, hm]
    · rw [hrefresh]
      exact sampleAccount.currentEpoch_hourly 7
    · rw [hrefresh]
      exact List.not_mem_nil
  · rintro ⟨directory, last, -, hended, -⟩
    rw [hrefresh] at hended
    cases hended

end TokenState

end WarrenSdk.Core
