import WarrenSdk.Core.Discovery.Soundness
import WarrenSdk.Core.Discovery.Verify
import WarrenSdk.Lib.Double
import WarrenSdk.Lib.Trust

/-!
# The acceptance of documents (`discovery/stores.ts`)

A document that verifies is accepted unless it is expired or rolled back, and what is accepted is
remembered: its generation as a floor, and its signer as the pin of the calls without pins. What a
whole run accepts is told by induction from what one call does to the stores.
-/

namespace WarrenSdk.Core.Discovery
open Lib

structure InMemoryGenerationStore where
  floor : Nat := 0
deriving DecidableEq

def InMemoryGenerationStore.loadFloor (store : InMemoryGenerationStore) : Nat := store.floor

def InMemoryGenerationStore.storeFloor (store : InMemoryGenerationStore) (generation : Nat) :
    InMemoryGenerationStore :=
  if generation > store.floor then { floor := generation } else store

structure InMemoryServerKeyStore where
  pin : Option Utf16 := none
deriving DecidableEq

def InMemoryServerKeyStore.loadPin (store : InMemoryServerKeyStore) : Option Utf16 := store.pin

def InMemoryServerKeyStore.storePin (_ : InMemoryServerKeyStore) (serverPubkeyHex : Utf16) :
    InMemoryServerKeyStore where
  pin := some serverPubkeyHex

/-- The stores among the options of a call. -/
structure Stores where
  generationStore : Option InMemoryGenerationStore
  serverKeyStore : Option InMemoryServerKeyStore
deriving DecidableEq

/-- The other options of a call. The clock is `now`, or the one of the system. -/
structure AcceptOptions where
  pins : Option (List Utf16)
  now : Double

def AcceptOptions.hasPins (opts : AcceptOptions) : Bool :=
  match opts.pins with
  | none | some [] => false
  | some (_ :: _) => true

inductive Policy
  | expired
  | rolledBack

def effectivePins (opts : AcceptOptions) (stores : Stores) : Option (List Utf16) :=
  if opts.hasPins then opts.pins
  else (stores.serverKeyStore.bind InMemoryServerKeyStore.loadPin).map fun tofu => [tofu]

def finishAccept (fail : Policy → Utf16 → ε) (opts : AcceptOptions) (generation : Nat)
    (serverPubkeyHex : Utf16) (expired : Bool) (stores : Stores) : Except ε Unit × Stores :=
  if expired then (.error (fail .expired "document is expired"), stores)
  else
    let floor := (stores.generationStore.map InMemoryGenerationStore.loadFloor).getD 0
    if generation < floor then
      (.error (fail .rolledBack "generation is below the trusted anti-rollback floor"), stores)
    else
      let generationStore := stores.generationStore.map fun store => store.storeFloor generation
      if !opts.hasPins && (stores.serverKeyStore.bind InMemoryServerKeyStore.loadPin).isNone then
        (.ok (), {
          generationStore
          serverKeyStore := stores.serverKeyStore.map fun store => store.storePin serverPubkeyHex })
      else (.ok (), { stores with generationStore })

/-- What the policy reads of a verified document. -/
structure Summary where
  generation : U64
  expiresAt : U64
  serverPubkeyHex : Utf16
deriving DecidableEq

/-- Both ways to accept a document: it is verified, then the policy has its say. -/
def acceptDocument (verify : Option (List Utf16) → Except ε α) (summary : α → Summary)
    (fail : Policy → Utf16 → ε) (opts : AcceptOptions) (stores : Stores) : Except ε α × Stores :=
  match verify (effectivePins opts stores) with
  | .error e => (.error e, stores)
  | .ok verified =>
    let doc := summary verified
    match finishAccept fail opts doc.generation.1 doc.serverPubkeyHex
        (opts.now.isAtLeast doc.expiresAt.1) stores with
    | (.error e, stores) => (.error e, stores)
    | (.ok (), stores) => (.ok verified, stores)

def listFailure (policy : Policy) (message : Utf16) : RelayList.WarrenDiscoveryError where
  code := match policy with
    | .expired => .expired
    | .rolledBack => .rolledBack
  message := message

def directoryFailure (policy : Policy) (message : Utf16) : WarrenDirectoryError where
  code := match policy with
    | .expired => .expired
    | .rolledBack => .rolledBack
  message := message

def RelayList.VerifiedRelayList.summary (list : RelayList.VerifiedRelayList) : Summary where
  generation := list.generation
  expiresAt := list.expiresAt
  serverPubkeyHex := list.serverPubkeyHex

def VerifiedDirectory.summary (dir : VerifiedDirectory) : Summary where
  generation := dir.generation
  expiresAt := dir.expiresAt
  serverPubkeyHex := dir.serverPubkeyHex

section
variable (P : Platform)

def acceptSignedRelayList (signedJson : Utf16) (opts : AcceptOptions) (stores : Stores) :
    Except RelayList.WarrenDiscoveryError RelayList.VerifiedRelayList × Stores :=
  acceptDocument (RelayList.verifySignedRelayList P signedJson)
    RelayList.VerifiedRelayList.summary listFailure opts stores

def acceptMultihopDirectory (json : Utf16) (rootPins : Option (List Utf16)) (opts : AcceptOptions)
    (stores : Stores) : Except WarrenDirectoryError VerifiedDirectory × Stores :=
  acceptDocument (fun pins => verifyMultihopDirectory P json pins rootPins)
    VerifiedDirectory.summary directoryFailure opts stores

end

/-! ## Runs -/

inductive Document
  | relayList (signedJson : Utf16)
  | directory (json : Utf16) (rootPins : Option (List Utf16))

structure Call where
  document : Document
  opts : AcceptOptions

inductive AcceptFailure
  | discovery (error : RelayList.WarrenDiscoveryError)
  | directory (error : WarrenDirectoryError)

/-- A call: what is read of the document it accepts, or what it throws, and the stores after it. -/
def accept (P : Platform) (call : Call) (stores : Stores) : Except AcceptFailure Summary × Stores :=
  match call.document with
  | .relayList signedJson =>
    let (result, stores) := acceptSignedRelayList P signedJson call.opts stores
    (match result with
      | .ok list => .ok list.summary
      | .error e => .error (.discovery e), stores)
  | .directory json rootPins =>
    let (result, stores) := acceptMultihopDirectory P json rootPins call.opts stores
    (match result with
      | .ok dir => .ok dir.summary
      | .error e => .error (.directory e), stores)

structure Step where
  before : Stores
  call : Call
  result : Except AcceptFailure Summary
  after : Stores

/-- Calls one after the other, over the same stores. -/
def run (P : Platform) : Stores → List Call → List Step
  | _, [] => []
  | stores, call :: calls =>
    let (result, after) := accept P call stores
    { before := stores, call, result, after } :: run P after calls

/-- The generation of a document that is accepted. -/
def Step.generation (step : Step) : Option Nat :=
  match step.result with
  | .ok doc => some doc.generation.1
  | .error _ => none

/-- The signer of a document that is accepted without pins. -/
def Step.pinlessSigner (step : Step) : Option Utf16 :=
  match step.result with
  | .ok doc => if step.call.opts.hasPins then none else some doc.serverPubkeyHex
  | .error _ => none

/-- The policy over a run. -/
structure Disciplined (P : Platform) (steps : List Step) : Prop where
  generations : (steps.filterMap Step.generation).Pairwise (· ≤ ·)
  signers : (steps.filterMap Step.pinlessSigner).Pairwise (· = ·)
  fresh : ∀ step ∈ steps, ∀ doc, step.result = .ok doc →
    step.call.opts.now.isAtLeast doc.expiresAt.1 = false
  pinsAlone : ∀ step ∈ steps, step.call.opts.hasPins = true →
    step.after.serverKeyStore = step.before.serverKeyStore ∧
      ∀ keys, accept P step.call { step.before with serverKeyStore := keys } =
        (step.result, { step.after with serverKeyStore := keys })
  atomic : ∀ step ∈ steps, ∀ e, step.result = .error e → step.after = step.before

/-! ## Steps -/

/-- The stores once a document is accepted. -/
def remember (opts : AcceptOptions) (doc : Summary) (stores : Stores) : Stores where
  generationStore := stores.generationStore.map fun store => store.storeFloor doc.generation.1
  serverKeyStore :=
    if !opts.hasPins && (stores.serverKeyStore.bind InMemoryServerKeyStore.loadPin).isNone then
      stores.serverKeyStore.map fun store => store.storePin doc.serverPubkeyHex
    else stores.serverKeyStore

/-- The policy has nothing against a document. -/
structure Permits (opts : AcceptOptions) (doc : Summary) (stores : Stores) : Prop where
  fresh : opts.now.isAtLeast doc.expiresAt.1 = false
  floor : (stores.generationStore.map InMemoryGenerationStore.loadFloor).getD 0 ≤ doc.generation.1

section
variable {verify : Option (List Utf16) → Except ε α} {summary : α → Summary}
  {fail : Policy → Utf16 → ε} {opts : AcceptOptions} {doc : Summary} {stores : Stores}

theorem finishAccept_cases (fail : Policy → Utf16 → ε) (opts : AcceptOptions) (doc : Summary)
    (stores : Stores) :
    (∃ e, finishAccept fail opts doc.generation.1 doc.serverPubkeyHex
        (opts.now.isAtLeast doc.expiresAt.1) stores = (.error e, stores)) ∨
      Permits opts doc stores ∧ finishAccept fail opts doc.generation.1 doc.serverPubkeyHex
        (opts.now.isAtLeast doc.expiresAt.1) stores = (.ok (), remember opts doc stores) := by
  unfold finishAccept
  split
  · exact .inl ⟨_, rfl⟩
  · next hfresh =>
    dsimp only
    split
    · exact .inl ⟨_, rfl⟩
    · next hfloor =>
      refine .inr ⟨⟨Bool.eq_false_iff.mpr hfresh, Nat.not_lt.mp hfloor⟩, ?_⟩
      unfold remember
      split <;> rfl

/-- A call accepts what verifies and the policy permits, or it throws and changes nothing. -/
theorem acceptDocument_cases (verify : Option (List Utf16) → Except ε α) (summary : α → Summary)
    (fail : Policy → Utf16 → ε) (opts : AcceptOptions) (stores : Stores) :
    (∃ e, acceptDocument verify summary fail opts stores = (.error e, stores)) ∨
      ∃ verified, verify (effectivePins opts stores) = .ok verified ∧
        Permits opts (summary verified) stores ∧
        acceptDocument verify summary fail opts stores =
          (.ok verified, remember opts (summary verified) stores) := by
  unfold acceptDocument
  cases hverify : verify (effectivePins opts stores) with
  | error e => exact .inl ⟨e, rfl⟩
  | ok verified =>
    dsimp only
    obtain ⟨e, he⟩ | ⟨hpermits, hok⟩ := finishAccept_cases fail opts (summary verified) stores
    · rw [he]
      exact .inl ⟨e, rfl⟩
    · rw [hok]
      exact .inr ⟨verified, rfl, hpermits, rfl⟩

theorem finishAccept_pins (h : opts.hasPins = true) (generation : Nat) (server : Utf16)
    (expired : Bool) (keys : Option InMemoryServerKeyStore) :
    finishAccept fail opts generation server expired { stores with serverKeyStore := keys } =
      ((finishAccept fail opts generation server expired stores).1,
        { (finishAccept fail opts generation server expired stores).2 with
          serverKeyStore := keys }) := by
  unfold finishAccept
  rw [h]
  split
  · rfl
  · dsimp only
    split <;> rfl

/-- A call with pins does not look at the remembered key. -/
theorem acceptDocument_pins (h : opts.hasPins = true) (keys : Option InMemoryServerKeyStore) :
    acceptDocument verify summary fail opts { stores with serverKeyStore := keys } =
      ((acceptDocument verify summary fail opts stores).1,
        { (acceptDocument verify summary fail opts stores).2 with serverKeyStore := keys }) := by
  have hpins (stores : Stores) : effectivePins opts stores = opts.pins := if_pos h
  unfold acceptDocument
  rw [hpins, hpins]
  cases verify opts.pins with
  | error e => rfl
  | ok verified =>
    dsimp only
    rw [finishAccept_pins h]
    obtain ⟨_ | _, after⟩ := finishAccept fail opts (summary verified).generation.1
      (summary verified).serverPubkeyHex (opts.now.isAtLeast (summary verified).expiresAt.1) stores
    · rfl
    · rfl

end

variable {P : Platform}

/-- A document verifies under some pins, and this is what the policy reads of it. -/
def Verifies (P : Platform) (pins : Option (List Utf16)) (doc : Summary) : Document → Prop
  | .relayList signedJson =>
    ∃ list, RelayList.verifySignedRelayList P signedJson pins = .ok list ∧ list.summary = doc
  | .directory json rootPins =>
    ∃ dir, verifyMultihopDirectory P json pins rootPins = .ok dir ∧ dir.summary = doc

theorem accept_cases (P : Platform) (call : Call) (stores : Stores) :
    (∃ e, accept P call stores = (.error e, stores)) ∨
      ∃ doc, Verifies P (effectivePins call.opts stores) doc call.document ∧
        Permits call.opts doc stores ∧
        accept P call stores = (.ok doc, remember call.opts doc stores) := by
  obtain ⟨document, opts⟩ := call
  cases document with
  | relayList signedJson =>
    obtain ⟨e, he⟩ | ⟨list, hlist, hpermits, hok⟩ := acceptDocument_cases
      (RelayList.verifySignedRelayList P signedJson) RelayList.VerifiedRelayList.summary
      listFailure opts stores
    · refine .inl ⟨.discovery e, ?_⟩
      simp only [accept, acceptSignedRelayList, he]
    · refine .inr ⟨list.summary, ⟨list, hlist, rfl⟩, hpermits, ?_⟩
      simp only [accept, acceptSignedRelayList, hok]
  | directory json rootPins =>
    obtain ⟨e, he⟩ | ⟨dir, hdir, hpermits, hok⟩ := acceptDocument_cases
      (fun pins => verifyMultihopDirectory P json pins rootPins) VerifiedDirectory.summary
      directoryFailure opts stores
    · refine .inl ⟨.directory e, ?_⟩
      simp only [accept, acceptMultihopDirectory, he]
    · refine .inr ⟨dir.summary, ⟨dir, hdir, rfl⟩, hpermits, ?_⟩
      simp only [accept, acceptMultihopDirectory, hok]

theorem accept_pins {call : Call} (h : call.opts.hasPins = true) (stores : Stores)
    (keys : Option InMemoryServerKeyStore) :
    accept P call { stores with serverKeyStore := keys } =
      ((accept P call stores).1, { (accept P call stores).2 with serverKeyStore := keys }) := by
  obtain ⟨document, opts⟩ := call
  cases document with
  | relayList signedJson =>
    simp only [accept, acceptSignedRelayList]
    rw [acceptDocument_pins h]
  | directory json rootPins =>
    simp only [accept, acceptMultihopDirectory]
    rw [acceptDocument_pins h]

/-! ## Trust -/

theorem RelayList.signer_of_verified {json : Utf16} {pins : Option (List Utf16)}
    {list : RelayList.VerifiedRelayList}
    (h : RelayList.verifySignedRelayList P json pins = .ok list) :
    ∃ server, list.serverPubkeyHex = P.lower server ∧ isPinned P.lower pins server = true := by
  obtain ⟨signed, -, h⟩ := bind_eq_ok.mp h
  obtain ⟨_, hpinned, h⟩ := bind_eq_ok.mp h
  obtain ⟨_, -, h⟩ := bind_eq_ok.mp h
  obtain ⟨_, -, h⟩ := bind_eq_ok.mp h
  obtain ⟨relays, -, h⟩ := bind_eq_ok.mp h
  cases h
  exact ⟨signed.serverPubkeyHex, rfl, ensure_eq_ok.mp hpinned⟩

theorem signer_of_verified {json : Utf16} {pins rootPins : Option (List Utf16)}
    {dir : VerifiedDirectory} (h : verifyMultihopDirectory P json pins rootPins = .ok dir) :
    ∃ server, dir.serverPubkeyHex = P.lower server ∧ isPinned P.lower pins server = true := by
  obtain ⟨d, -, hsound⟩ := sound_of_verified h
  exact ⟨d.serverPubkeyHex, hsound.freshness.2.2.2, isPinned_iff.mpr hsound.pinned⟩

/-- The signer of a document is told in lower case, and is the one key it is pinned to. -/
theorem Verifies.signer {pins : Option (List Utf16)} {doc : Summary} {document : Document}
    (h : Verifies P pins doc document) : P.lower doc.serverPubkeyHex = doc.serverPubkeyHex ∧
      ∀ pin, pins = some [pin] → P.lower pin = doc.serverPubkeyHex := by
  have hserver : ∃ server, doc.serverPubkeyHex = P.lower server ∧
      isPinned P.lower pins server = true := by
    cases document with
    | relayList signedJson =>
      obtain ⟨list, hlist, rfl⟩ := h
      exact RelayList.signer_of_verified hlist
    | directory json rootPins =>
      obtain ⟨dir, hdir, rfl⟩ := h
      exact signer_of_verified hdir
  obtain ⟨server, hserver, hpinned⟩ := hserver
  refine ⟨by rw [hserver, P.lower.idem], ?_⟩
  rintro pin rfl
  obtain ⟨q, hq, heq⟩ := isPinned_iff.mp hpinned pin [] rfl
  rw [← List.mem_singleton.mp hq, heq, hserver]

/-- What the stores stand for. -/
def trust (P : Platform) (generations : InMemoryGenerationStore) (keys : InMemoryServerKeyStore) :
    Trust Nat Utf16 where
  floor := generations.floor
  pin := keys.pin.map P.lower

/-- What is offered by a call that accepts a document. -/
def Step.offer (step : Step) : Option (Offer Nat Utf16) :=
  match step.result with
  | .ok doc => some {
      generation := doc.generation.1
      signer := doc.serverPubkeyHex
      named := step.call.opts.hasPins }
  | .error _ => none

/-- The stores take what the policy permits as their trust does. -/
theorem remember_refines {generations : InMemoryGenerationStore} {keys : InMemoryServerKeyStore}
    {opts : AcceptOptions} {doc : Summary} {document : Document}
    (hverifies : Verifies P (effectivePins opts ⟨some generations, some keys⟩) doc document)
    (hpermits : Permits opts doc ⟨some generations, some keys⟩) :
    (trust P generations keys).Admits ⟨doc.generation.1, doc.serverPubkeyHex, opts.hasPins⟩ ∧
      ∃ generations' keys', remember opts doc ⟨some generations, some keys⟩ =
          ⟨some generations', some keys'⟩ ∧
        trust P generations' keys' =
          (trust P generations keys).take
              ⟨doc.generation.1, doc.serverPubkeyHex, opts.hasPins⟩ := by
  obtain ⟨hlower, hpin⟩ := hverifies.signer
  obtain ⟨pin⟩ := keys
  have hfloor : generations.floor ≤ doc.generation.1 := hpermits.floor
  have hstored : (generations.storeFloor doc.generation.1).floor = doc.generation.1 := by
    unfold InMemoryGenerationStore.storeFloor
    split
    · rfl
    · omega
  constructor
  · refine ⟨hfloor, fun hnamed p hp => ?_⟩
    obtain ⟨tofu, rfl, rfl⟩ := Option.map_eq_some_iff.mp hp
    refine hpin tofu ?_
    change (if opts.hasPins = true then opts.pins else some [tofu]) = some [tofu]
    exact if_neg (Bool.eq_false_iff.mp hnamed)
  · refine ⟨generations.storeFloor doc.generation.1,
      ⟨if opts.hasPins then pin else some (pin.getD doc.serverPubkeyHex)⟩, ?_, ?_⟩
    · unfold remember InMemoryServerKeyStore.storePin InMemoryServerKeyStore.loadPin
      cases opts.hasPins <;> cases pin <;> rfl
    · unfold trust Trust.take
      rw [hstored]
      cases hnamed : opts.hasPins with
      | true => rfl
      | false =>
        cases pin with
        | none => exact congrArg (fun s => (⟨_, some s⟩ : Trust Nat Utf16)) hlower
        | some tofu =>
          have htofu : P.lower tofu = doc.serverPubkeyHex := by
            refine hpin tofu ?_
            unfold effectivePins
            rw [hnamed]
            rfl
          exact congrArg (fun s => (⟨_, some s⟩ : Trust Nat Utf16)) htofu

/-- A run of calls is a run of offers that are taken. -/
theorem run_refines (P : Platform) (calls : List Call) (generations : InMemoryGenerationStore)
    (keys : InMemoryServerKeyStore) :
    ∃ after, Trust.Run (trust P generations keys)
      ((run P ⟨some generations, some keys⟩ calls).filterMap Step.offer) after := by
  induction calls generalizing generations keys with
  | nil => exact ⟨_, .nil⟩
  | cons call calls ih =>
    unfold run
    obtain ⟨e, he⟩ | ⟨doc, hverifies, hpermits, hok⟩ :=
      accept_cases P call ⟨some generations, some keys⟩
    · rw [he]
      exact ih generations keys
    · rw [hok]
      obtain ⟨hadmits, generations', keys', hstores, htake⟩ := remember_refines hverifies hpermits
      rw [hstores]
      obtain ⟨after, hrun⟩ := ih generations' keys'
      rw [htake] at hrun
      exact ⟨after, .cons hadmits hrun⟩

/-! ## Whole runs -/

/-- A step of a run is its call over the stores before it. -/
theorem accept_of_mem_run {stores : Stores} {calls : List Call} {step : Step}
    (h : step ∈ run P stores calls) : accept P step.call step.before =
    (step.result, step.after) := by
  induction calls generalizing stores with
  | nil => cases h
  | cons call calls ih =>
    obtain rfl | h := List.mem_cons.mp h
    · rfl
    · exact ih h

theorem generations_eq (steps : List Step) :
    steps.filterMap Step.generation = (steps.filterMap Step.offer).map Offer.generation := by
  rw [List.map_filterMap]
  refine List.filterMap_congr fun step _ => ?_
  unfold Step.generation Step.offer
  cases step.result <;> rfl

theorem pinlessSigners_eq (steps : List Step) : steps.filterMap Step.pinlessSigner =
    ((steps.filterMap Step.offer).filter fun o => !o.named).map Offer.signer := by
  induction steps with
  | nil => rfl
  | cons step steps ih =>
    cases hresult : step.result with
    | error e =>
      rw [List.filterMap_cons_none (by rw [Step.pinlessSigner, hresult]),
        List.filterMap_cons_none (by rw [Step.offer, hresult]), ih]
    | ok doc =>
      rw [List.filterMap_cons_some (f := Step.offer) (by rw [Step.offer, hresult])]
      cases hpins : step.call.opts.hasPins with
      | true =>
        rw [List.filterMap_cons_none (by rw [Step.pinlessSigner, hresult]; exact if_pos hpins),
          List.filter_cons_of_neg (by simp), ih]
      | false =>
        rw [List.filterMap_cons_some (by
            rw [Step.pinlessSigner, hresult]
            exact if_neg (by rw [hpins]; exact Bool.false_ne_true)),
          List.filter_cons_of_pos (by simp), List.map_cons, ih]

/-- Over one store of generations and one of server keys, whatever is called. -/
theorem run_disciplined (P : Platform) (generations : InMemoryGenerationStore)
    (keys : InMemoryServerKeyStore) (calls : List Call) :
    Disciplined P (run P ⟨some generations, some keys⟩ calls) := by
  obtain ⟨after, hrun⟩ := run_refines P calls generations keys
  refine {
    generations := by
      rw [generations_eq]
      exact hrun.generations
    signers := by
      rw [pinlessSigners_eq]
      exact hrun.signers
    fresh := fun step hstep doc hdoc => ?_
    pinsAlone := fun step hstep hpins => ?_
    atomic := fun step hstep e he => ?_ }
  · have haccept := accept_of_mem_run hstep
    obtain ⟨e, he⟩ | ⟨doc', -, hpermits, hok⟩ := accept_cases P step.call step.before
    · rw [haccept, hdoc] at he
      cases he
    · rw [haccept, hdoc] at hok
      cases congrArg Prod.fst hok
      exact hpermits.fresh
  · have haccept := accept_of_mem_run hstep
    have hkeys := accept_pins (P := P) hpins step.before
    rw [haccept] at hkeys
    have hsame := hkeys step.before.serverKeyStore
    rw [haccept] at hsame
    exact ⟨congrArg (fun x => x.2.serverKeyStore) hsame, hkeys⟩
  · have haccept := accept_of_mem_run hstep
    obtain ⟨e', he'⟩ | ⟨doc, -, -, hok⟩ := accept_cases P step.call step.before
    · rw [haccept] at he'
      exact congrArg Prod.snd he'
    · rw [haccept, he] at hok
      cases congrArg Prod.fst hok

end WarrenSdk.Core.Discovery
