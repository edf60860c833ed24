import WarrenSdk.Lib.Utf16

/-!
# Errors of the core (`edge/errors.ts`, `api/errors.ts`) and the packages it imports

What a function of the core may throw. A no-log rule keeps secrets out of the messages.
-/

namespace WarrenSdk.Core

inductive WarrenEdgeErrorCode
  | noEdgePin
  | tokenIssuer
  | epochRejected
  | noBlindingKey
  | noSessionToken
  | handshake
deriving DecidableEq, Repr

inductive WarrenApiErrorCode
  | server
  | transport
  | allHostsBlocked
  | response
  | noIdentity
  | badClock
  | clockSkew
  | deviceRevoked
  | deviceUnregistered
  | deviceLimitReached
deriving DecidableEq, Repr

structure WarrenEdgeError where
  code : WarrenEdgeErrorCode
  message : String
  rejectReason : Option Lib.Utf16 := none
deriving DecidableEq, Repr

structure WarrenApiError where
  code : WarrenApiErrorCode
  message : String
  status : Option Nat := none
deriving DecidableEq, Repr

inductive Failure
  | edge (error : WarrenEdgeError)
  | api (error : WarrenApiError)
  /-- A `RangeError`. -/
  | range (message : String)
  /-- Any other error. -/
  | error (message : String)
deriving DecidableEq, Repr

/-- What a `bigint` division by zero throws. -/
def divisionByZero : Failure := .range "Division by zero"

def tokenIssuerError (message : String) : Failure := .edge { code := .tokenIssuer, message }

def ensure (p : Prop) [Decidable p] (error : ε) : Except ε Unit :=
  if p then .ok () else .error error

@[simp] theorem ensure_eq_ok {p : Prop} [Decidable p] {error : ε} {u : Unit} :
    ensure p error = .ok u ↔ p := by
  unfold ensure
  split
  · next h => exact iff_of_true rfl h
  · next h => exact iff_of_false (fun heq => by cases heq) h

theorem bind_eq_ok {x : Except ε α} {f : α → Except ε β} :
    (x >>= f) = .ok b ↔ ∃ a, x = .ok a ∧ f a = .ok b := by
  cases x with
  | error e => simp [bind, Except.bind]
  | ok a => simp [bind, Except.bind]

end WarrenSdk.Core

/-! ## Packages the core imports

The hash functions of `@noble/hashes` and the encodings of it and of `@scure/base`, which are not
part of the repository: every definition that uses them takes them as a parameter. -/

namespace WarrenSdk.Core
open Lib

structure Hashes where
  sha256 : Bytes → Octets 32
  sha384 : Bytes → Octets 48
  /-- HKDF-SHA-256 to 32 octets, from the input key, the salt and the info. -/
  hkdf : Bytes → Bytes → Bytes → Octets 32

structure Encodings where
  bytesToHex : Bytes → Utf16
  bytesToHex_inj : ∀ {bs cs}, bytesToHex bs = bytesToHex cs → bs = cs
  /-- `base64urlnopad.encode` -/
  base64 : Bytes → Utf16
  /-- `base64urlnopad.decode`, which throws on what is not in the alphabet. -/
  unbase64 : Utf16 → Option Bytes
  unbase64_base64 : ∀ bs, unbase64 (base64 bs) = some bs

/-- Octets as code units. -/
def sampleEncodings : Encodings where
  bytesToHex bs := bs.map (·.toUInt16)
  bytesToHex_inj {bs cs} h := by
    have hmap := congrArg (List.map UInt16.toUInt8) h
    simpa [Function.comp_def] using hmap
  base64 bs := bs.map (·.toUInt16)
  unbase64 s := some (s.map (·.toUInt8))
  unbase64_base64 bs := by simp [Function.comp_def]

end WarrenSdk.Core
