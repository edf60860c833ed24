import WarrenSdk.Core.Errors
import WarrenSdk.Lib.Framing
import WarrenSdk.Lib.Json
import WarrenSdk.Lib.Utf8

/-!
# The protocol of the daemon (`warrend/protocol.ts`)

Frames of JSON behind a big-endian length. `JSON.parse` and `JSON.stringify` are arguments, and so
is the type of what they read and write.
-/

namespace WarrenSdk.Node.Warrend

open Lib WarrenSdk.Core

def MAX_FRAME_BYTES : Nat := 16 * 1024 * 1024

def encodeFrame (stringify : μ → Utf16) (message : μ) : Except Failure Bytes :=
  let json := Utf16.utf8 (stringify message)
  if json.length > MAX_FRAME_BYTES then
    .error (.range "warrend frame exceeds the maximum size")
  else .ok (toBE 4 json.length ++ json)

/-- What a decoder does with its buffer. -/
def FrameDecoder (parse : Utf16 → Option μ) : Framing μ where
  size := ofBE
  spell := toBE 4
  cap := MAX_FRAME_BYTES
  parse bytes := parse (Utf8.decode bytes)
  length_spell := length_toBE 4
  size_spell n hn := ofBE_toBE_of_lt (Nat.lt_of_le_of_lt hn (by decide))

inductive WarrendState
  | connecting
  | connected
  | reconnecting
  | draining
  | failed
  | disconnected
deriving DecidableEq, Repr

def WarrendState.text : WarrendState → Utf16
  | .connecting => "connecting"
  | .connected => "connected"
  | .reconnecting => "reconnecting"
  | .draining => "draining"
  | .failed => "failed"
  | .disconnected => "disconnected"

def STATES : List WarrendState :=
  [.connecting, .connected, .reconnecting, .draining, .failed, .disconnected]

inductive WarrendEvent
  | state (state : WarrendState)
  | error (kind message : Utf16)
deriving DecidableEq

/-- `parseEvent`: an array is an object without these members. -/
def parseEvent : Json → Option WarrendEvent
  | .object members =>
    match Json.member members "type" with
    | some (.string type) =>
      if type = "state" then
        match Json.member members "state" with
        | some (.string state) => (STATES.find? (·.text = state)).map .state
        | _ => none
      else if type = "error" then
        match Json.member members "kind", Json.member members "message" with
        | some (.string kind), some (.string message) => some (.error kind message)
        | _, _ => none
      else none
    | _ => none
  | _ => none

end WarrenSdk.Node.Warrend
