import WarrenSdk.NativeHost.Session

/-!
# What a decoded frame asks for (`protocol.rs`)

`decode_request` from the fields of a JSON object on. A field of the wrong shape never gets here,
and a request the helper cannot serve is `Request.refused` with the reason it is answered with.
-/

namespace WarrenSdk.NativeHost

def HostState.asStr : HostState → String
  | .connecting => "connecting"
  | .connected => "connected"
  | .reconnecting => "reconnecting"
  | .draining => "draining"
  | .failed => "failed"
  | .disconnected => "disconnected"

/-- `char::is_whitespace` -/
def isWhitespace (c : Char) : Bool :=
  (9 ≤ c.toNat && c.toNat ≤ 13) || (0x2000 ≤ c.toNat && c.toNat ≤ 0x200a) ||
    [0x20, 0x85, 0xa0, 0x1680, 0x2028, 0x2029, 0x202f, 0x205f, 0x3000].contains c.toNat

/-- `str::trim` -/
def trim (s : String) : List Char :=
  ((s.toList.dropWhile isWhitespace).reverse.dropWhile isWhitespace).reverse

/-- Whether the name and the version say anything. -/
def DeviceHandoff.isComplete (d : DeviceHandoff) : Bool :=
  !(trim d.name).isEmpty && !(trim d.appVersion).isEmpty

/-- Every field any request carries. -/
structure RawRequest where
  id : Option Value := none
  kind : Option String := none
  protocol : Option Value := none
  channel : Option Value := none
  mnemonic : Option String := none
  selector : Option ExitQuery := none
  entrySelector : Option EntryQuery := none
  httpProxy : Option Bool := none
  daita : Option Bool := none
  device : Option DeviceHandoff := none

inductive Decoded
  | request (envelope : Envelope)
  /-- Valid JSON without a numeric id. -/
  | ignored
  | corrupt
deriving DecidableEq

def Value.isNumber : Value → Bool
  | .number _ => true
  | .string _ | .other => false

def RawRequest.toRequest (raw : RawRequest) : Request :=
  match raw.kind with
  | some "hello" => .hello raw.protocol raw.channel
  | some "status" => .status
  | some "connect" =>
    match raw.mnemonic with
    | none => .refused "connect carries no mnemonic"
    | some mnemonic =>
      if raw.device.any (!·.isComplete) then .refused "malformed device"
      else
        .connect
          { mnemonic
            selector := raw.selector
            entrySelector := raw.entrySelector
            httpProxy := raw.httpProxy
            daita := raw.daita
            device := raw.device }
  | some "disconnect" => .disconnect
  | some "exits" => .exits
  | some "account" =>
    match raw.mnemonic with
    | some mnemonic => .account mnemonic
    | none => .refused "account carries no mnemonic"
  | _ => .refused "unknown request type"

def RawRequest.decode (raw : RawRequest) : Decoded :=
  match raw.id.filter Value.isNumber with
  | some id => .request { id, request := raw.toRequest }
  | none => .ignored

end WarrenSdk.NativeHost
