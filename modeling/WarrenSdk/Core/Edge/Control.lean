import WarrenSdk.Core.Edge.FrameStream
import WarrenSdk.Lib.Utf8

/-!
# Control messages (`edge/control.ts`)

What an exit answers on the sealed channel, behind the two octets that tell it from a packet, and
the request that a client opens the channel with. `postcard` is the wire form the exit writes; the
fractions of a `DaitaConfig` are kept as their eight octets.
-/

namespace WarrenSdk.Core.Control
open Lib Cursor

def CONTROL_FIRST_BYTE : Nat := 0xC0
def CONTROL_VERSION_V3 : Nat := 3
def IP_REQUEST_V7_VARIANT : Nat := 5
def SESSION_TOKEN_LEN : Nat := 354
def MAX_SESSION_TOKENS : Nat := 8

structure DaitaConfig where
  machineSpecs : List Utf16
  maxPaddingFrac : Bytes
  maxBlockingFrac : Bytes
deriving DecidableEq

structure IpAssign where
  ipv4 : Bytes
  prefixLen : Nat
  gatewayIpv4 : Bytes
  ipv6 : Option Bytes
  prefixLenV6 : Nat
  gatewayIpv6 : Option Bytes
  daitaSpec : Option DaitaConfig
deriving DecidableEq

inductive ControlMessage
  | ipAssign (assign : IpAssign)
  | ipExhausted
  | rejected
  | exitDraining (deadlineUnixSecs reasonCode : Nat)
deriving DecidableEq

structure IpRequestV7 where
  tokens : List Bytes
  wantsIpv6 : Bool := false
  preferIpv4 : Option Bytes := none
  wantsDaita : Bool := false

/-! ## The client's request -/

def checkIpRequestV7 (params : IpRequestV7) : Except Failure Unit := do
  if params.tokens = [] then
    throw (.range "IpRequestV7 must carry at least one session token")
  if MAX_SESSION_TOKENS < params.tokens.length then
    throw (.range s!"at most {MAX_SESSION_TOKENS} session tokens")
  for t in params.tokens do
    if t.length ≠ SESSION_TOKEN_LEN then
      throw (.range s!"session token must be {SESSION_TOKEN_LEN} bytes, got {t.length}")
  match params.preferIpv4 with
  | some preferIpv4 => if preferIpv4.length ≠ 4 then throw (.range "preferIpv4 must be 4 bytes")
  | none => return ()

def encodeIpRequestV7 (params : IpRequestV7) : Except Failure Uint8Array := do
  checkIpRequestV7 params
  let variant ← encodeLeb128 IP_REQUEST_V7_VARIANT
  let count ← encodeLeb128 params.tokens.length
  let preferIpv4 : Bytes := match params.preferIpv4 with
    | none => [0]
    | some preferIpv4 => 1 :: preferIpv4
  newUint8Array (UInt8.ofNat CONTROL_FIRST_BYTE :: UInt8.ofNat CONTROL_VERSION_V3 :: (variant ++
    (preferIpv4 ++ (if params.wantsIpv6 then 1 else 0) :: (count ++ (params.tokens.flatten ++
      [if params.wantsDaita then 1 else 0])))))

/-! ## Decoding -/

def readBytes (n : Nat) (what : String) : Cursor Failure Bytes :=
  .slice n (.range s!"truncated control message: need {n} more bytes for {what}")

def readU8 (what : String) : Cursor Failure Nat := do
  let field ← readBytes 1 what
  return (field.headD 0).toNat

/-- An option is told by its tag. -/
def readOptionTag (tagWhat what : String) : Cursor Failure Bool := do
  let tag ← readU8 tagWhat
  if tag = 0 then return false
  if tag ≠ 1 then throw (.range s!"invalid Option tag {tag} for {what}")
  return true

def readOptionBytes (n : Nat) (what : String) : Cursor Failure (Option Bytes) := do
  if ← readOptionTag s!"{what} tag" what then
    return some (← readBytes n what)
  else return none

def readString (what : String) : Cursor Failure Utf16 := do
  let length ← takeLeb128
  let field ← readBytes (toNumber length) what
  return Utf8.decodeText field

/-- The octets of a double. -/
def readF64 (what : String) : Cursor Failure Bytes := readBytes 8 what

/-- The loop over `count` machine specifications: how often its body is entered, and what is
read. -/
def specLoop : Nat → Bytes → Nat × Except Failure (List Utf16 × Bytes)
  | 0, bytes => (0, .ok ([], bytes))
  | count + 1, bytes =>
    match readString "machine_spec" bytes with
    | .error e => (1, .error e)
    | .ok (spec, rest) =>
      let (iterations, result) := specLoop count rest
      (iterations + 1, result.map fun (specs, rest) => (spec :: specs, rest))

def readSpecs (count : Nat) : Cursor Failure (List Utf16) := fun bytes => (specLoop count bytes).2

/-- The count of machine specifications, unless there is no `DaitaConfig`. -/
def readDaitaCount : Cursor Failure (Option Nat) := do
  if ← readOptionTag "daita_spec tag" "daita_spec" then
    return some (← takeLeb128)
  else return none

def readOptionDaitaConfig : Cursor Failure (Option DaitaConfig) := do
  match ← readDaitaCount with
  | none => return none
  | some count =>
    let machineSpecs ← readSpecs count
    let maxPaddingFrac ← readF64 "max_padding_frac"
    let maxBlockingFrac ← readF64 "max_blocking_frac"
    return some { machineSpecs, maxPaddingFrac, maxBlockingFrac }

/-- What stands before the `DaitaConfig`. -/
def readAddresses : Cursor Failure IpAssign := do
  let ipv4 ← readBytes 4 "ipv4"
  let prefixLen ← readU8 "prefix_len"
  let gatewayIpv4 ← readBytes 4 "gateway_ipv4"
  let ipv6 ← readOptionBytes 16 "ipv6"
  let prefixLenV6 ← readU8 "prefix_len_v6"
  let gatewayIpv6 ← readOptionBytes 16 "gateway_ipv6"
  return { ipv4, prefixLen, gatewayIpv4, ipv6, prefixLenV6, gatewayIpv6, daitaSpec := none }

def readMessage : Cursor Failure ControlMessage := do
  match ← takeLeb128 with
  | 1 =>
    let assign ← readAddresses
    let daitaSpec ← readOptionDaitaConfig
    return .ipAssign { assign with daitaSpec }
  | 2 => return .ipExhausted
  | 3 => return .rejected
  | 4 =>
    let deadlineUnixSecs ← takeLeb128
    let reasonCode ← readU8 "reason_code"
    return .exitDraining deadlineUnixSecs reasonCode
  | variant =>
    throw (.range s!"unexpected control variant {variant} (not an exit->client message)")

def noTrailing : Cursor Failure Unit := fun bytes =>
  if bytes = [] then .ok ((), [])
  else .error (.range s!"trailing bytes after control message: {bytes.length} left")

/-- What is behind the two octets of a control message. -/
def controlBody (plaintext : Uint8Array) : Except Failure Bytes :=
  match plaintext.1 with
  | first :: version :: body =>
    if first.toNat ≠ CONTROL_FIRST_BYTE then
      .error (.range s!"not a control message: first byte {first.toNat} != 0xc0")
    else if version.toNat ≠ CONTROL_VERSION_V3 then
      .error (.range
        s!"unsupported control version {version.toNat}, expected {CONTROL_VERSION_V3}")
    else .ok body
  | short => .error (.range s!"truncated control message: {short.length} bytes")

def decodeControlMessage (plaintext : Uint8Array) : Except Failure ControlMessage := do
  let body ← controlBody plaintext
  Cursor.all (do
    let msg ← readMessage
    noTrailing
    return msg) body

/-- The count of machine specifications that the loop is told. -/
def readClaimedCount : Cursor Failure Nat := do
  match ← takeLeb128 with
  | 1 =>
    let _ ← readAddresses
    return (← readDaitaCount).getD 0
  | _ => return 0

/-- How often the body of the loop over machine specifications is entered as `plaintext` is
decoded. -/
def specIterations (plaintext : Uint8Array) : Nat :=
  match controlBody plaintext with
  | .error _ => 0
  | .ok body =>
    match readClaimedCount body with
    | .error _ => 0
    | .ok (count, rest) => (specLoop count rest).1

/-! ## The wire form -/

def encodeOption (encode : α → Bytes) : Option α → Bytes
  | none => [0]
  | some a => 1 :: encode a

def encodeString (s : Utf16) : Bytes := toLeb (Utf16.utf8 s).length ++ Utf16.utf8 s

def DaitaConfig.postcard (d : DaitaConfig) : Bytes :=
  toLeb d.machineSpecs.length ++ (d.machineSpecs.flatMap encodeString ++
    (d.maxPaddingFrac ++ d.maxBlockingFrac))

def IpAssign.postcard (a : IpAssign) : Bytes :=
  a.ipv4 ++ (UInt8.ofNat a.prefixLen :: (a.gatewayIpv4 ++ (encodeOption (·) a.ipv6 ++
    (UInt8.ofNat a.prefixLenV6 :: (encodeOption (·) a.gatewayIpv6 ++
      encodeOption DaitaConfig.postcard a.daitaSpec)))))

def ControlMessage.body : ControlMessage → Bytes
  | .ipAssign a => toLeb 1 ++ a.postcard
  | .ipExhausted => toLeb 2
  | .rejected => toLeb 3
  | .exitDraining deadlineUnixSecs reasonCode =>
    toLeb 4 ++ (toLeb deadlineUnixSecs ++ [UInt8.ofNat reasonCode])

/-- The octets of a control message. -/
def ControlMessage.postcard (m : ControlMessage) : Bytes :=
  UInt8.ofNat CONTROL_FIRST_BYTE :: UInt8.ofNat CONTROL_VERSION_V3 :: m.body

structure DaitaConfig.InRange (d : DaitaConfig) : Prop where
  machineSpecs : ∀ s ∈ d.machineSpecs, Utf16.IsAscii s
  maxPaddingFrac : d.maxPaddingFrac.length = 8
  maxBlockingFrac : d.maxBlockingFrac.length = 8

structure IpAssign.InRange (a : IpAssign) : Prop where
  ipv4 : a.ipv4.length = 4
  prefixLen : a.prefixLen < 256
  gatewayIpv4 : a.gatewayIpv4.length = 4
  ipv6 : ∀ ip ∈ a.ipv6, ip.length = 16
  prefixLenV6 : a.prefixLenV6 < 256
  gatewayIpv6 : ∀ ip ∈ a.gatewayIpv6, ip.length = 16
  daitaSpec : ∀ d ∈ a.daitaSpec, d.InRange

/-- The fields have the widths of their types. -/
def ControlMessage.InRange : ControlMessage → Prop
  | .ipAssign a => a.InRange
  | .ipExhausted | .rejected => True
  | .exitDraining deadlineUnixSecs reasonCode => deadlineUnixSecs < 2 ^ 64 ∧ reasonCode < 256

/-! ## Reading the wire form -/

theorem truncation_readBytes (n : Nat) (what : String) :
    Truncation (.range s!"truncated control message: need {n} more bytes for {what}") := by
  refine ⟨" control message: need " ++ (toString n ++ (" more bytes for " ++ what)), ?_⟩
  have hhead : "truncated control message: need " = "truncated" ++ " control message: need " := by
    decide
  simp only [toString, hhead, String.append_assoc]

theorem takes_readBytes {x : Bytes} (h : x.length = n) (what : String) :
    Takes Truncation (readBytes n what) x x := by
  subst h
  exact takes_slice (truncation_readBytes _ _) x

theorem takes_readU8 (h : n < 256) (what : String) :
    Takes Truncation (readU8 what) [UInt8.ofNat n] n := by
  have hfield := takes_readBytes (x := [UInt8.ofNat n]) rfl what
  have hmap := hfield.map fun field => (field.headD 0).toNat
  have hback : (([UInt8.ofNat n] : Bytes).headD 0).toNat = n := UInt8.toNat_ofNat_of_lt' h
  rw [hback] at hmap
  exact hmap

theorem takes_readOptionTag (some : Bool) (tagWhat what : String) :
    Takes Truncation (readOptionTag tagWhat what) [if some then 1 else 0] some := by
  cases some with
  | false => exact (takes_readU8 (n := 0) (by decide) tagWhat).bind (takes_pure false)
  | true => exact (takes_readU8 (n := 1) (by decide) tagWhat).bind (takes_pure true)

theorem takes_readOptionBytes {ip : Option Bytes} (h : ∀ x ∈ ip, x.length = n) (what : String) :
    Takes Truncation (readOptionBytes n what) (encodeOption (·) ip) ip := by
  cases ip with
  | none => exact (takes_readOptionTag false _ _).bind (takes_pure none)
  | some x =>
    refine (takes_readOptionTag true _ _).bind ?_
    exact (takes_readBytes (h x rfl) what).map some

theorem takes_toLeb (h : n < 2 ^ 64) : Takes Truncation takeLeb128 (toLeb n) n := by
  have hleb := takes_leb128 (isVarint_toLeb h)
  rw [ofLeb_toLeb] at hleb
  exact hleb

theorem takes_length (h : n < MAX_EXACT) : Takes Truncation takeLeb128 (toLeb n) n :=
  takes_toLeb (Nat.lt_trans h (by simp [MAX_EXACT]))

theorem decodeText_ascii {s : Utf16} (h : Utf16.IsAscii s) :
    Utf8.decodeText (Utf16.utf8 s) = s := by
  refine Utf8.decodeText_utf8 h.wellFormed fun hmark => ?_
  have hlt := h 0xFEFF (List.mem_of_mem_head? hmark)
  exact absurd hlt (by decide)

theorem takes_readString {s : Utf16} (h : Utf16.IsAscii s)
    (hlen : (Utf16.utf8 s).length < MAX_EXACT)
    (what : String) : Takes Truncation (readString what) (encodeString s) s := by
  refine (takes_length hlen).bind ?_
  have hmap := (takes_readBytes (toNumber_of_lt hlen).symm what).map Utf8.decodeText
  rw [decodeText_ascii h] at hmap
  exact hmap

theorem readSpecs_succ (count : Nat) :
    readSpecs (count + 1) = (do
      let spec ← readString "machine_spec"
      let specs ← readSpecs count
      return spec :: specs) := by
  funext bytes
  change (specLoop (count + 1) bytes).2 = (readString "machine_spec" bytes).bind fun x =>
    ((specLoop count x.2).2).bind fun y => .ok (x.1 :: y.1, y.2)
  rw [specLoop]
  cases readString "machine_spec" bytes with
  | error e => rfl
  | ok x =>
    obtain ⟨spec, rest⟩ := x
    change ((specLoop count rest).2.map _) = (specLoop count rest).2.bind _
    cases (specLoop count rest).2 <;> rfl

theorem takes_readSpecs {specs : List Utf16} (h : ∀ s ∈ specs, Utf16.IsAscii s)
    (hlen : (specs.flatMap encodeString).length < MAX_EXACT) :
    Takes Truncation (readSpecs specs.length) (specs.flatMap encodeString) specs := by
  induction specs with
  | nil => exact takes_pure []
  | cons s specs ih =>
    rw [List.flatMap_cons, List.length_append] at hlen
    have hspec : (Utf16.utf8 s).length < MAX_EXACT := by
      rw [encodeString, List.length_append] at hlen
      omega
    rw [List.length_cons, readSpecs_succ, List.flatMap_cons]
    refine (takes_readString (h s List.mem_cons_self) hspec _).bind ?_
    exact (ih (fun t ht => h t (List.mem_cons_of_mem s ht)) (by omega)).map (s :: ·)

theorem length_le_specs (specs : List Utf16) :
    specs.length ≤ (specs.flatMap encodeString).length := by
  induction specs with
  | nil => exact Nat.le_refl 0
  | cons s specs ih =>
    have hpos := List.length_pos_iff.mpr (toLeb_ne_nil (Utf16.utf8 s).length)
    rw [List.flatMap_cons, List.length_append, encodeString, List.length_append, List.length_cons]
    omega

theorem takes_readOptionDaitaConfig {daita : Option DaitaConfig} (h : ∀ d ∈ daita, d.InRange)
    (hlen : (encodeOption DaitaConfig.postcard daita).length < MAX_EXACT) :
    Takes Truncation readOptionDaitaConfig (encodeOption DaitaConfig.postcard daita) daita := by
  cases daita with
  | none =>
    have hcount : Takes Truncation readDaitaCount [0] none :=
      (takes_readOptionTag false _ _).bind (takes_pure none)
    exact hcount.bind (takes_pure none)
  | some d =>
    have hd := h d rfl
    simp only [encodeOption, DaitaConfig.postcard, List.length_cons, List.length_append] at hlen
    have hspecs := length_le_specs d.machineSpecs
    have hcount : Takes Truncation readDaitaCount (1 :: toLeb d.machineSpecs.length)
        (some d.machineSpecs.length) := by
      refine (takes_readOptionTag true _ _).bind ?_
      exact (takes_length (n := d.machineSpecs.length) (by omega)).map some
    refine hcount.bind ?_
    refine (takes_readSpecs hd.machineSpecs (by omega)).bind ?_
    refine (takes_readBytes hd.maxPaddingFrac _).bind ?_
    exact (takes_readBytes hd.maxBlockingFrac _).map fun maxBlockingFrac =>
      some { d with maxBlockingFrac }

theorem takes_readAddresses {a : IpAssign} (h : a.InRange) :
    Takes Truncation readAddresses
      (a.ipv4 ++ (UInt8.ofNat a.prefixLen :: (a.gatewayIpv4 ++ (encodeOption (·) a.ipv6 ++
        (UInt8.ofNat a.prefixLenV6 :: encodeOption (·) a.gatewayIpv6)))))
      { a with daitaSpec := none } := by
  refine (takes_readBytes h.ipv4 _).bind ?_
  refine (takes_readU8 h.prefixLen _).bind ?_
  refine (takes_readBytes h.gatewayIpv4 _).bind ?_
  refine (takes_readOptionBytes h.ipv6 _).bind ?_
  refine (takes_readU8 h.prefixLenV6 _).bind ?_
  exact (takes_readOptionBytes h.gatewayIpv6 _).map fun gatewayIpv6 =>
    { a with gatewayIpv6, daitaSpec := none }

/-- The reader of messages takes the wire form of a message. -/
theorem takes_readMessage {m : ControlMessage} (h : m.InRange) (hlen : m.body.length < MAX_EXACT) :
    Takes Truncation readMessage m.body m := by
  cases m with
  | ipAssign a =>
    have hsplit : (ControlMessage.ipAssign a).body = toLeb 1 ++
        ((a.ipv4 ++ (UInt8.ofNat a.prefixLen :: (a.gatewayIpv4 ++ (encodeOption (·) a.ipv6 ++
          (UInt8.ofNat a.prefixLenV6 :: encodeOption (·) a.gatewayIpv6))))) ++
          encodeOption DaitaConfig.postcard a.daitaSpec) := by
      simp only [ControlMessage.body, IpAssign.postcard, List.append_assoc, List.cons_append]
    rw [hsplit, List.length_append, List.length_append] at hlen
    rw [hsplit]
    refine (takes_toLeb (n := 1) (by decide)).bind ?_
    refine (takes_readAddresses h).bind ?_
    exact (takes_readOptionDaitaConfig h.daitaSpec (by omega)).map fun daitaSpec =>
      ControlMessage.ipAssign { a with daitaSpec }
  | ipExhausted =>
    rw [← List.append_nil (ControlMessage.body _)]
    exact (takes_toLeb (n := 2) (by decide)).bind (takes_pure _)
  | rejected =>
    rw [← List.append_nil (ControlMessage.body _)]
    exact (takes_toLeb (n := 3) (by decide)).bind (takes_pure _)
  | exitDraining deadlineUnixSecs reasonCode =>
    obtain ⟨hdeadline, hreason⟩ := h
    refine (takes_toLeb (n := 4) (by decide)).bind ?_
    refine (takes_toLeb hdeadline).bind ?_
    exact (takes_readU8 hreason _).map (ControlMessage.exitDraining deadlineUnixSecs)

/-! ## Prefixes -/

theorem delimits_takeLeb128 : Delimits takeLeb128 := by
  intro bs v rest h
  obtain ⟨w, rfl, hw, rfl⟩ := takeLeb128_eq_ok.mp h
  exact ⟨w, rfl, (takes_leb128 hw).takes⟩

theorem delimits_readBytes (n : Nat) (what : String) : Delimits (readBytes n what) :=
  delimits_slice _ _

theorem delimits_readU8 (what : String) : Delimits (readU8 what) :=
  (delimits_readBytes 1 what).bind fun _ => delimits_pure _

theorem delimits_readOptionTag (tagWhat what : String) : Delimits (readOptionTag tagWhat what) := by
  refine (delimits_readU8 tagWhat).bind fun tag => ?_
  split
  · exact delimits_pure false
  · split
    · exact (delimits_throw _).bind fun _ => delimits_pure true
    · exact delimits_pure true

theorem delimits_readOptionBytes (n : Nat) (what : String) : Delimits (readOptionBytes n what) := by
  refine (delimits_readOptionTag _ what).bind fun tag => ?_
  cases tag with
  | false => exact delimits_pure none
  | true => exact (delimits_readBytes n what).bind fun _ => delimits_pure _

theorem delimits_readString (what : String) : Delimits (readString what) := by
  refine delimits_takeLeb128.bind fun length => ?_
  exact (delimits_readBytes _ what).bind fun _ => delimits_pure _

theorem delimits_readSpecs (count : Nat) : Delimits (readSpecs count) := by
  induction count with
  | zero => exact delimits_pure []
  | succ count ih =>
    rw [readSpecs_succ]
    exact (delimits_readString _).bind fun _ => ih.bind fun _ => delimits_pure _

theorem delimits_readDaitaCount : Delimits readDaitaCount := by
  refine (delimits_readOptionTag _ _).bind fun tag => ?_
  cases tag with
  | false => exact delimits_pure none
  | true => exact delimits_takeLeb128.bind fun _ => delimits_pure _

theorem delimits_readOptionDaitaConfig : Delimits readOptionDaitaConfig := by
  refine delimits_readDaitaCount.bind fun count => ?_
  cases count with
  | none => exact delimits_pure none
  | some count =>
    refine (delimits_readSpecs count).bind fun machineSpecs => ?_
    refine (delimits_readBytes 8 _).bind fun maxPaddingFrac => ?_
    exact (delimits_readBytes 8 _).bind fun maxBlockingFrac => delimits_pure _

theorem delimits_readAddresses : Delimits readAddresses := by
  refine (delimits_readBytes 4 _).bind fun ipv4 => ?_
  refine (delimits_readU8 _).bind fun prefixLen => ?_
  refine (delimits_readBytes 4 _).bind fun gatewayIpv4 => ?_
  refine (delimits_readOptionBytes 16 _).bind fun ipv6 => ?_
  refine (delimits_readU8 _).bind fun prefixLenV6 => ?_
  exact (delimits_readOptionBytes 16 _).bind fun gatewayIpv6 => delimits_pure _

/-- The reader of messages tells their end by itself. -/
theorem delimits_readMessage : Delimits readMessage := by
  refine delimits_takeLeb128.bind fun variant => ?_
  split
  · refine delimits_readAddresses.bind fun assign => ?_
    exact delimits_readOptionDaitaConfig.bind fun daitaSpec => delimits_pure _
  · exact delimits_pure ControlMessage.ipExhausted
  · exact delimits_pure ControlMessage.rejected
  · refine delimits_takeLeb128.bind fun deadlineUnixSecs => ?_
    exact (delimits_readU8 _).bind fun reasonCode => delimits_pure _
  · exact delimits_throw _

/-! ## The decoder -/

@[simp] theorem noTrailing_eq_ok {bs rest : Bytes} :
    noTrailing bs = .ok (u, rest) ↔ bs = [] ∧ rest = [] := by
  unfold noTrailing
  split
  · next hbs =>
    constructor
    · intro h
      cases h
      exact ⟨hbs, rfl⟩
    · rintro ⟨-, rfl⟩
      rfl
  · next hbs =>
    constructor
    · intro h
      cases h
    · rintro ⟨rfl, -⟩
      exact absurd rfl hbs

theorem controlBody_eq_ok {plaintext : Uint8Array} {body : Bytes} :
    controlBody plaintext = .ok body ↔ plaintext.1 =
      UInt8.ofNat CONTROL_FIRST_BYTE :: UInt8.ofNat CONTROL_VERSION_V3 :: body := by
  have hoctet : ∀ (u : UInt8) (n : Nat), n < 256 → (u.toNat = n ↔ u = UInt8.ofNat n) := by
    intro u n hn
    rw [← UInt8.toNat_inj, UInt8.toNat_ofNat_of_lt' hn]
  unfold controlBody
  split
  · next first version rest heq =>
    rw [heq]
    split
    · next hfirst => simp [← hoctet _ _ (by decide : CONTROL_FIRST_BYTE < 256), hfirst]
    · next hfirst =>
      split
      · next hversion => simp [← hoctet _ _ (by decide : CONTROL_VERSION_V3 < 256), hversion]
      · next hversion =>
        have h1 := (hoctet _ _ (by decide : CONTROL_FIRST_BYTE < 256)).mp (not_not.mp hfirst)
        have h2 := (hoctet _ _ (by decide : CONTROL_VERSION_V3 < 256)).mp (not_not.mp hversion)
        simp [h1, h2]
  · next hshort =>
    constructor
    · intro h
      cases h
    · intro h
      exact absurd h (hshort _ _ _)

/-- What is decoded is a message, with nothing behind it. -/
theorem decodeControlMessage_eq_ok {plaintext : Uint8Array} {m : ControlMessage} :
    decodeControlMessage plaintext = .ok m ↔ ∃ body, plaintext.1 =
      UInt8.ofNat CONTROL_FIRST_BYTE :: UInt8.ofNat CONTROL_VERSION_V3 :: body ∧
        readMessage body = .ok (m, []) := by
  unfold decodeControlMessage
  rw [bind_eq_ok]
  simp only [controlBody_eq_ok, all_eq_ok, Cursor.bind_eq_ok, noTrailing_eq_ok, pure_eq_ok]
  constructor
  · rintro ⟨body, hbody, rest, n, left, hread, u, left', ⟨rfl, rfl⟩, rfl, rfl⟩
    exact ⟨body, hbody, hread⟩
  · rintro ⟨body, hbody, hread⟩
    exact ⟨body, hbody, [], m, [], hread, (), [], ⟨rfl, rfl⟩, rfl, rfl⟩

theorem decodeControlMessage_postcard {m : ControlMessage} (h : m.InRange) {plaintext : Uint8Array}
    (heq : plaintext.1 = m.postcard) : decodeControlMessage plaintext = .ok m := by
  have hlen := plaintext.2
  rw [heq, ControlMessage.postcard, List.length_cons, List.length_cons] at hlen
  have htakes := (takes_readMessage h (by omega)).takes []
  rw [List.append_nil] at htakes
  exact decodeControlMessage_eq_ok.mpr ⟨m.body, heq, htakes⟩

/-- No accepted octets are a proper prefix of others. -/
theorem eq_of_prefixed {b c : Uint8Array} {m n : ControlMessage}
    (hb : decodeControlMessage b = .ok m)
    (hc : decodeControlMessage c = .ok n) (hpre : b.1 <+: c.1) : b = c := by
  obtain ⟨body, hbody, hreadb⟩ := decodeControlMessage_eq_ok.mp hb
  obtain ⟨body', hbody', hreadc⟩ := decodeControlMessage_eq_ok.mp hc
  obtain ⟨ext, hext⟩ := hpre
  rw [hbody, hbody', List.cons_append, List.cons_append] at hext
  have htail : body ++ ext = body' := (List.cons.inj (List.cons.inj hext).2).2
  rw [← htail] at hreadc
  have hnil := delimits_readMessage.eq_nil hreadb hreadc
  apply Subtype.ext
  rw [hbody, hbody', ← htail, hnil, List.append_nil]

theorem readMessage_ipRequestV7 (rest : Bytes) :
    readMessage (toLeb IP_REQUEST_V7_VARIANT ++ rest) =
      .error (.range "unexpected control variant 5 (not an exit->client message)") := by
  have hvariant := (takes_toLeb (n := IP_REQUEST_V7_VARIANT) (by decide)).takes rest
  change (takeLeb128 _).bind _ = _
  rw [hvariant]
  rfl

/-- A client's request is no message of an exit. -/
theorem decodeControlMessage_ipRequestV7 {params : IpRequestV7} {bytes : Uint8Array}
    (h : encodeIpRequestV7 params = .ok bytes) : decodeControlMessage bytes =
      .error (.range "unexpected control variant 5 (not an exit->client message)") := by
  unfold encodeIpRequestV7 at h
  obtain ⟨-, -, h⟩ := bind_eq_ok.mp h
  obtain ⟨variant, hvariant, h⟩ := bind_eq_ok.mp h
  obtain ⟨count, -, h⟩ := bind_eq_ok.mp h
  rw [encodeLeb128_natCast] at hvariant
  cases hvariant
  have hbody := controlBody_eq_ok.mpr (newUint8Array_eq_ok.mp h)
  rw [decodeControlMessage, hbody]
  change (Cursor.all _ _) = _
  rw [Cursor.all, bind_error (readMessage_ipRequestV7 _)]
  rfl

/-! ## A claimed count -/

theorem readString_lt {bs rest : Bytes} (h : readString what bs = .ok (s, rest)) :
    rest.length < bs.length := by
  obtain ⟨length, left, hleb, h⟩ := Cursor.bind_eq_ok.mp h
  obtain ⟨field, left', hfield, hpure⟩ := Cursor.bind_eq_ok.mp h
  obtain ⟨w, rfl, hw, -⟩ := takeLeb128_eq_ok.mp hleb
  obtain ⟨rfl, -⟩ := slice_eq_ok.mp hfield
  obtain ⟨-, rfl⟩ := pure_eq_ok.mp hpure
  have hpos : 0 < w.length := by
    cases w with
    | nil => exact hw.1.elim
    | cons b w => exact Nat.succ_pos _
  simp only [List.length_append]
  omega

/-- Every round of the loop but the last takes an octet. -/
theorem specLoop_le (count : Nat) (bs : Bytes) : (specLoop count bs).1 ≤ bs.length + 1 := by
  induction count generalizing bs with
  | zero => exact Nat.zero_le _
  | succ count ih =>
    unfold specLoop
    split
    · exact Nat.le_add_left 1 _
    · next spec rest hread =>
      have hlt := readString_lt hread
      have hle := ih rest
      dsimp only
      omega

theorem delimits_readClaimedCount : Delimits readClaimedCount := by
  refine delimits_takeLeb128.bind fun variant => ?_
  split
  · refine delimits_readAddresses.bind fun assign => ?_
    exact delimits_readDaitaCount.bind fun count => delimits_pure _
  · exact delimits_pure 0

theorem specIterations_le (plaintext : Uint8Array) :
    specIterations plaintext ≤ plaintext.1.length := by
  unfold specIterations
  split
  · exact Nat.zero_le _
  · next body hbody =>
    rw [controlBody_eq_ok.mp hbody, List.length_cons, List.length_cons]
    split
    · exact Nat.zero_le _
    · next count rest hcount =>
      obtain ⟨x, rfl, -⟩ := delimits_readClaimedCount _ _ _ hcount
      have hle := specLoop_le count rest
      rw [List.length_append]
      omega

theorem decodeControlMessage_spec :
    (∀ (m : ControlMessage) (b : Uint8Array), m.InRange → b.1 = m.postcard →
      decodeControlMessage b = .ok m) ∧
    (∀ (b c : Uint8Array) (m n : ControlMessage), decodeControlMessage b = .ok m →
      decodeControlMessage c = .ok n → b.1 <+: c.1 → b = c) ∧
    (∀ (params : IpRequestV7) (b : Uint8Array), encodeIpRequestV7 params = .ok b →
      ∃ e, decodeControlMessage b = .error e) ∧
    ∀ b : Uint8Array, specIterations b ≤ b.1.length :=
  ⟨fun _ _ h heq => decodeControlMessage_postcard h heq,
    fun _ _ _ _ hb hc hpre => eq_of_prefixed hb hc hpre,
    fun _ _ h => ⟨_, decodeControlMessage_ipRequestV7 h⟩, specIterations_le⟩

def drainingMessage : Uint8Array := ⟨[0xC0, 3, 4, 0x80, 1, 7], by simp [MAX_EXACT]⟩

/-- An exit that drains at second 128. -/
theorem decodeControlMessage_spec_draining :
    decodeControlMessage drainingMessage = .ok (.exitDraining 128 7) := by
  have hbytes : drainingMessage.1 = (ControlMessage.exitDraining 128 7).postcard := by
    decide +kernel
  exact decodeControlMessage_spec.1 _ _ ⟨by decide, by decide⟩ hbytes

/-- A count that is claimed is not believed: no specification follows it. -/
example : specIterations ⟨[0xC0, 3, 1, 10, 0, 0, 2, 16, 10, 0, 0, 1, 0, 64, 0, 1, 0xFF, 0xFF, 3],
    by simp [MAX_EXACT]⟩ = 1 := by decide +kernel

/-- The shortest request is one the encoder writes. -/
example : (encodeIpRequestV7 { tokens := [List.replicate SESSION_TOKEN_LEN 7] }).isOk = true := by
  decide +kernel

end WarrenSdk.Core.Control
