import WarrenSdk.Extension.Messages
import WarrenSdk.NativeHost.Serve

/-!
# What the extension reads of the helper's messages

The messages of `protocol.rs` as JSON, through `parseHostMessage` of `protocol.ts`. The helper
answers a request by an answer of its type, or by an error (`Answers`), and the extension reads it
so (`received_answer`). An answer that is too long for its frame is an error where it comes in.
-/

namespace WarrenSdk.Link
open Lib Extension
open NativeHost (Message Spelling WireValue Wire.Value Wire.toVec)

/-! ## Documents -/

section
variable {ν : Type} (number : ν → Rat)

mutual

/-- What `JSON.parse` makes of a text, given what it makes of the numbers in it. -/
def document : Wire.Value ν → Json
  | .null => .null
  | .bool b => .bool b
  | .number n => .number (number n)
  | .string s => .text s
  | .array items => .array (itemDocuments items)
  | .object members => .object (memberDocuments members)

def itemDocuments : List (Wire.Value ν) → List Json
  | [] => []
  | item :: items => document item :: itemDocuments items

def memberDocuments : List (String × Wire.Value ν) → List (Utf16 × Json)
  | [] => []
  | (key, value) :: members => (.ofString key, document value) :: memberDocuments members

end

variable {number : ν → Rat} {members fields : List (String × Wire.Value ν)} {key s : String}

theorem member_document (key : String) : Json.member (memberDocuments number members) key =
    ((Wire.Value.object members).get key).map (document number) := by
  induction members with
  | nil => rfl
  | cons m members ih =>
    obtain ⟨name, value⟩ := m
    rw [memberDocuments, Json.member, Wire.Value.get, List.find?_cons, List.find?_cons]
    by_cases h : name = key
    · rw [decide_eq_true (congrArg Utf16.ofString h), decide_eq_true h]
      rfl
    · rw [decide_eq_false fun heq => h (Utf16.ofString_inj.mp heq), decide_eq_false h]
      exact ih

theorem textMember_document (h : (Wire.Value.object members).get key = some (.string s)) :
    textMember (memberDocuments number members) key = some s := by
  rw [textMember, member_document, h]
  exact Serde.string_ofString s

theorem textMember_absent (h : (Wire.Value.object members).get key = none) :
    textMember (memberDocuments number members) key = none := by
  rw [textMember, member_document, h]
  rfl

theorem objectMember_document (h : (Wire.Value.object members).get key = some (.object fields)) :
    objectMember (memberDocuments number members) key = some (memberDocuments number fields) := by
  rw [objectMember, member_document, h]
  rfl

end

/-! ## What goes over -/

/-- What lies between the two ends. -/
structure Wires where
  /-- What the helper's crates read. -/
  crates : NativeHost.Crates
  /-- What the browser writes of a message. -/
  write : Json → Bytes
  /-- How the helper writes numbers, and which ones the browser reads. -/
  spelling : Spelling
  number : spelling.Number → Rat

/-- What the writer of the helper makes of a message: too long an answer is refused. -/
def written (N : Spelling) (m : Message) : Option (WireValue N) :=
  if (Wire.toVec N.toNumbers (m.toJson N)).length < NativeHost.Wire.MAX_OUTBOUND_BYTES then
    some (m.toJson N)
  else ((m.toJson N).get "id").map NativeHost.Wire.refusal

/-- What is on the way to the browser is the frame that the helper sends. -/
theorem frame_eq_written (N : Spelling) (m : Message) : m.frame N = (written N m).bind fun value =>
    (NativeHost.Wire.encodeFrame N.toNumbers value).toOption := by
  rw [Message.frame, NativeHost.Wire.encodeOrRefuse, written]
  by_cases h : (Wire.toVec N.toNumbers (m.toJson N)).length < NativeHost.Wire.MAX_OUTBOUND_BYTES
  · rw [if_pos h, NativeHost.Wire.encodeFrame_of_lt h, Option.bind_some,
      NativeHost.Wire.encodeFrame_of_lt h]
    rfl
  · have herror : NativeHost.Wire.encodeFrame N.toNumbers (m.toJson N) =
        .error (.tooLarge (Wire.toVec N.toNumbers (m.toJson N)).length) :=
      if_pos (Nat.not_lt.mp h)
    rw [if_neg h, herror]
    cases (m.toJson N).get "id" <;> rfl

/-- The message that the client gets. -/
def Wires.received (W : Wires) (m : Message) : Option HostMessage :=
  (written W.spelling m).bind fun value => parseHostMessage (document W.number value)

/-- The numbers up to which a number is a natural number of its own. -/
def MAX_EXACT_ID : Nat := 2 ^ 53

/-- What the two ends rely on: the helper reads the requests that the browser writes, and the
browser the natural numbers that the helper writes, the small ones exactly. -/
structure Wires.Faithful (W : Wires) : Prop where
  read_write : ∀ id (body : HostRequest),
    W.crates.read (W.write (body.toJson id)) = some (body.toJson id)
  number_small : ∀ {n : Nat}, n < MAX_EXACT_ID → W.number (W.spelling.ofRat n) = n
  number_natural : ∀ n : Nat, ∃ k : Nat, W.number (W.spelling.ofRat n) = k

/-- How the helper answers a request. -/
inductive Answers (m : Nat) : HostRequest → Message → Prop
  | hello (channel : ProductChannel) :
    Answers m (.hello EXTENSION_PROTOCOL_VERSION channel) (.hello (.number m))
  | status (state : NativeHost.HostState) (endpoints : Option NativeHost.Endpoints)
      (exit : Option NativeHost.TunnelExit) (viaSystem : Bool) :
    Answers m .status (.status (.number m) state endpoints exit viaSystem)
  | connect {endpoints : NativeHost.Endpoints} {username password : String}
      (hname : username ≠ "") (hpassword : password ≠ "")
      (hhttp : httpProxy = some true → endpoints.http.isSome = true)
      (exit : Option NativeHost.TunnelExit) :
    Answers m (.connect mnemonic selector entrySelector httpProxy daita device)
      (.connect (.number m) endpoints username password exit)
  | disconnect : Answers m .disconnect (.disconnect (.number m))
  | exits (locations : List NativeHost.ExitLocation) :
    Answers m .exits (.exits (.number m) locations)
  | account (mnemonic : String) (expiresAt : Nat) :
    Answers m (.account mnemonic) (.account (.number m) expiresAt)
  | error {body : HostRequest} (h : body.type ≠ "hello") (code message : String) :
    Answers m body (.error (.number m) code message)

/-- How a client that asked takes an answer for its own. -/
inductive Fits : HostRequest → ResponseBody → Prop
  | hello (protocol : Nat) (channel : ProductChannel) (datapath : Option HostDatapath) :
    Fits (.hello protocol channel) (.hello EXTENSION_PROTOCOL_VERSION datapath)
  | status (state : ExtensionVpnState) (endpoints : Option ExtensionEndpoints) (viaSystem : Bool)
      (exit : Option RawExit) : Fits .status (.status state endpoints viaSystem exit)
  | connect {endpoints : ExtensionEndpoints} {rawAuth : Option RawAuth} {auth : ExtensionProxyAuth}
      (hauth : listenerAuth rawAuth = some auth)
      (hhttp : httpProxy = some true → endpoints.http.isSome = true) (exit : Option RawExit) :
    Fits (.connect mnemonic selector entrySelector httpProxy daita device)
      (.connect endpoints rawAuth exit)
  | disconnect : Fits .disconnect .disconnect
  | exits (locations : List ExtensionExitLocation) : Fits .exits (.exits locations)
  | account (mnemonic : String) (expiresAt : Nat) : Fits (.account mnemonic) (.account expiresAt)

/-! ## Reading an answer -/

section
variable {ν : Type} {number : ν → Rat} {members : List (String × Wire.Value ν)} {n : ν} {id : Nat}

theorem parse_document (htype : textMember (memberDocuments number members) "type" ≠ some "state")
    (hid : (Wire.Value.object members).get "id" = some (.number n)) (hn : number n = id)
    (hok : (Wire.Value.object members).get "ok" = some (.bool ok)) :
    parseHostMessage (document number (.object members)) =
      some (.response (readResponse (memberDocuments number members) id ok)) := by
  rw [document, parseHostMessage]
  split
  · next heq _ => exact absurd heq htype
  · rw [member_document, member_document, hid, hok]
    show (Json.nat? (.number (number n))).map _ = _
    rw [hn, Json.nat?_natCast]
    rfl

/-- An answer with a type is read as one of that type. -/
theorem parse_answer {type : String} (hne : type ≠ "state")
    (htype : (Wire.Value.object members).get "type" = some (.string type))
    (hid : (Wire.Value.object members).get "id" = some (.number n)) (hn : number n = id)
    (hok : (Wire.Value.object members).get "ok" = some (.bool true)) :
    parseHostMessage (document number (.object members)) =
      some (.response (.ok id (readBody (memberDocuments number members)))) := by
  refine parse_document (fun heq => ?_) hid hn hok
  rw [textMember_document htype] at heq
  exact hne (Option.some.inj heq)

theorem parse_error {code message : String}
    (htype : (Wire.Value.object members).get "type" = none)
    (hid : (Wire.Value.object members).get "id" = some (.number n)) (hn : number n = id)
    (hok : (Wire.Value.object members).get "ok" = some (.bool false))
    (hcode : (Wire.Value.object members).get "code" = some (.string code))
    (hmessage : (Wire.Value.object members).get "message" = some (.string message)) :
    parseHostMessage (document number (.object members)) =
      some (.response (.error id code message)) := by
  refine (parse_document (fun heq => ?_) hid hn hok).trans ?_
  · rw [textMember_absent htype] at heq
    cases heq
  · rw [readResponse, if_neg Bool.false_ne_true, textMember_document hcode,
      textMember_document hmessage]
    rfl

end

section
variable {N : Spelling} {number : N.Number → Rat}

def endpointsOf (e : NativeHost.Endpoints) : ExtensionEndpoints where
  socks5 := e.socks5
  http := e.http

theorem readEndpoints_document (e : NativeHost.Endpoints) : ∃ fields,
    e.toJson N = .object fields ∧
      readEndpoints (memberDocuments number fields) = some (endpointsOf e) := by
  obtain ⟨socks5, http⟩ := e
  refine ⟨_, rfl, ?_⟩
  cases http with
  | none =>
    rw [readEndpoints, textMember_document (s := socks5) rfl, textMember_absent rfl]
    rfl
  | some http =>
    rw [readEndpoints, textMember_document (s := socks5) rfl, textMember_document (s := http) rfl]
    rfl

def location (l : NativeHost.ExitLocation) : ExtensionExitLocation where
  country := l.country
  city := l.city
  active := l.active

theorem readLocation_document (l : NativeHost.ExitLocation) :
    readLocation (document number (l.toJson N)) = some (location l) := by
  show readLocation (.object (memberDocuments number _)) = _
  rw [readLocation, textMember_document (s := l.country) rfl, textMember_document (s := l.city) rfl,
    member_document]
  rfl

theorem readLocations_document (locations : List NativeHost.ExitLocation) :
    Serde.vec readLocation (document number (.array (locations.map (·.toJson N)))) =
      some (locations.map location) := by
  rw [document, Serde.vec]
  induction locations with
  | nil => rfl
  | cons l locations ih =>
    rw [List.map_cons, itemDocuments, List.mapM_cons, readLocation_document, ih]
    rfl

theorem ofString?_asStr (state : NativeHost.HostState) :
    ∃ vpnState, ExtensionVpnState.ofString? state.asStr = some vpnState := by
  cases state <;> exact ⟨_, rfl⟩

end

/-- The endpoints and the credentials that an answer brings are those of the message. -/
def Conveys (id : Nat) (m : Message) : ResponseBody → Prop
  | .connect endpoints auth _ => ∃ e username password exit,
    m = .connect (.number id) e username password exit ∧ endpoints = endpointsOf e ∧
      auth = some { username := some username, password := some password }
  | _ => True

/-- The client takes a message of the helper's for an answer to its own request, or for an error. -/
inductive Reads (id : Nat) (body : HostRequest) (m : Message) : Option HostMessage → Prop
  | answer (h : Fits body b) (hm : Conveys id m b) : Reads id body m (some (.response (.ok id b)))
  | error (h : body.type ≠ "hello") (code message : String) :
    Reads id body m (some (.response (.error id code message)))

section
variable {N : Spelling} {number : N.Number → Rat} {members : List (String × WireValue N)}

theorem readBody_hello (hnumber : number (N.ofRat NativeHost.PROTOCOL_VERSION) =
      (NativeHost.PROTOCOL_VERSION : Rat))
    (htype : (Wire.Value.object members).get "type" = some (.string "hello"))
    (hprotocol : (Wire.Value.object members).get "protocol" =
      some (.number (N.ofRat NativeHost.PROTOCOL_VERSION)))
    (hdatapath : (Wire.Value.object members).get "datapath" = some (.string "ready")) :
    readBody (memberDocuments number members) =
      .hello EXTENSION_PROTOCOL_VERSION (some .ready) := by
  rw [readBody, textMember_document htype]
  show (readHello _).getD .other = _
  rw [readHello, textMember_document hdatapath, member_document, hprotocol, Option.map_some,
    document, hnumber, Option.bind_some, Json.nat?_natCast]
  rfl

theorem readBody_status {state : NativeHost.HostState}
    (htype : (Wire.Value.object members).get "type" = some (.string "status"))
    (hstate : (Wire.Value.object members).get "state" = some (.string state.asStr)) :
    ∃ vpnState endpoints viaSystem exit, readBody (memberDocuments number members) =
      .status vpnState endpoints viaSystem exit := by
  obtain ⟨vpnState, hvpn⟩ := ofString?_asStr state
  have hread : ∃ endpoints viaSystem exit, readStatus (memberDocuments number members) =
      some (.status vpnState endpoints viaSystem exit) := by
    rw [readStatus, textMember_document hstate, Option.bind_some, hvpn]
    exact ⟨_, _, _, rfl⟩
  obtain ⟨endpoints, viaSystem, exit, hread⟩ := hread
  refine ⟨vpnState, endpoints, viaSystem, exit, ?_⟩
  rw [readBody, textMember_document htype]
  show (readStatus _).getD .other = _
  rw [hread]
  rfl

theorem readBody_connect {endpoints : NativeHost.Endpoints} {username password : String}
    (htype : (Wire.Value.object members).get "type" = some (.string "connect"))
    (hendpoints : (Wire.Value.object members).get "endpoints" = some (endpoints.toJson N))
    (hauth : (Wire.Value.object members).get "auth" = some (.object
      [("password", .string password), ("username", .string username)])) :
    ∃ exit, readBody (memberDocuments number members) =
      .connect (endpointsOf endpoints)
        (some { username := some username, password := some password }) exit := by
  have hdocument : ∃ fields, endpoints.toJson N = .object fields ∧
      readEndpoints (memberDocuments number fields) = some (endpointsOf endpoints) :=
    readEndpoints_document endpoints
  obtain ⟨fields, hfields, hread⟩ := hdocument
  rw [hfields] at hendpoints
  have hreadAuth : readAuth (memberDocuments number
      [("password", .string password), ("username", .string username)]) =
        { username := some username, password := some password } := by
    rw [readAuth, textMember_document (s := username) rfl,
      textMember_document (s := password) rfl]
  refine ⟨(objectMember (memberDocuments number members) "exit").map readExit, ?_⟩
  rw [readBody, textMember_document htype]
  show (readConnect _).getD .other = _
  rw [readConnect, objectMember_document hendpoints, objectMember_document hauth, Option.bind_some,
    hread, Option.map_some, hreadAuth]
  rfl

theorem readBody_exits {locations : List NativeHost.ExitLocation}
    (htype : (Wire.Value.object members).get "type" = some (.string "exits"))
    (hlocations : (Wire.Value.object members).get "locations" =
      some (.array (locations.map (·.toJson N)))) :
    readBody (memberDocuments number members) = .exits (locations.map location) := by
  rw [readBody, textMember_document htype]
  show (readExits _).getD .other = _
  rw [readExits, member_document, hlocations, Option.map_some]
  have hread : Serde.vec readLocation (document number (.array (locations.map (·.toJson N)))) =
      some (locations.map location) := readLocations_document locations
  simp only [Option.bind_eq_bind, Option.bind_some, hread]
  rfl

theorem readBody_account {expiresAt k : Nat} (hnumber : number (N.ofRat expiresAt) = k)
    (htype : (Wire.Value.object members).get "type" = some (.string "account"))
    (hexpiresAt : (Wire.Value.object members).get "expiresAt" =
      some (.number (N.ofRat expiresAt))) :
    readBody (memberDocuments number members) = .account k := by
  rw [readBody, textMember_document htype]
  show (readAccount _).getD .other = _
  rw [readAccount, member_document, hexpiresAt, Option.map_some, document, hnumber,
    Option.bind_some, Json.nat?_natCast]
  rfl

end

variable {W : Wires} {id : Nat} {body : HostRequest} {m : Message}

/-- An answer of the helper's is read for what it is. -/
theorem Answers.parse (hW : W.Faithful) (hid : id < MAX_EXACT_ID) (h : Answers id body m) :
    Reads id body m (parseHostMessage (document W.number (m.toJson W.spelling))) := by
  have hn : W.number (W.spelling.ofRat (id : Rat)) = id := hW.number_small hid
  cases h with
  | hello channel =>
    rw [Message.toJson, parse_answer (by decide) rfl rfl hn rfl,
      readBody_hello (hW.number_small (by decide)) rfl rfl rfl]
    exact .answer (.hello _ channel _) trivial
  | status state endpoints exit viaSystem =>
    have hparts : ∃ members,
        (Message.status (.number id) state endpoints exit viaSystem).toJson W.spelling =
          .object members ∧
        (Wire.Value.object members).get "type" = some (.string "status") ∧
        (Wire.Value.object members).get "id" = some (.number (W.spelling.ofRat id)) ∧
        (Wire.Value.object members).get "ok" = some (.bool true) ∧
        (Wire.Value.object members).get "state" = some (.string state.asStr) := by
      refine ⟨_, rfl, ?_⟩
      cases endpoints <;> cases exit <;> exact ⟨rfl, rfl, rfl, rfl⟩
    obtain ⟨members, hm, htype, hid, hok, hstate⟩ := hparts
    obtain ⟨vpnState, endpoints, viaSystem, exit, hbody⟩ := readBody_status htype hstate
    rw [hm, parse_answer (by decide) htype hid hn hok, hbody]
    exact .answer (.status vpnState endpoints viaSystem exit) trivial
  | @connect _ _ _ _ _ _ endpoints username password hname hpassword hhttp exit =>
    have hparts : ∃ members,
        (Message.connect (.number id) endpoints username password exit).toJson W.spelling =
          .object members ∧
        (Wire.Value.object members).get "type" = some (.string "connect") ∧
        (Wire.Value.object members).get "id" = some (.number (W.spelling.ofRat id)) ∧
        (Wire.Value.object members).get "ok" = some (.bool true) ∧
        (Wire.Value.object members).get "endpoints" = some (endpoints.toJson W.spelling) ∧
        (Wire.Value.object members).get "auth" = some (.object
          [("password", .string password), ("username", .string username)]) := by
      refine ⟨_, rfl, ?_⟩
      cases exit <;> exact ⟨rfl, rfl, rfl, rfl, rfl⟩
    obtain ⟨members, hm, htype, hid, hok, hendpoints, hauth⟩ := hparts
    obtain ⟨exit, hbody⟩ := readBody_connect htype hendpoints hauth
    rw [hm, parse_answer (by decide) htype hid hn hok, hbody]
    have hgranted : listenerAuth (some { username := some username, password := some password }) =
        some { username, password } := by
      simp [listenerAuth, hname, hpassword]
    exact .answer (.connect hgranted hhttp _) ⟨endpoints, username, password, _, rfl, rfl, rfl⟩
  | disconnect =>
    rw [Message.toJson, parse_answer (by decide) rfl rfl hn rfl, readBody, textMember_document rfl]
    exact .answer .disconnect trivial
  | exits locations =>
    rw [Message.toJson, parse_answer (by decide) rfl rfl hn rfl, readBody_exits rfl rfl]
    exact .answer (.exits _) trivial
  | account mnemonic expiresAt =>
    obtain ⟨k, hk⟩ := hW.number_natural expiresAt
    rw [Message.toJson, parse_answer (by decide) rfl rfl hn rfl, readBody_account hk rfl rfl]
    exact .answer (.account mnemonic k) trivial
  | error hhello code message =>
    rw [Message.toJson, parse_error rfl rfl hn rfl rfl rfl]
    exact .error hhello code message

/-- A hello has its frame, whatever the numbers in it. -/
theorem length_hello (N : Spelling) (id : Nat) :
    (Wire.toVec N.toNumbers ((Message.hello (.number id)).toJson N)).length <
      NativeHost.Wire.MAX_OUTBOUND_BYTES := by
  have hid := N.length_text (N.ofRat (id : Rat))
  have hversion := N.length_text (N.ofRat (NativeHost.PROTOCOL_VERSION : Rat))
  have hdatapath : (NativeHost.Wire.quote "datapath").length +
      (NativeHost.Wire.quote "ready").length = 17 := by decide +kernel
  have hkeys : (NativeHost.Wire.quote "id").length + (NativeHost.Wire.quote "ok").length +
      (NativeHost.Wire.quote "protocol").length + (NativeHost.Wire.quote "type").length = 24 := by
    decide +kernel
  have hvalues : (NativeHost.Wire.utf8 "true").length + (NativeHost.Wire.quote "hello").length =
      11 := by decide +kernel
  have hcap : NativeHost.Wire.MAX_OUTBOUND_BYTES = 1048576 := rfl
  simp only [Message.toJson, NativeHost.Value.toJson, NativeHost.Wire.toVec,
    NativeHost.Wire.moreMembers, List.length_append, List.length_cons, List.length_nil]
  omega

theorem Answers.get_id (h : Answers id body m) (N : Spelling) :
    (m.toJson N).get "id" = some (.number (N.ofRat id)) := by
  cases h with
  | status state endpoints exit viaSystem => cases endpoints <;> cases exit <;> rfl
  | connect hname hpassword hhttp exit => cases exit <;> rfl
  | hello | disconnect | exits | account | error => rfl

/-- What the client gets of an answer, which may be refused for its length. -/
theorem Answers.received (hW : W.Faithful) (hid : id < MAX_EXACT_ID) (h : Answers id body m) :
    Reads id body m (W.received m) := by
  rw [Wires.received, written]
  split
  · exact h.parse hW hid
  · next hlong =>
    have hhello : body.type ≠ "hello" := by
      intro heq
      cases h with
      | hello channel => exact hlong (length_hello W.spelling id)
      | error hne => exact hne heq
      | _ => simp [HostRequest.type] at heq
    rw [h.get_id, Option.map_some, Option.bind_some]
    show Reads id body m (parseHostMessage (document W.number (NativeHost.Wire.refusal _)))
    rw [NativeHost.Wire.refusal, parse_error rfl rfl (hW.number_small hid) rfl rfl rfl]
    exact .error hhello _ _

end WarrenSdk.Link
