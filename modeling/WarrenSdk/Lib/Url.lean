import Mathlib.Data.List.TakeDrop
import WarrenSdk.Lib.Hex
import WarrenSdk.Lib.Json

/-!
# Addresses in URLs

The literals of IP addresses, and the authority of a URL of a special scheme: what follows its two
slashes. A host that is made as literals are is read whole, with its port and nothing before or
after it (`readAuthority_host`).
-/

namespace WarrenSdk.Lib.Url
open Json (natText ofDigits)

/-! ## Literals of IPv4 -/

/-- Four numbers of an octet in decimal. -/
def IsIpv4Literal (s : Utf16) : Prop := ∃ a b c d : Nat, a ≤ 255 ∧ b ≤ 255 ∧ c ≤ 255 ∧ d ≤ 255 ∧
  s = List.intercalate [0x2E] [natText a, natText b, natText c, natText d]

def isOctetText (p : Utf16) : Bool := ofDigits p ≤ 255 && natText (ofDigits p) = p

def isIpv4Literal (s : Utf16) : Bool :=
  let parts := s.splitOn 0x2E
  parts.length = 4 && parts.all isOctetText

theorem isOctetText_iff : isOctetText p = true ↔ ∃ n ≤ 255, p = natText n := by
  rw [isOctetText, Bool.and_eq_true, decide_eq_true_iff, decide_eq_true_iff]
  constructor
  · rintro ⟨hle, htext⟩
    exact ⟨ofDigits p, hle, htext.symm⟩
  · rintro ⟨n, hle, rfl⟩
    rw [(Json.natText_decimal n).value]
    exact ⟨hle, rfl⟩

theorem dot_not_mem_natText (n : Nat) : 0x2E ∉ natText n := fun h =>
  absurd ((Json.natText_decimal n).digits _ h) (by decide)

@[simp] theorem isIpv4Literal_iff : isIpv4Literal s = true ↔ IsIpv4Literal s := by
  rw [isIpv4Literal, Bool.and_eq_true, decide_eq_true_iff, List.all_eq_true]
  constructor
  · rintro ⟨hlen, hall⟩
    match hparts : s.splitOn 0x2E, hlen with
    | [p, q, r, t], _ =>
    rw [hparts] at hall
    obtain ⟨a, ha, rfl⟩ := isOctetText_iff.mp (hall p (by simp))
    obtain ⟨b, hb, rfl⟩ := isOctetText_iff.mp (hall q (by simp))
    obtain ⟨c, hc, rfl⟩ := isOctetText_iff.mp (hall r (by simp))
    obtain ⟨d, hd, rfl⟩ := isOctetText_iff.mp (hall t (by simp))
    refine ⟨a, b, c, d, ha, hb, hc, hd, ?_⟩
    rw [← hparts, List.intercalate_splitOn]
  · rintro ⟨a, b, c, d, ha, hb, hc, hd, rfl⟩
    have hsplit : (List.intercalate [0x2E]
      [natText a, natText b, natText c, natText d]).splitOn 0x2E =
        [natText a, natText b, natText c, natText d] :=
      List.splitOn_intercalate 0x2E (by simp [dot_not_mem_natText]) (by simp)
    rw [hsplit]
    refine ⟨rfl, fun p hp => ?_⟩
    simp only [List.mem_cons, List.not_mem_nil, or_false] at hp
    rcases hp with rfl | rfl | rfl | rfl
    exacts [isOctetText_iff.mpr ⟨a, ha, rfl⟩, isOctetText_iff.mpr ⟨b, hb, rfl⟩,
      isOctetText_iff.mpr ⟨c, hc, rfl⟩, isOctetText_iff.mpr ⟨d, hd, rfl⟩]

/-! ## Literals of IPv6 -/

/-- One to four hexadecimal digits. -/
def isPiece (p : Utf16) : Bool := p ≠ [] && p.length ≤ 4 && p.all Hex.isDigit

/-- How many pieces some parts are: an IPv4 literal at the end is two. -/
def countPieces : List Utf16 → Option Nat
  | [] => some 0
  | [p] => if isPiece p then some 1 else if isIpv4Literal p then some 2 else none
  | p :: q :: ps => if isPiece p then (countPieces (q :: ps)).map (· + 1) else none

/-- The parts between colons. -/
def parts (s : Utf16) : List Utf16 := if s = [] then [] else s.splitOn 0x3A

/-- A pair of colons at `i` that stands for at least one piece. -/
def isCompressed (s : Utf16) (i : Nat) : Bool :=
  (s.drop i).take 2 = [0x3A, 0x3A] && (parts (s.take i)).all isPiece &&
    (countPieces (parts (s.drop (i + 2)))).any fun n => (parts (s.take i)).length + n ≤ 7

/-- Eight pieces, or fewer around a pair of colons. -/
def isIpv6Literal (s : Utf16) : Bool :=
  countPieces (parts s) = some 8 || (List.range s.length).any (isCompressed s)

/-- The units of literals. -/
def isLiteralUnit (u : UInt16) : Bool := Hex.isDigit u || u = 0x3A || u = 0x2E

theorem append_cons_inj {x : α} {s t u v : List α} (hs : x ∉ s) (ht : x ∉ t)
    (h : s ++ x :: u = t ++ x :: v) : s = t ∧ u = v := by
  induction s generalizing t with
  | nil =>
    cases t with
    | nil => exact ⟨rfl, (List.cons.inj h).2⟩
    | cons y t => exact absurd ((List.cons.inj h).1 ▸ List.mem_cons_self) ht
  | cons y s ih =>
    obtain ⟨hxy, hs⟩ := not_or.mp (mt List.mem_cons.mpr hs)
    cases t with
    | nil => exact absurd (List.cons.inj h).1.symm hxy
    | cons z t =>
      obtain ⟨rfl, htail⟩ := List.cons.inj h
      obtain ⟨rfl, huv⟩ := ih hs (mt (List.mem_cons_of_mem _) ht) htail
      exact ⟨rfl, huv⟩

theorem mem_intercalate {x u : α} {ls : List (List α)} (h : u ∈ List.intercalate [x] ls) :
    u = x ∨ ∃ l ∈ ls, u ∈ l := by
  induction ls with
  | nil => cases h
  | cons l ls ih =>
    cases ls with
    | nil =>
      rw [List.intercalate_singleton] at h
      exact .inr ⟨l, List.mem_cons_self, h⟩
    | cons l' ls =>
      rw [List.intercalate_cons_cons, List.mem_append, List.mem_append, List.mem_singleton] at h
      rcases h with (h | h) | h
      · exact .inr ⟨l, List.mem_cons_self, h⟩
      · exact .inl h
      · exact (ih h).imp_right fun ⟨m, hm, hu⟩ => ⟨m, List.mem_cons_of_mem _ hm, hu⟩

theorem mem_splitOn [DecidableEq α] {x u : α} {s : List α} (h : u ∈ s) :
    u = x ∨ ∃ p ∈ s.splitOn x, u ∈ p := by
  have hs : List.intercalate [x] (s.splitOn x) = s := List.intercalate_splitOn x
  rw [← hs] at h
  exact mem_intercalate h

theorem isLiteralUnit_of_digit (h : Json.isDigit u = true) : isLiteralUnit u = true := by
  have hn : u.toNat < 0x3A := by
    simp only [Json.isDigit, Bool.and_eq_true, decide_eq_true_eq, UInt16.le_iff_toNat_le] at h
    exact Nat.lt_succ_of_le h.2
  have hall : ∀ n < 0x3A, Json.isDigit (.ofNat n) = true → isLiteralUnit (.ofNat n) = true := by
    decide
  have hu := hall u.toNat hn
  rw [UInt16.ofNat_toNat] at hu
  exact hu h

theorem ipv4_units (h : IsIpv4Literal s) (hu : u ∈ s) : Json.isDigit u = true ∨ u = 0x2E := by
  obtain ⟨a, b, c, d, -, -, -, -, rfl⟩ := h
  rcases mem_intercalate hu with rfl | ⟨p, hp, hu⟩
  · exact .inr rfl
  · simp only [List.mem_cons, List.not_mem_nil, or_false] at hp
    rcases hp with rfl | rfl | rfl | rfl <;> exact .inl ((Json.natText_decimal _).digits u hu)

theorem piece_units (h : isPiece p = true) (hu : u ∈ p) : isLiteralUnit u = true := by
  rw [isPiece, Bool.and_eq_true, List.all_eq_true] at h
  rw [isLiteralUnit, h.2 u hu, Bool.true_or, Bool.true_or]

theorem countPieces_units {ps : List Utf16} (h : countPieces ps = some n) (hp : p ∈ ps)
    (hu : u ∈ p) : isLiteralUnit u = true := by
  induction ps using countPieces.induct generalizing n with
  | case1 => cases hp
  | case2 q hq =>
    cases List.mem_singleton.mp hp
    exact piece_units hq hu
  | case3 q hq hv4 =>
    cases List.mem_singleton.mp hp
    rcases ipv4_units (isIpv4Literal_iff.mp hv4) hu with hdigit | rfl
    · exact isLiteralUnit_of_digit hdigit
    · decide
  | case4 q hq hv4 => simp [countPieces, hq, hv4] at h
  | case5 q r ps hq ih =>
    rw [countPieces, if_pos hq] at h
    obtain ⟨m, hm, -⟩ := Option.map_eq_some_iff.mp h
    rcases List.mem_cons.mp hp with rfl | hp
    · exact piece_units hq hu
    · exact ih hm hp
  | case6 q r ps hq => simp [countPieces, hq] at h

/-- What stands in a text stands in one of its parts, or is a colon. -/
theorem units_of_parts (h : ∀ p ∈ parts s, ∀ u ∈ p, isLiteralUnit u = true) (hu : u ∈ s) :
    isLiteralUnit u = true := by
  unfold parts at h
  split at h
  · next hs => rw [hs] at hu; cases hu
  · rcases mem_splitOn (x := 0x3A) hu with rfl | ⟨p, hp, hup⟩
    · decide
    · exact h p hp u hup

theorem ipv6_units (h : isIpv6Literal s = true) (hu : u ∈ s) : isLiteralUnit u = true := by
  rw [isIpv6Literal, Bool.or_eq_true, decide_eq_true_iff] at h
  rcases h with h | h
  · exact units_of_parts (fun p hp u hu => countPieces_units h hp hu) hu
  · obtain ⟨i, -, hi⟩ := List.any_eq_true.mp h
    rw [isCompressed, Bool.and_eq_true, Bool.and_eq_true, decide_eq_true_iff] at hi
    obtain ⟨⟨hcolons, hleft⟩, hright⟩ := hi
    obtain ⟨n, hn, -⟩ := (Option.any_eq_true _ _).mp hright
    have hsplit : s = s.take i ++ (0x3A :: 0x3A :: s.drop (i + 2)) := by
      conv_lhs => rw [← List.take_append_drop i s, ← List.take_append_drop 2 (s.drop i), hcolons]
      simp
    rw [hsplit, List.mem_append, List.mem_cons, List.mem_cons] at hu
    rcases hu with hu | rfl | rfl | hu
    · exact units_of_parts (fun p hp u hu => piece_units (List.all_eq_true.mp hleft p hp) hu) hu
    · decide
    · decide
    · exact units_of_parts (fun p hp u hu => countPieces_units hn hp hu) hu

/-! ## Reading an authority -/

/-- What a URL says before its path: a name and password, the host, the port if there is one, and
what follows. -/
structure Authority where
  userinfo : Option Utf16
  host : Utf16
  port : Option Nat
  rest : Utf16
deriving DecidableEq

/-- Tabs and line ends are dropped from a URL. -/
def isDropped (u : UInt16) : Bool := u = 0x09 || u = 0x0A || u = 0x0D

/-- `/`, `?`, `#` and the backslash end the authority. -/
def isEnd (u : UInt16) : Bool := u = 0x2F || u = 0x3F || u = 0x23 || u = 0x5C

/-- What stands before the last at sign, and what after it. -/
def splitUserinfo : Utf16 → Option Utf16 × Utf16
  | [] => (none, [])
  | u :: s =>
    match splitUserinfo s with
    | (some userinfo, host) => (some (u :: userinfo), host)
    | (none, host) => if u = 0x40 then (some [], host) else (none, u :: host)

/-- The host ends at the first colon outside brackets. -/
def splitPort (insideBrackets : Bool) : Utf16 → Utf16 × Option Utf16
  | [] => ([], none)
  | u :: s =>
    if u = 0x3A ∧ insideBrackets = false then ([], some s)
    else
      let (host, port) := splitPort (u = 0x5B || insideBrackets && u ≠ 0x5D) s
      (u :: host, port)

/-- A text after the slashes of a URL; `none` where there is no host or no port that there can
be. -/
def readAuthority (text : Utf16) : Option Authority :=
  let (authority, rest) := (text.filter (!isDropped ·)).span (!isEnd ·)
  let (userinfo, hostAndPort) := splitUserinfo authority
  let (host, port) := splitPort false hostAndPort
  if host = [] then none
  else
    match port with
    | none | some [] => some { userinfo, host, port := none, rest }
    | some (u :: ds) =>
      if (u :: ds).all Json.isDigit && ofDigits (u :: ds) ≤ 65535 then
        some { userinfo, host, port := some (ofDigits (u :: ds)), rest }
      else none

/-! ## Literals as hosts -/

/-- A unit that stays in the part of an authority after its user information. -/
def isInner (u : UInt16) : Bool := !isDropped u && !isEnd u && u ≠ 0x40

/-- A host by what it is made of: an IPv4 literal, or one of IPv6 in brackets. -/
inductive IsHost : Utf16 → Prop
  | ipv4 : s ≠ [] → (∀ u ∈ s, Json.isDigit u = true ∨ u = 0x2E) → IsHost s
  | ipv6 : (∀ u ∈ s, isLiteralUnit u = true) → IsHost (0x5B :: (s ++ [0x5D]))

theorem literalUnit_spec (h : isLiteralUnit u = true) :
    isInner u = true ∧ u ≠ 0x5B ∧ u ≠ 0x5D := by
  have hn : u.toNat < 0x67 := by
    rw [isLiteralUnit, Bool.or_eq_true, Bool.or_eq_true, decide_eq_true_iff,
      decide_eq_true_iff] at h
    rcases h with (h | rfl) | rfl
    · exact Hex.toNat_lt_of_isDigit h
    · decide
    · decide
  have hall : ∀ n < 0x67, isLiteralUnit (.ofNat n) = true →
      isInner (.ofNat n) = true ∧ UInt16.ofNat n ≠ 0x5B ∧ UInt16.ofNat n ≠ 0x5D := by
    decide +kernel
  have hu := hall u.toNat hn
  rw [UInt16.ofNat_toNat] at hu
  exact hu h

theorem isLiteralUnit_of_ipv4 (h : Json.isDigit u = true ∨ u = 0x2E) : isLiteralUnit u = true := by
  rcases h with h | rfl
  · exact isLiteralUnit_of_digit h
  · decide

theorem ipv4_ne_colon (h : Json.isDigit u = true ∨ u = 0x2E) : u ≠ 0x3A := by
  rintro rfl
  revert h
  decide

theorem IsHost.inner {host : Utf16} (h : IsHost host) : ∀ u ∈ host, isInner u = true := by
  intro u hu
  cases h with
  | ipv4 _ hunits => exact (literalUnit_spec (isLiteralUnit_of_ipv4 (hunits u hu))).1
  | ipv6 hunits =>
    rw [List.mem_cons, List.mem_append, List.mem_singleton] at hu
    rcases hu with rfl | hu | rfl
    · decide
    · exact (literalUnit_spec (hunits u hu)).1
    · decide

theorem IsHost.ne_nil {host : Utf16} (h : IsHost host) : host ≠ [] := by
  cases h with
  | ipv4 hne _ => exact hne
  | ipv6 _ => exact List.cons_ne_nil _ _

theorem splitUserinfo_of_inner {s : Utf16} (h : ∀ u ∈ s, isInner u = true) :
    splitUserinfo s = (none, s) := by
  induction s with
  | nil => rfl
  | cons u s ih =>
    have hat : u ≠ 0x40 := by
      rintro rfl
      exact absurd (h _ List.mem_cons_self) (by decide)
    rw [splitUserinfo, ih fun v hv => h v (List.mem_cons_of_mem _ hv)]
    exact if_neg hat

theorem splitPort_outside {s : Utf16} (h : ∀ u ∈ s, u ≠ 0x3A ∧ u ≠ 0x5B) (port : Utf16) :
    splitPort false s = (s, none) ∧ splitPort false (s ++ 0x3A :: port) = (s, some port) := by
  induction s with
  | nil => exact ⟨rfl, rfl⟩
  | cons u s ih =>
    obtain ⟨hcolon, hopen⟩ := h u List.mem_cons_self
    obtain ⟨hnone, hsome⟩ := ih fun v hv => h v (List.mem_cons_of_mem _ hv)
    simp [splitPort, hcolon, hopen, hnone, hsome]

theorem splitPort_inside {s : Utf16} (h : ∀ u ∈ s, u ≠ 0x5D) (rest : Utf16) :
    splitPort true (s ++ 0x5D :: rest) =
      (s ++ 0x5D :: (splitPort false rest).1, (splitPort false rest).2) := by
  induction s with
  | nil => simp [splitPort]
  | cons u s ih =>
    have hu := h u List.mem_cons_self
    simp [splitPort, hu, ih fun v hv => h v (List.mem_cons_of_mem _ hv)]

theorem IsHost.splitPort {host : Utf16} (h : IsHost host) (port : Utf16) :
    Url.splitPort false host = (host, none) ∧
      Url.splitPort false (host ++ 0x3A :: port) = (host, some port) := by
  cases h with
  | ipv4 _ hunits =>
    refine splitPort_outside (fun u hu => ?_) port
    exact ⟨ipv4_ne_colon (hunits u hu),
      (literalUnit_spec (isLiteralUnit_of_ipv4 (hunits u hu))).2.1⟩
  | @ipv6 s hunits =>
    have hclose (u) (hu : u ∈ s) : u ≠ 0x5D := (literalUnit_spec (hunits u hu)).2.2
    constructor
    · simp [Url.splitPort, splitPort_inside hclose []]
    · have hinside := splitPort_inside hclose (0x3A :: port)
      simp [Url.splitPort, hinside]

/-- The rest of a URL begins where its authority ends. -/
def BeginsRest (rest : Utf16) : Prop := ∀ u, rest.head? = some u → isEnd u = true

theorem span_authority {s : Utf16} (h : ∀ u ∈ s, isInner u = true) (hrest : BeginsRest rest) :
    ((s ++ rest).filter (!isDropped ·)).span (!isEnd ·) = (s, rest.filter (!isDropped ·)) := by
  have hkept (u) (hu : u ∈ s) : (!isDropped u) = true := by
    have hinner := h u hu
    simp only [isInner, Bool.and_eq_true] at hinner
    exact hinner.1.1
  have hinside (u) (hu : u ∈ s) : (!isEnd u) = true := by
    have hinner := h u hu
    simp only [isInner, Bool.and_eq_true] at hinner
    exact hinner.1.2
  rw [List.filter_append, List.filter_eq_self.mpr hkept, List.span_eq_takeWhile_dropWhile,
    List.takeWhile_append_of_pos hinside, List.dropWhile_append_of_pos hinside]
  cases rest with
  | nil => simp
  | cons u rest =>
    have hend := hrest u rfl
    have hdropped : isDropped u = false := by
      simp only [isEnd, Bool.or_eq_true, decide_eq_true_eq] at hend
      rcases hend with ((rfl | rfl) | rfl) | rfl <;> decide
    simp [hdropped, hend]

/-- A host alone is read as what it is. -/
theorem readAuthority_host_alone {host : Utf16} (h : IsHost host) (hrest : BeginsRest rest) :
    readAuthority (host ++ rest) =
      some { userinfo := none, host, port := none, rest := rest.filter (!isDropped ·) } := by
  rw [readAuthority, span_authority h.inner hrest]
  simp only [splitUserinfo_of_inner h.inner, (h.splitPort []).1]
  exact if_neg h.ne_nil

/-- A host and a port are read as what they are. -/
theorem readAuthority_host {host : Utf16} (h : IsHost host) (hport : port ≤ 65535)
    (hrest : BeginsRest rest) :
    readAuthority (host ++ 0x3A :: natText port ++ rest) =
      some { userinfo := none, host, port := some port, rest := rest.filter (!isDropped ·) } := by
  have hd := Json.natText_decimal port
  have hinner : ∀ u ∈ host ++ 0x3A :: natText port, isInner u = true := by
    intro u hu
    rw [List.mem_append, List.mem_cons] at hu
    rcases hu with hu | rfl | hu
    · exact h.inner u hu
    · decide
    · exact (literalUnit_spec (isLiteralUnit_of_digit (hd.digits u hu))).1
  rw [readAuthority, span_authority hinner hrest]
  simp only [splitUserinfo_of_inner hinner, (h.splitPort _).2]
  rw [if_neg h.ne_nil]
  obtain ⟨d, ds, hds⟩ := List.exists_cons_of_ne_nil hd.nonempty
  have hvalue := hd.value
  have hdigits := List.all_eq_true.mpr hd.digits
  rw [hds] at hvalue hdigits ⊢
  simp only [hdigits, hvalue, hport, decide_true, Bool.and_self]
  rfl

/-! ## URLs of literals -/

/-- The literal between brackets. -/
def bracketed : Utf16 → Option Utf16
  | 0x5B :: s => if s.getLast? = some 0x5D then some s.dropLast else none
  | _ => none

/-- The texts that are a URL of the scheme `http` whose host is an IPv6 literal. -/
def isIpv6Url (text : Utf16) : Bool :=
  ("http://" : Utf16).isPrefixOf text &&
    ((readAuthority (text.drop 7)).bind (bracketed ·.host)).any isIpv6Literal

/-- Of the URLs that are made of units of literals, the texts of literals are. -/
theorem isIpv6Url_literal {s : Utf16} (h : ∀ u ∈ s, isLiteralUnit u = true) :
    isIpv6Url (("http://[" : Utf16) ++ s ++ ("]/" : Utf16)) = isIpv6Literal s := by
  have hscheme : ("http://[" : Utf16) = ("http://" : Utf16) ++ [0x5B] := by decide
  have hslash : ("]/" : Utf16) = [0x5D, 0x2F] := by decide
  have htext : ("http://[" : Utf16) ++ s ++ ("]/" : Utf16) =
      ("http://" : Utf16) ++ (0x5B :: (s ++ [0x5D]) ++ [0x2F]) := by
    rw [hscheme, hslash]
    simp
  have hrest : BeginsRest [0x2F] := fun u hu => by
    cases hu
    decide
  have hread := readAuthority_host_alone (.ipv6 h) hrest
  have hpre := List.isPrefixOf_iff_prefix.mpr
    (List.prefix_append ("http://" : Utf16) (0x5B :: (s ++ [0x5D]) ++ [0x2F]))
  have hdrop : (("http://" : Utf16) ++ (0x5B :: (s ++ [0x5D]) ++ [0x2F])).drop 7 =
      0x5B :: (s ++ [0x5D]) ++ [0x2F] := rfl
  rw [htext, isIpv6Url, hpre, hdrop, hread]
  simp [bracketed]

end WarrenSdk.Lib.Url
