import WarrenSdk.Lib.Double
import WarrenSdk.Lib.LowerCase
import WarrenSdk.Lib.Tickets

/-!
# The choice of an exit (`discovery/selector.ts`)

A roll below the total weight of the relays that match draws the relay that holds its ticket, for
any rounding of doubles, while the total is exact.
-/

namespace WarrenSdk.Core.Discovery.Selector
open Lib

inductive LocationConstraint
  | any
  | country (country : Utf16)
  | city (country city : Utf16)
deriving DecidableEq

inductive IpAvailability
  | both
  | ipv4Only
  | ipv6Only
deriving DecidableEq

structure ExitQuery where
  location : Option LocationConstraint := none
  ipAvailability : Option IpAvailability := none
  requireIpv6Egress : Option Bool := none
deriving DecidableEq

/-- A relay (`relay.ts`), with what selection does not look at as `rest`. -/
structure Relay (ρ : Type u) where
  country : Utf16
  city : Utf16
  weight : Nat
  active : Bool
  ipv6Egress : Bool
  hasIpv4 : Bool
  hasIpv6 : Bool
  rest : ρ
deriving DecidableEq

inductive SelectError
  | noRelayMatch
deriving DecidableEq

variable {ρ : Type u}

section
variable (L : Utf16.LowerCase)

def locationMatches (constraint : Option LocationConstraint) (relay : Relay ρ) : Bool :=
  match constraint with
  | none | some .any => true
  | some (.country country) => L relay.country = L country
  | some (.city country city) => L relay.country = L country && L relay.city = L city

def ipMatches (availability : Option IpAvailability) (relay : Relay ρ) : Bool :=
  match availability.getD .both with
  | .ipv4Only => relay.hasIpv4
  | .ipv6Only => relay.hasIpv6
  | .both => relay.hasIpv4 || relay.hasIpv6

/-- Whether a relay satisfies every constraint of the query. -/
def relayMatches (relay : Relay ρ) (query : ExitQuery) : Bool :=
  if !relay.active then false
  else if !locationMatches L query.location relay then false
  else if !ipMatches query.ipAvailability relay then false
  else if query.requireIpv6Egress.getD false && !relay.ipv6Egress then false
  else true

def candidates (relays : List (Relay ρ)) (query : ExitQuery) : List (Relay ρ) :=
  relays.filter fun r => relayMatches L r query

def selectExit (relays : List (Relay ρ)) (query : ExitQuery) : Except SelectError (Relay ρ) :=
  match (candidates L relays query)[0]? with
  | none => .error .noRelayMatch
  | some relay => .ok relay

end

section
variable (R : Rounding)

/-- The sum of the weights, as the `reduce` of `weightedPick` adds them up. -/
def totalWeight (pool : List (Relay ρ)) : Rat := pool.foldl (fun acc r => R (acc + r.weight)) 0

/-- The loop of `weightedPick`, nothing where it runs out of relays. -/
def pickLoop : List (Relay ρ) → Rat → Option (Relay ρ)
  | [], _ => none
  | relay :: pool, roll =>
    if roll < relay.weight then some relay else pickLoop pool (R (roll - relay.weight))

/-- `Math.floor(rng() * total)` -/
def rollOf (rng total : Rat) : Int := ⌊R (rng * total)⌋

/-- `weightedPick` of a pool that is not empty, with what its source of numbers gives. -/
def weightedPick (pool : List (Relay ρ)) (hne : pool ≠ []) (rng : Rat) : Relay ρ :=
  let total := totalWeight R pool
  if total = 0 then pool.head hne
  else (pickLoop R pool (rollOf R rng total)).getD (pool.getLast hne)

/-- The relays that match and weigh something. -/
def weightedPool (L : Utf16.LowerCase) (relays : List (Relay ρ)) (query : ExitQuery) :
    List (Relay ρ) :=
  (candidates L relays query).filter fun r => 0 < r.weight

def selectExitWeighted (L : Utf16.LowerCase) (relays : List (Relay ρ)) (query : ExitQuery)
    (rng : Rat) : Except SelectError (Relay ρ) :=
  let pool := weightedPool L relays query
  if hne : pool = [] then .error .noRelayMatch else .ok (weightedPick R pool hne rng)

end

/-- The first number of the generator that is seeded with `seed`. -/
def mulberry32 (seed : BitVec 32) : Rat :=
  let a := seed + 0x6d2b79f5#32
  let t := (a ^^^ (a >>> 15)) * (1#32 ||| a)
  let t := (t + (t ^^^ (t >>> 7)) * (61#32 ||| t)) ^^^ t
  ((t ^^^ (t >>> 14)).toNat : Rat) / 4294967296

def selectExitForAttempt (R : Rounding) (L : Utf16.LowerCase) (relays : List (Relay ρ))
    (query : ExitQuery) (retryAttempt : Int) : Except SelectError (Relay ρ) :=
  selectExitWeighted R L relays query (mulberry32 (BitVec.ofInt 32 retryAttempt))

/-! ## Rolls -/

/-- What the relays of a list weigh together. -/
def weightSum (pool : List (Relay ρ)) : Nat := (pool.map Relay.weight).sum

theorem weightSum_cons (relay : Relay ρ) (pool : List (Relay ρ)) :
    weightSum (relay :: pool) = relay.weight + weightSum pool := by
  rw [weightSum, List.map_cons, List.sum_cons, weightSum]

variable {R : Rounding} {L : Utf16.LowerCase}

theorem rounded_natCast {n : Nat} (h : n ≤ MAX_EXACT) : R n = n := R.int n (by simpa using h)

theorem foldl_weight (pool : List (Relay ρ)) (acc : Nat) (h : acc + weightSum pool ≤ MAX_EXACT) :
    pool.foldl (fun acc r => R (acc + r.weight)) (acc : Rat) = (acc + weightSum pool : Nat) := by
  induction pool generalizing acc with
  | nil => rfl
  | cons relay pool ih =>
    rw [weightSum_cons] at h ⊢
    have hround : R ((acc : Rat) + relay.weight) = ((acc + relay.weight : Nat) : Rat) := by
      rw [← Nat.cast_add, rounded_natCast (by omega)]
    rw [List.foldl_cons, hround, ih _ (by omega), Nat.add_assoc]

theorem totalWeight_eq {pool : List (Relay ρ)} (h : weightSum pool ≤ MAX_EXACT) :
    totalWeight R pool = weightSum pool := by
  have hsum := foldl_weight (R := R) pool 0 (by rwa [Nat.zero_add])
  rwa [Nat.zero_add] at hsum

/-- The relay of a roll is the one that holds its ticket. -/
theorem pickLoop_eq (pool : List (Relay ρ)) {roll : Nat} (h : roll ≤ MAX_EXACT) :
    pickLoop R pool roll = (tickets Relay.weight pool)[roll]? := by
  induction pool generalizing roll with
  | nil => rfl
  | cons relay pool ih =>
    rw [pickLoop, getElem?_tickets_cons]
    by_cases hlt : roll < relay.weight
    · rw [if_pos hlt, if_pos (by exact_mod_cast hlt)]
    · have hround : R ((roll : Rat) - relay.weight) = ((roll - relay.weight : Nat) : Rat) := by
        rw [← Nat.cast_sub (Nat.not_lt.mp hlt), rounded_natCast (by omega)]
      rw [if_neg hlt, if_neg (by exact_mod_cast hlt), hround, ih (by omega)]

/-- The loop ends before the pool does. -/
theorem exists_pickLoop {pool : List (Relay ρ)} {roll : Nat} (h : roll < weightSum pool)
    (hle : weightSum pool ≤ MAX_EXACT) : ∃ relay ∈ pool, pickLoop R pool roll = some relay := by
  have hlt : roll < (tickets Relay.weight pool).length := by
    rw [length_tickets]
    exact h
  have hget := List.getElem?_eq_getElem hlt
  exact ⟨_, (mem_of_getElem?_tickets hget).1, by rw [pickLoop_eq pool (by omega), hget]⟩

theorem weightSum_weightedPool (relays : List (Relay ρ)) (query : ExitQuery) :
    weightSum (weightedPool L relays query) = weightSum (candidates L relays query) := by
  unfold weightedPool
  induction candidates L relays query with
  | nil => rfl
  | cons relay pool ih =>
    by_cases hpos : 0 < relay.weight
    · rw [List.filter_cons_of_pos (by simpa using hpos), weightSum_cons, weightSum_cons, ih]
    · rw [List.filter_cons_of_neg (by simpa using hpos), weightSum_cons, ih]
      omega

/-- `Math.floor(rng() * total)` of a double below one is below the total, however it is rounded. -/
theorem exists_rollOf (R : Nearest) {rng : Rat} {total : Nat} (hpos : 1 ≤ total)
    (hle : total ≤ MAX_EXACT) (h0 : 0 ≤ rng) (h1 : rng ≤ 1 - 1 / 2 ^ 53) :
    ∃ roll < total, rollOf R.toRounding rng total = (roll : Nat) := by
  have htotal : (1 : Rat) ≤ total := by exact_mod_cast hpos
  have hmax : (total : Rat) ≤ MAX_EXACT := by exact_mod_cast hle
  have hq : 0 ≤ rng * total := mul_nonneg h0 (by linarith)
  have hlow : 0 ≤ R.toRounding (rng * total) :=
    R.toRounding.int_le 0 (Nat.zero_le _) (by simpa using hq)
  have hle : rng * total ≤ (1 - 1 / 2 ^ 53) * total := mul_le_mul_of_nonneg_right h1 (by linarith)
  -- what is rounded to a relative error of 2 ^ -53
  have hrounded {q : Rat} (hhalf : 1 / 2 ≤ q) (hq : q ≤ MAX_EXACT) :
      R.toRounding q ≤ q + q / 2 ^ 53 := by
    have habs : |q| = q := abs_of_nonneg (by linarith)
    have hrelative := R.relative q (by rwa [habs]) (by rwa [habs])
    rw [habs] at hrelative
    linarith [(abs_le.mp hrelative).2]
  have hhigh : R.toRounding (rng * total) < total := by
    rcases le_total (1 / 2) (rng * total) with hhalf | hsmall
    · have := hrounded hhalf (by linarith)
      -- (1 - 2 ^ -53) * (1 + 2 ^ -53) is below one
      linarith
    · have := (R.toRounding.mono hsmall).trans (hrounded le_rfl (by linarith))
      linarith
  have hfloor : 0 ≤ rollOf R.toRounding rng total := Int.floor_nonneg.mpr hlow
  obtain ⟨roll, hroll⟩ := Int.eq_ofNat_of_zero_le hfloor
  refine ⟨roll, ?_, hroll⟩
  have hlt : rollOf R.toRounding rng total < (total : Int) :=
    Int.floor_lt.mpr (by exact_mod_cast hhigh)
  omega

/-! ## Positions -/

/-- A relay that knows its position. -/
def Relay.numbered (relay : Relay ρ) (i : Nat) : Relay Nat := { relay with rest := i }

def numbered (relays : List (Relay ρ)) : List (Relay Nat) :=
  relays.zipIdx.map fun r => r.1.numbered r.2

@[simp] theorem relayMatches_numbered (relay : Relay ρ) (i : Nat) (query : ExitQuery) :
    relayMatches L (relay.numbered i) query = relayMatches L relay query := rfl

theorem filter_zipIdx {α : Type u} (items : List α) (n i : Nat) :
    (items.zipIdx n).filter (fun a => a.2 = n + i) = (items[i]?.map (·, n + i)).toList := by
  induction items generalizing n i with
  | nil => rfl
  | cons a items ih =>
    rw [List.zipIdx_cons]
    cases i with
    | zero =>
      have hnone : (items.zipIdx (n + 1)).filter (fun a => a.2 = n + 0) = [] := by
        apply List.filter_eq_nil_iff.mpr
        intro b hb
        have hle := (List.mem_zipIdx hb).1
        simp only [decide_eq_true_eq]
        omega
      rw [List.filter_cons_of_pos (by simp), hnone]
      rfl
    | succ i =>
      have hshift : n + (i + 1) = n + 1 + i := by omega
      rw [List.filter_cons_of_neg (by simp), hshift, ih, List.getElem?_cons_succ]

theorem filter_numbered (relays : List (Relay ρ)) (i : Nat) :
    (numbered relays).filter (fun r => r.rest = i) = (relays[i]?.map (·.numbered i)).toList := by
  have h := filter_zipIdx relays 0 i
  rw [Nat.zero_add] at h
  rw [numbered, List.filter_map]
  exact (congrArg (List.map _) h).trans (by cases relays[i]? <;> rfl)

theorem weightSum_candidates_numbered (relays : List (Relay ρ)) (query : ExitQuery) :
    weightSum (candidates L (numbered relays) query) = weightSum (candidates L relays query) := by
  have hmap (n : Nat) : weightSum
    (candidates L ((relays.zipIdx n).map fun r => r.1.numbered r.2) query)
      = weightSum (candidates L relays query) := by
    unfold candidates
    induction relays generalizing n with
    | nil => rfl
    | cons relay relays ih =>
      rw [List.zipIdx_cons, List.map_cons]
      rw [List.filter_cons, List.filter_cons, relayMatches_numbered]
      split
      · rw [weightSum_cons, weightSum_cons, ih]
        rfl
      · exact ih (n + 1)
  exact hmap 0

/-- What the relay of a position weighs among those that are drawn from. -/
theorem weightSum_position {relays : List (Relay ρ)} (query : ExitQuery)
    (h : relays[i]? = some relay) :
    weightSum ((weightedPool L (numbered relays) query).filter fun r => r.rest = i) =
      if relayMatches L relay query then relay.weight else 0 := by
  have hone := filter_numbered relays i
  rw [h] at hone
  have hcomm : (weightedPool L (numbered relays) query).filter (fun r => r.rest = i) =
      weightedPool L ((numbered relays).filter fun r => r.rest = i) query := by
    rw [weightedPool, weightedPool, candidates, candidates, List.filter_filter, List.filter_filter,
      List.filter_filter, List.filter_filter]
    congr 1
    funext r
    cases relayMatches L r query <;> simp [Bool.and_comm]
  rw [hcomm, hone, weightSum_weightedPool, candidates]
  split
  · next hmatches =>
    have hpool : (some (relay.numbered i)).toList.filter (fun r => relayMatches L r query) =
        [relay.numbered i] := List.filter_cons_of_pos hmatches
    exact (congrArg weightSum hpool).trans (Nat.add_zero _)
  · next hmatches =>
    have hpool : (some (relay.numbered i)).toList.filter (fun r => relayMatches L r query) = [] :=
      List.filter_cons_of_neg hmatches
    exact congrArg weightSum hpool

/-- A position holds as many tickets as its relay weighs if it matches. -/
theorem countP_position {relays : List (Relay ρ)} (query : ExitQuery)
    (h : relays[i]? = some relay) :
    (List.range (weightSum (candidates L relays query))).countP (fun roll =>
      (tickets Relay.weight (weightedPool L (numbered relays) query))[roll]?.any (·.rest = i)) =
        if relayMatches L relay query then relay.weight else 0 := by
  have hdraws := @countP_draws _ Relay.weight (fun r : Relay Nat => r.rest = i)
    (weightedPool L (numbered relays) query)
  have htotal : ((weightedPool L (numbered relays) query).map Relay.weight).sum =
      weightSum (candidates L relays query) :=
    (weightSum_weightedPool _ query).trans (weightSum_candidates_numbered relays query)
  rw [htotal] at hdraws
  exact hdraws.trans (weightSum_position query h)

/-! ## The choice -/

/-- The relay that is chosen is the one that holds the ticket of the roll. -/
theorem selectExitWeighted_eq {relays : List (Relay ρ)} {query : ExitQuery} {rng : Rat} {roll : Nat}
    (hle : weightSum (candidates L relays query) ≤ MAX_EXACT)
    (hlt : roll < weightSum (candidates L relays query))
    (hroll : rollOf R rng (weightSum (candidates L relays query)) = roll) :
    ∃ relay ∈ weightedPool L relays query,
      (tickets Relay.weight (weightedPool L relays query))[roll]? = some relay ∧
        pickLoop R (weightedPool L relays query) roll = some relay ∧
          selectExitWeighted R L relays query rng = .ok relay := by
  rw [← weightSum_weightedPool] at hle hlt hroll
  obtain ⟨relay, hmem, hpick⟩ := exists_pickLoop (R := R) hlt hle
  have hne : weightedPool L relays query ≠ [] := List.ne_nil_of_mem hmem
  have htotal : (weightSum (weightedPool L relays query) : Rat) ≠ 0 := by
    exact_mod_cast (by omega : weightSum (weightedPool L relays query) ≠ 0)
  refine ⟨relay, hmem, by rw [← pickLoop_eq (R := R) _ (by omega), hpick], hpick, ?_⟩
  rw [selectExitWeighted, dif_neg hne, weightedPick]
  simp only [totalWeight_eq hle, if_neg htotal, hroll, Int.cast_natCast, hpick, Option.getD_some]

/-- Every position is chosen by as many rolls as its relay weighs if it matches, and by none if not;
and the loop never runs out of relays, whatever double below one the source gives. -/
theorem selectExitWeighted_exact (R : Nearest) (L : Utf16.LowerCase) (relays : List (Relay ρ))
    (query : ExitQuery) (hpos : 1 ≤ weightSum (candidates L relays query))
    (hle : weightSum (candidates L relays query) ≤ MAX_EXACT) :
    (∀ source : Nat → Rat, (∀ roll < weightSum (candidates L relays query),
        rollOf R.toRounding (source roll) (weightSum (candidates L relays query)) = roll) →
      ∀ (i : Nat) (relay : Relay ρ), relays[i]? = some relay →
        (List.range (weightSum (candidates L relays query))).countP (fun roll =>
          (selectExitWeighted R.toRounding L (numbered relays) query
            (source roll)).toOption.any (·.rest = i)) =
          if relayMatches L relay query then relay.weight else 0) ∧
    (∀ roll < weightSum (candidates L relays query),
      ∃ relay, pickLoop R.toRounding (weightedPool L relays query) roll = some relay) ∧
    ∀ rng : Rat, 0 ≤ rng → rng ≤ 1 - 1 / 2 ^ 53 →
      ∃ roll < weightSum (candidates L relays query), ∃ relay ∈ candidates L relays query,
        rollOf R.toRounding rng (weightSum (candidates L relays query)) = (roll : Nat) ∧
        pickLoop R.toRounding (weightedPool L relays query) roll = some relay ∧
        selectExitWeighted R.toRounding L relays query rng = .ok relay := by
  refine ⟨fun source hsource i relay hrelay => ?_, fun roll hlt => ?_, fun rng h0 h1 => ?_⟩
  · have hsum := weightSum_candidates_numbered (L := L) relays query
    rw [← countP_position query hrelay]
    apply List.countP_congr
    intro roll hroll
    have hlt := List.mem_range.mp hroll
    have heq := hsource roll hlt
    rw [← hsum] at hlt heq
    obtain ⟨chosen, -, hticket, -, hok⟩ := selectExitWeighted_eq (by rwa [hsum]) hlt heq
    rw [hok, hticket]
    rfl
  · rw [← weightSum_weightedPool] at hlt hle
    obtain ⟨relay, -, hpick⟩ := exists_pickLoop (R := R.toRounding) hlt hle
    exact ⟨relay, hpick⟩
  · obtain ⟨roll, hlt, hroll⟩ := exists_rollOf R hpos hle h0 h1
    obtain ⟨relay, hmem, -, hpick, hok⟩ := selectExitWeighted_eq hle hlt hroll
    exact ⟨roll, hlt, relay, (List.mem_filter.mp hmem).1, hroll, hpick, hok⟩

/-- Doubles that are not rounded at all. -/
def exactNearest : Nearest where
  toFun q := q
  mono _ _ h := h
  int _ _ := rfl
  relative q _ _ := by
    rw [sub_self, abs_zero]
    positivity

def sampleRelay (country : Utf16) (weight : Nat) (active : Bool) : Relay Unit :=
  { country, city := "Amsterdam", weight, active, ipv6Egress := false, hasIpv4 := true
    hasIpv6 := false, rest := () }

def sampleRelays : List (Relay Unit) :=
  [sampleRelay "A" 30 true, sampleRelay "B" 50 false, sampleRelay "C" 70 true]

theorem selectExitWeighted_exact_sample :
    (List.range 100).countP (fun roll =>
      (selectExitWeighted exactNearest.toRounding Utf16.asciiLowerCase (numbered sampleRelays) {}
        ((roll : Rat) / 100)).toOption.any (·.rest = 2)) = 70 := by
  have htotal : weightSum (candidates Utf16.asciiLowerCase sampleRelays {}) = 100 := by decide
  have h := (selectExitWeighted_exact exactNearest Utf16.asciiLowerCase sampleRelays {}
    (by rw [htotal]; decide) (by rw [htotal]; decide)).1
  rw [htotal] at h
  refine h (fun roll => (roll : Rat) / 100) (fun roll _ => ?_) 2 _ rfl
  have hexact : (roll : Rat) / 100 * (100 : Nat) = roll := by
    rw [Nat.cast_ofNat]
    exact div_mul_cancel₀ _ (by norm_num)
  unfold rollOf
  rw [hexact]
  exact Int.floor_natCast roll

theorem mulberry32_range (seed : BitVec 32) :
    0 ≤ mulberry32 seed ∧ mulberry32 seed ≤ 1 - 1 / 2 ^ 53 := by
  obtain ⟨n, hn⟩ : ∃ n : BitVec 32, mulberry32 seed = (n.toNat : Rat) / 4294967296 := ⟨_, rfl⟩
  have hlt : n.toNat ≤ 4294967295 := by
    have hlt := n.isLt
    omega
  have hle : (n.toNat : Rat) ≤ 4294967295 := by exact_mod_cast hlt
  rw [hn]
  constructor
  · positivity
  · rw [div_le_iff₀ (by norm_num)]
    norm_num
    linarith

/-- The choice of an attempt is of a relay that matches. -/
theorem selectExitForAttempt_matches (R : Nearest) (relays : List (Relay ρ)) (query : ExitQuery)
    (retryAttempt : Int) (hpos : 1 ≤ weightSum (candidates L relays query))
    (hle : weightSum (candidates L relays query) ≤ MAX_EXACT) :
    ∃ relay ∈ candidates L relays query,
      selectExitForAttempt R.toRounding L relays query retryAttempt = .ok relay := by
  obtain ⟨h0, h1⟩ := mulberry32_range (BitVec.ofInt 32 retryAttempt)
  obtain ⟨roll, hlt, hroll⟩ := exists_rollOf R hpos hle h0 h1
  obtain ⟨relay, hmem, -, -, hok⟩ := selectExitWeighted_eq hle hlt hroll
  exact ⟨relay, (List.mem_filter.mp hmem).1, hok⟩

end WarrenSdk.Core.Discovery.Selector
