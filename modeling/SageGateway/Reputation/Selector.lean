import SageGateway.Reputation.Concentration

namespace SageGateway.Reputation

structure SelectorConfig (F : Type) where
  tier1Threshold : F
  tier2Threshold : F
  minThreshold : F
  probationThreshold : F
  probationPct : Int
  tier2Pct : Int
  deriving DecidableEq

inductive Tier where
  | tier1
  | tier2
  | tier3
  | probation
  deriving DecidableEq

def Tier.index : Tier → Nat
  | tier1 => 0
  | tier2 => 1
  | tier3 => 2
  | probation => 3

def latencyFloorMS : ℚ := 20

-- A selector with the context, the service and the RPC type of one selection already applied.
structure TieredSelector (F : Type) where
  platform : Platform
  cfg : SelectorConfig F
  scores : EndpointAddr → F × Bool
  latency : Option (EndpointAddr → Option ℚ)
  operatorCap : Option OperatorCapConfig

-- One value for each random number a selection can ask for.
structure Draws where
  seat : Nat → Nat
  reservoir : Nat → ℚ
  operator : ℚ
  fastest : ℚ
  probation : Nat
  tier2 : Nat

structure Seats (F : Type) where
  pick : Tier → EndpointAddr
  count : Tier → Nat
  fallback : EndpointAddr
  fallbackScore : F
  fallbackTies : Nat

structure Selection where
  served : List EndpointAddr
  collapsed : Bool
  deriving DecidableEq

namespace TieredSelector

variable {F : Type} [LT F] [DecidableLT F] [LE F] [DecidableLE F] [DecidableEq F]

def tierOf (cfg : SelectorConfig F) (score : F) : Option Tier :=
  if score < cfg.minThreshold then none
  else if score < cfg.probationThreshold then some .probation
  else if cfg.tier1Threshold ≤ score then some .tier1
  else if cfg.tier2Threshold ≤ score then some .tier2
  else some .tier3

variable (s : TieredSelector F)

def classify (ep : EndpointAddr) : Option Tier × F :=
  match s.scores ep with
  | (score,true) => (tierOf s.cfg score,score)
  | (score,false) => (some .tier3,score)

section

variable [Zero F]

def noSeats : Seats F := ⟨fun _ => [],fun _ => 0,[],0,0⟩

def reject (draw : Nat) (ep : EndpointAddr) (score : F) (seats : Seats F) : Seats F :=
  if seats.fallback = [] ∨ seats.fallbackScore < score then
    { seats with fallback := ep, fallbackScore := score, fallbackTies := 1 }
  else if score = seats.fallbackScore then
    { seats with
      fallback := if draw % (seats.fallbackTies + 1) = 0 then ep else seats.fallback
      fallbackTies := seats.fallbackTies + 1 }
  else seats

def enter (draw : Nat) (ep : EndpointAddr) (t : Tier) (seats : Seats F) : Seats F :=
  { seats with
    count := fun u => if u = t then seats.count t + 1 else seats.count u
    pick := fun u => if u = t ∧ draw % (seats.count t + 1) = 0 then ep else seats.pick u }

def seat (d : Draws) (seats : Seats F) (e : EndpointAddr × Nat) : Seats F :=
  match s.classify e.1 with
  | (some t,_) => enter (d.seat e.2) e.1 t seats
  | (none,score) => reject (d.seat e.2) e.1 score seats

def tiersOf (endpoints : List EndpointAddr) : List (Option Tier) :=
  endpoints.map fun ep => (s.classify ep).1

def measured (latency : EndpointAddr → Option ℚ) (ep : EndpointAddr) : Option ℚ :=
  (latency ep).filter fun ms => 0 < ms

def speed (ms : ℚ) : ℚ := 1 / if ms < latencyFloorMS then latencyFloorMS else ms

def tier1Weights (latency : EndpointAddr → Option ℚ) (endpoints : List EndpointAddr) :
    Option (List ℚ) :=
  let fast := endpoints.filter fun ep => (s.classify ep).1 = some .tier1
  let known := fast.filterMap (measured latency)
  if fast.length < 2 ∨ known.length = 0 then none
  else
    let mean := known.sum / known.length
    some (endpoints.map fun ep =>
      if (s.classify ep).1 = some .tier1 then speed ((measured latency ep).getD (2 * mean)) else 0)

def weightsFor (endpoints : List EndpointAddr) (best : Tier) (count : Nat) : Option (List ℚ) :=
  match s.latency with
  | some latency =>
      if best = .tier1 ∧ 1 < count then s.tier1Weights latency endpoints else none
  | none => none

def cappedPick (d : Draws) (endpoints : List EndpointAddr) (best : Tier) (count : Nat)
    (weights : Option (List ℚ)) : Option EndpointAddr :=
  match s.operatorCap with
  | some cap =>
      if 1 < count then
        (cappedPickWeighted s.platform cap (fun i => (s.tiersOf endpoints)[i]? = some (some best))
          (weights.map fun ws i => ws.getD i 0) d.reservoir d.operator endpoints).map Prod.snd
      else none
  | none => none

def fastestPick (d : Draws) (endpoints : List EndpointAddr) (weights : Option (List ℚ)) :
    Option EndpointAddr :=
  (weights.bind fun ws => pickIndex ws d.fastest).bind fun i => endpoints[i]?

def repick (d : Draws) (endpoints : List EndpointAddr) (best : Tier) (seats : Seats F) :
    EndpointAddr :=
  let weights := s.weightsFor endpoints best (seats.count best)
  match s.cappedPick d endpoints best (seats.count best) weights with
  | some ep => ep
  | none => (fastestPick d endpoints weights).getD (seats.pick best)

def routed (d : Draws) (endpoints : List EndpointAddr) (best : Tier) (seats : Seats F) :
    List EndpointAddr :=
  let selected := s.repick d endpoints best seats
  if 0 < seats.count .probation ∧ 0 < s.cfg.probationPct ∧
      ((d.probation % 100 : Nat) : Int) < s.cfg.probationPct then
    [seats.pick .probation,selected]
  else if best = .tier1 ∧ 0 < seats.count .tier2 ∧ 0 < s.cfg.tier2Pct ∧
      ((d.tier2 % 100 : Nat) : Int) < s.cfg.tier2Pct then
    [seats.pick .tier2,selected]
  else [selected]

def select (d : Draws) (endpoints : List EndpointAddr) : Selection :=
  let seats := endpoints.zipIdx.foldl (s.seat d) noSeats
  if 0 < seats.count .tier1 then ⟨s.routed d endpoints .tier1 seats,false⟩
  else if 0 < seats.count .tier2 then ⟨s.routed d endpoints .tier2 seats,false⟩
  else if 0 < seats.count .tier3 then ⟨s.routed d endpoints .tier3 seats,false⟩
  else if 0 < seats.count .probation then ⟨[seats.pick .probation],false⟩
  else if seats.fallback = [] then ⟨[],false⟩
  else ⟨[seats.fallback],true⟩

end

structure Best (F : Type) where
  tier : Option Tier
  rejected : Option F

def rank (b : Best F) (ep : EndpointAddr) : Best F :=
  match s.classify ep with
  | (none,score) =>
      { b with rejected := match b.rejected with
        | some r => some (if r < score then score else r)
        | none => some score }
  | (some t,_) =>
      { b with tier := match b.tier with
        | some u => some (if t.index < u.index then t else u)
        | none => some t }

def topTierCandidates (endpoints : List EndpointAddr) : Selection :=
  let best := endpoints.foldl s.rank ⟨none,none⟩
  match best.tier,best.rejected with
  | some t,_ => ⟨endpoints.filter fun ep => (s.classify ep).1 = some t,false⟩
  | none,some r => ⟨endpoints.filter fun ep => (s.classify ep).2 = r,true⟩
  | none,none => ⟨[],false⟩

section Cascade

variable {s} {cfg : SelectorConfig F} {d : Draws} {endpoints : List EndpointAddr}

omit [DecidableEq F] in
theorem tierOf_eq_none {score : F} : tierOf cfg score = none ↔ score < cfg.minThreshold := by
  unfold tierOf
  split_ifs with hm <;> simp [hm]

omit [LE F] [DecidableLE F] in
theorem count_reject (draw : Nat) (ep : EndpointAddr) (score : F) (seats : Seats F) :
    (reject draw ep score seats).count = seats.count := by
  unfold reject
  split_ifs <;> rfl

theorem count_seat (seats : Seats F) (e : EndpointAddr × Nat) (t : Tier) :
    (s.seat d seats e).count t =
      seats.count t + if (s.classify e.1).1 = some t then 1 else 0 := by
  unfold seat
  rcases s.classify e.1 with ⟨_ | u,score⟩
  · simp [count_reject]
  · by_cases hu : t = u
    · simp [enter,hu]
    · simp [enter,hu,Ne.symm hu]

theorem count_seats (l : List (EndpointAddr × Nat)) (seats : Seats F) (t : Tier) :
    (l.foldl (s.seat d) seats).count t =
      seats.count t + l.countP fun e => (s.classify e.1).1 = some t := by
  induction l generalizing seats with
  | nil => rfl
  | cons e l ih =>
    rw [List.foldl_cons,ih,count_seat,List.countP_cons]
    simp
    omega

variable {ep : EndpointAddr} {t : Tier}

omit [DecidableEq F] in
theorem tier_foldl (endpoints : List EndpointAddr) (b : Best F) :
    match (endpoints.foldl s.rank b).tier with
    | none => b.tier = none ∧ ∀ ep ∈ endpoints, (s.classify ep).1 = none
    | some t => (b.tier = some t ∨ ∃ ep ∈ endpoints, (s.classify ep).1 = some t) ∧
        (∀ u ∈ b.tier, t.index ≤ u.index) ∧
        ∀ ep ∈ endpoints, ∀ u ∈ (s.classify ep).1, t.index ≤ u.index := by
  induction endpoints generalizing b with
  | nil => cases h : b.tier <;> simp [h]
  | cons ep endpoints ih =>
    have hr := ih (s.rank b ep)
    rw [List.foldl_cons]
    cases hbe : (endpoints.foldl s.rank (s.rank b ep)).tier with
    | none =>
      rcases hc : s.classify ep with ⟨_ | u,score⟩ <;> cases hb : b.tier <;>
        simp_all [rank]
    | some t =>
      rw [hbe] at hr
      rcases hc : s.classify ep with ⟨_ | u,score⟩ <;> cases hb : b.tier <;>
        simp [rank,hc,hb] at hr ⊢ <;> grind

omit [DecidableEq F] in
theorem tier_ranked {b : Best F} (hep : ep ∈ endpoints)
    (hc : (s.classify ep).1 = some t) : ∃ u, (endpoints.foldl s.rank b).tier = some u := by
  have hs := s.tier_foldl endpoints b
  cases hb : (endpoints.foldl s.rank b).tier with
  | none =>
    rw [hb] at hs
    cases (hs.2 ep hep).symm.trans hc
  | some u => exact ⟨u,rfl⟩

theorem topTierCandidates_of_tier
    (h : (endpoints.foldl s.rank ⟨none,none⟩).tier = some t) :
    s.topTierCandidates endpoints =
      ⟨endpoints.filter fun ep => (s.classify ep).1 = some t,false⟩ := by
  unfold topTierCandidates
  dsimp only
  rw [h]

variable [Zero F]

theorem classify_of_no_seat
    (h : ¬0 < (endpoints.zipIdx.foldl (s.seat d) noSeats).count t)
    (hep : ep ∈ endpoints) : (s.classify ep).1 ≠ some t := by
  rw [count_seats] at h
  intro hc
  obtain ⟨i,hi⟩ := List.mem_iff_getElem?.mp hep
  have hp := List.countP_pos_iff (p := fun e : EndpointAddr × Nat =>
    (s.classify e.1).1 = some t).mpr
    ⟨(ep,i),List.mk_mem_zipIdx_iff_getElem?.mpr hi,decide_eq_true hc⟩
  omega

theorem select_collapsed (h : (s.select d endpoints).collapsed = true)
    (hep : ep ∈ endpoints) : (s.classify ep).1 = none := by
  unfold select at h
  dsimp only at h
  split_ifs at h with h1 h2 h3 hp hf
  cases hc : (s.classify ep).1 with
  | none => rfl
  | some t =>
    cases t with
    | tier1 => exact absurd hc (classify_of_no_seat h1 hep)
    | tier2 => exact absurd hc (classify_of_no_seat h2 hep)
    | tier3 => exact absurd hc (classify_of_no_seat h3 hep)
    | probation => exact absurd hc (classify_of_no_seat hp hep)

end Cascade

end TieredSelector

end SageGateway.Reputation
