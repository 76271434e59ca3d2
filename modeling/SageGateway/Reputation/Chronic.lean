import SageGateway.Reputation.Parties
import SageGateway.Reputation.WriteBehind
import SageGateway.Owner
import Mathlib.Tactic.Linarith
import Mathlib.Tactic.Positivity

namespace SageGateway.Reputation

section Model

variable {F : Type} [Zero F] [One F] [Add F] [Sub F] [Mul F] [Div F] [Neg F] [NatCast F]
  [OfScientific F] [Preorder F] [DecidableLT F] [DecidableLE F] [DecidableEq F]

structure Log10 (F : Type) [Zero F] [One F] [Preorder F] where
  of : F → F
  pos : ∀ x, 1 < x → 0 < of x

def defaultHalfLifeAttempts : Int := 20000

def defaultOnsetRate : F := 0.0002

def defaultFullRate : F := 0.01

def penaltyAtFull : F := -40.0

def penaltyCap : F := -70.0

structure RateConfig (F : Type) where
  halfLifeAttempts : Int
  onsetRate : F
  fullRate : F

namespace RateConfig

def defaulted (c : RateConfig F) : RateConfig F where
  halfLifeAttempts := if c.halfLifeAttempts = 0 then defaultHalfLifeAttempts else c.halfLifeAttempts
  onsetRate := if c.onsetRate = 0 then defaultOnsetRate else c.onsetRate
  fullRate := if c.fullRate = 0 then defaultFullRate else c.fullRate

def normalized (c : RateConfig F) : RateConfig F :=
  if c.defaulted.onsetRate < 0 ∨ c.defaulted.fullRate < 0 ∨ 1 ≤ c.defaulted.fullRate ∨
      c.defaulted.fullRate ≤ c.defaulted.onsetRate then
    { c.defaulted with onsetRate := defaultOnsetRate, fullRate := defaultFullRate }
  else c.defaulted

def enabled (c : RateConfig F) : Bool := 0 < c.halfLifeAttempts

def lambda (ln2 : F) (c : RateConfig F) : F :=
  if c.enabled then ln2 / (c.halfLifeAttempts.toNat : F) else 0

def penalty (log10 : Log10 F) (c : RateConfig F) (rate : F) : F :=
  if c.enabled = false ∨ rate ≤ c.onsetRate then 0
  else if rate ≤ c.fullRate then
    penaltyAtFull * log10.of (rate / c.onsetRate) / log10.of (c.fullRate / c.onsetRate)
  else
    let past := penaltyAtFull + (penaltyCap - penaltyAtFull) * log10.of (rate / c.fullRate)
    if past < penaltyCap then penaltyCap else past

end RateConfig

-- Every table of the chronic view is filled behind a test for a penalty below zero.
structure Penalties (K F : Type) [DecidableEq K] [Zero F] [Preorder F] where
  table : GoMap K F
  negative : ∀ k p, table.get k = some p → p < 0

namespace Penalties

variable {K : Type} [DecidableEq K]

def none : Penalties K F := ⟨∅,fun k p h => by rw [GoMap.get_empty] at h; cases h⟩

def set (t : Penalties K F) (k : K) (p : F) (h : p < 0) : Penalties K F where
  table := t.table.put k p
  negative := by
    intro j q hq
    rcases GoMap.get_put_eq_some.mp hq with ⟨-,rfl⟩ | ⟨-,hold⟩
    · exact h
    · exact t.negative j q hold

def charge (t : Penalties K F) (k : K) : F := (t.table.get k).getD 0

def isEmpty (t : Penalties K F) : Bool := t.table.len = 0

def price (t : Penalties K F) (e : K × F) : Penalties K F :=
  if h : e.2 < 0 then t.set e.1 e.2 h else t

def priceLeast (t : Penalties K F) (e : K × F) : Penalties K F :=
  if h : e.2 < 0 then
    if t.charge e.1 < e.2 then t else t.set e.1 e.2 h
  else t

def priced (rows : List (K × F)) : Penalties K F := rows.foldl price none

def leastPriced (rows : List (K × F)) : Penalties K F := rows.foldl priceLeast none

end Penalties

structure PartyShare (F : Type) where
  serviceID : GoString
  party : GoString
  penalty : F
  deriving DecidableEq

structure PolicyPenalty (F : Type) where
  party : GoString
  penalty : F
  deriving DecidableEq

structure OperatorRateView (F : Type) where
  rate : F
  attempts : F
  deriving DecidableEq

def rpcOfKey (key : GoString) : GoString := ((GoString.cutLast '|' key).map Prod.snd).getD []

def operatorOfKey (P : Platform) (key : GoString) : GoString :=
  match GoString.cutLast '|' key with
  | some (identity,_) =>
      let op := EndpointAddr.computeOperator P (EndpointAddr.hostOfURL identity)
      if op = [] then identity else op
  | none => []

def partyOfOperator (o : Owners) (op : GoString) : GoString :=
  if o.dedicatedOwner op = [] then op else o.dedicatedOwner op

def partyOfKey (P : Platform) (o : Owners) (key : GoString) : GoString :=
  partyOfOperator o (operatorOfKey P key)

def isWebSocketKey (key : GoString) : Bool := rpcOfKey key = RPCType.webSocket.text

abbrev KeyID := GoString × GoString

abbrev PoolID := GoString × GoString

structure ChargedView (F : Type) [Zero F] [Preorder F] where
  byKey : GoMap KeyID F
  baseline : GoMap PoolID F
  opOn : GoMap GoString Bool
  stalePen : Penalties OpID F
  trustPen : Penalties GoString F
  trustOn : GoMap GoString Bool
  trustGate : ServiceGate
  wsOn : GoMap GoString Bool
  wsGate : ServiceGate
  dupPen : Penalties OpID F
  throttlePen : Penalties OpID F
  classPen : GoMap GoString (Penalties OpID F)
  policyPen : Penalties GoString F
  policyOn : GoMap GoString Bool
  policyGate : ServiceGate
  opSeed : GoMap OpID F
  partySeed : GoMap OpID F
  seedOn : GoMap GoString Bool
  seedGate : ServiceGate
  keyParty : GoMap GoString GoString
  keyOp : GoMap GoString GoString

def least (a b : F) : F := if b < a then b else a

namespace ChargedView

variable (P : Platform) (o : Owners) (v : ChargedView F) (svc key : GoString)

def gateAt (known : GoMap GoString Bool) (gate : ServiceGate) : Bool :=
  (known.get svc).getD (opens gate svc)

def websocketCharged : Bool := (v.wsOn.get svc).getD ((v.wsGate.map fun on => on svc).getD true)

def partyFor : GoString := (v.keyParty.get key).getD (partyOfKey P o key)

def operatorFor : GoString :=
  if v.keyParty.has key then (v.keyOp.get key).getD [] else operatorOfKey P key

def partyPenalties : F × F :=
  if (v.stalePen.isEmpty && v.trustPen.isEmpty) ||
      (isWebSocketKey key && !v.websocketCharged svc) then (0,0)
  else
    let party := v.partyFor P o key
    (v.stalePen.charge ⟨svc,party,[]⟩,
      if gateAt svc v.trustOn v.trustGate then v.trustPen.charge party else 0)

def policyPenalty : F :=
  if v.policyPen.isEmpty || (isWebSocketKey key && !v.websocketCharged svc) then 0
  else if gateAt svc v.policyOn v.policyGate then
    least (v.policyPen.charge (v.partyFor P o key)) (v.policyPen.charge (v.operatorFor P key))
  else 0

def throttlePenalty : F :=
  if v.throttlePen.isEmpty || isWebSocketKey key then 0
  else v.throttlePen.charge ⟨svc,v.partyFor P o key,[]⟩

def duplicatePenalty : F :=
  if v.dupPen.isEmpty || !isWebSocketKey key then 0
  else v.dupPen.charge ⟨svc,v.partyFor P o key,[]⟩

def classPenalty (class_ : GoString) : F :=
  match v.classPen.get class_ with
  | none => 0
  | some pen =>
      if class_ = [] ∨ pen.isEmpty ∨ isWebSocketKey key then 0
      else pen.charge ⟨svc,v.partyFor P o key,[]⟩

def partyPenalty : F :=
  let (stale,trust) := v.partyPenalties P o svc key
  least (least (least (least stale trust) (v.policyPenalty P o svc key))
    (v.throttlePenalty P o svc key)) (v.duplicatePenalty P o svc key)

def lowerSeed (op party : Option F) : Option F :=
  match op,party with
  | some seed,some p => some (if p < seed then p else seed)
  | some seed,none => some seed
  | none,p => p

def seedFor (op rpc : GoString) : Option F :=
  (lowerSeed (v.opSeed.get ⟨svc,op,rpc⟩) (v.partySeed.get ⟨svc,partyOfOperator o op,rpc⟩)).filter
    fun _ => gateAt svc v.seedOn v.seedGate

end ChargedView

structure Prices (F : Type) where
  stale : List (PartyStale F)
  trust : List (PartyTrust F)
  dup : List (PartyShare F)
  throttle : List (PartyShare F)
  policy : List (PolicyPenalty F)
  classes : List (GoString × List (PartyShare F))

structure Gates where
  relative : ServiceGate
  operator : ServiceGate
  trust : ServiceGate
  partyWS : ServiceGate
  policy : ServiceGate
  seed : ServiceGate

def baselineMinAttempts : Nat := 1000

structure KeyState (F : Type) where
  key : GoString
  op : OpID
  rate : F
  wellAttempted : Bool

namespace KeyState

def of (P : Platform) (e : Id × State F) : KeyState F where
  key := e.1.2
  op := ⟨e.1.1.1,operatorOfKey P e.1.2,rpcOfKey e.1.2⟩
  rate := e.2.rate
  wellAttempted := baselineMinAttempts ≤ e.2.attempts.toNat

def pool (ks : KeyState F) : PoolID := (ks.op.svc,ks.op.rpc)

end KeyState

structure Poll (F : Type) where
  byKey : GoMap KeyID F
  pools : GoMap PoolID (F × Nat)
  seen : List OpID

namespace Poll

def vote (p : Poll F) (id : PoolID) (rate : F) : Poll F :=
  { p with pools := p.pools.put id (match p.pools.get id with
    | some (best,n) => (least best rate,n + 1)
    | none => (rate,1)) }

def meet (opOn : GoMap GoString Bool) (byOp : GoMap OpID (OperatorRateView F)) (p : Poll F)
    (ks : KeyState F) : Poll F :=
  if (opOn.get ks.op.svc).getD false then
    match byOp.get ks.op with
    | none => p
    | some r =>
        let p := { p with byKey := p.byKey.put (ks.op.svc,ks.key) r.rate }
        if ks.op ∈ p.seen ∨ r.attempts < (baselineMinAttempts : F) then p
        else ({ p with seen := ks.op :: p.seen }).vote ks.pool r.rate
  else if ks.wellAttempted then p.vote ks.pool ks.rate
  else p

end Poll

section Refresh

def gather (rows : List (OpID × F)) : GoMap OpID (List F) :=
  rows.foldl (fun m e => m.put e.1 ((m.get e.1).getD [] ++ [e.2])) ∅

def medianOf (scores : List F) : F :=
  let sorted := scores.insertionSort (· ≤ ·)
  let m := sorted.getD (sorted.length / 2) 0
  if sorted.length % 2 = 0 then (sorted.getD (sorted.length / 2 - 1) 0 + m) / ((2 : Nat) : F) else m

def seedsOf (initial : F) (scores : GoMap OpID (List F)) : GoMap OpID F :=
  GoMap.putAll ∅ ((scores.toList.map fun e => (e.1,medianOf e.2)).filter fun e =>
    !decide (initial ≤ e.2))

def readGate (gate : ServiceGate) (svcs : List GoString) : GoMap GoString Bool :=
  match gate with
  | some on => GoMap.putAll ∅ (svcs.map fun svc => (svc,on svc))
  | none => ∅

def sharePen (shares : List (PartyShare F)) : Penalties OpID F :=
  .priced (shares.map fun p => (⟨p.serviceID,p.party,[]⟩,p.penalty))

def classPens (classes : List (GoString × List (PartyShare F))) :
    GoMap GoString (Penalties OpID F) :=
  GoMap.putAll ∅ ((classes.map fun c => (c.1,sharePen c.2)).filter fun c => !c.2.isEmpty)

def operatorRates (M : OpMath F) (now : Int) (stats : GoMap OpID (OperatorStat F)) :
    GoMap OpID (OperatorRateView F) :=
  GoMap.putAll ∅ ((stats.toList.filter fun e =>
    e.1.rpc ≠ RPCType.webSocket.text && decide (0 < e.2.rateAt M now)).map fun e =>
      (e.1,⟨e.2.rateAt M now,e.2.attempts⟩))

variable (P : Platform)

def operatorScore (e : Id × State F) : OpID × F :=
  (⟨e.1.1.1,operatorOfKey P e.1.2,rpcOfKey e.1.2⟩,e.2.score)

def partyScore (o : Owners) (e : Id × State F) : Option (OpID × F) :=
  let op := operatorOfKey P e.1.2
  if partyOfOperator o op = op then none
  else some (⟨e.1.1.1,partyOfOperator o op,rpcOfKey e.1.2⟩,e.2.score)

def refreshBaselines (initial : F) (o : Owners) (gates : Gates) (prices : Prices F)
    (byOp : GoMap OpID (OperatorRateView F)) (cache : GoMap Id (State F)) : ChargedView F :=
  let rows := cache.toList
  let keys := (rows.filter fun e => e.2.score ≠ 0).map (KeyState.of P)
  let svcs := keys.map fun ks => ks.op.svc
  let opSeed := seedsOf initial (gather (rows.map (operatorScore P)))
  let partySeed := seedsOf initial (gather (rows.filterMap (partyScore P o)))
  let seeded := (opSeed.toList ++ partySeed.toList).map fun e => e.1.svc
  let opOn := GoMap.putAll ∅ ((svcs.filter (opens gates.operator)).map (·,true))
  let poll := keys.foldl (Poll.meet opOn byOp) ⟨∅,∅,[]⟩
  let stalePen : Penalties OpID F :=
    .priced (prices.stale.map fun p => (⟨p.serviceID,p.party,[]⟩,p.penalty))
  let trustPen : Penalties GoString F := .priced (prices.trust.map fun t => (t.party,t.penalty))
  let policyPen : Penalties GoString F :=
    .leastPriced (prices.policy.map fun p => (p.party,p.penalty))
  let classPen := classPens prices.classes
  let charged := !(stalePen.isEmpty && trustPen.isEmpty && (sharePen prices.dup).isEmpty &&
    policyPen.isEmpty && (sharePen prices.throttle).isEmpty && classPen.len = 0)
  let gated (gate : ServiceGate) : ServiceGate := if charged then gate else none
  { byKey := poll.byKey
    baseline := GoMap.putAll ∅ ((poll.pools.toList.filter fun e =>
      2 ≤ e.2.2 && opens gates.relative e.1.1).map fun e => (e.1,e.2.1))
    opOn := opOn
    stalePen := stalePen
    trustPen := trustPen
    trustOn := readGate (gated gates.trust) svcs
    trustGate := gated gates.trust
    wsOn := readGate (gated gates.partyWS) svcs
    wsGate := gated gates.partyWS
    dupPen := sharePen prices.dup
    throttlePen := sharePen prices.throttle
    classPen := classPen
    policyPen := policyPen
    policyOn := readGate (gated gates.policy) svcs
    policyGate := gated gates.policy
    opSeed := opSeed
    partySeed := partySeed
    seedOn := readGate (if seeded = [] then none else gates.seed) seeded
    seedGate := if seeded = [] then none else gates.seed
    keyParty := if charged then
        GoMap.putAll ∅ (keys.map fun ks => (ks.key,partyOfOperator o ks.op.op))
      else ∅
    keyOp := if charged then GoMap.putAll ∅ (keys.map fun ks => (ks.key,ks.op.op)) else ∅ }

end Refresh

end Model

section Exact

variable {F : Type} [Field F] [LinearOrder F] {log10 : Log10 F} {c : RateConfig F} {rate : F}

structure RateConfig.Ordered (c : RateConfig F) : Prop where
  onset_pos : 0 < c.onsetRate
  onset_lt_full : c.onsetRate < c.fullRate

theorem RateConfig.Ordered.penalty_zero (h : c.Ordered) : c.penalty log10 0 = 0 :=
  if_pos (.inr h.onset_pos.le)

theorem seedsOf_lt {initial : F} {scores : GoMap OpID (List F)} {id : OpID} {seed : F}
    (h : (seedsOf initial scores).get id = some seed) : seed < initial := by
  rcases GoMap.get_putAll_eq_some h with he | hm
  · cases he
  · have hk := (List.mem_filter.mp hm).2
    rw [Bool.not_eq_true',decide_eq_false_iff_not] at hk
    exact not_le.mp hk

variable [IsStrictOrderedRing F]

theorem RateConfig.normalized_ordered (c : RateConfig F) : c.normalized.Ordered := by
  unfold RateConfig.normalized
  split_ifs with hb
  · refine ⟨?_,?_⟩
    · norm_num [defaultOnsetRate]
    · norm_num [defaultOnsetRate,defaultFullRate]
  · obtain ⟨ho,hb⟩ := not_or.mp hb
    obtain ⟨-,hb⟩ := not_or.mp hb
    obtain ⟨-,hp⟩ := not_or.mp hb
    refine ⟨lt_of_le_of_ne (not_lt.mp ho) (Ne.symm ?_),not_le.mp hp⟩
    show (if c.onsetRate = 0 then defaultOnsetRate else c.onsetRate) ≠ 0
    split_ifs with hz
    · norm_num [defaultOnsetRate]
    · exact hz

theorem RateConfig.Ordered.penalty_nonpos (h : c.Ordered) : c.penalty log10 rate ≤ 0 := by
  unfold RateConfig.penalty
  dsimp only
  split_ifs with hfr hfu
  · exact le_refl 0
  · have ho : c.onsetRate < rate := not_le.mp (not_or.mp hfr).2
    have hsp := log10.pos _ ((one_lt_div h.onset_pos).mpr h.onset_lt_full)
    have hp := log10.pos _ ((one_lt_div h.onset_pos).mpr ho)
    have hd : (penaltyAtFull : F) ≤ 0 := by norm_num [penaltyAtFull]
    exact div_nonpos_of_nonpos_of_nonneg
      (mul_nonpos_of_nonpos_of_nonneg hd hp.le) hsp.le
  · norm_num [penaltyCap]
  · have hf := h.onset_pos.trans h.onset_lt_full
    have hpa := log10.pos _ ((one_lt_div hf).mpr (not_le.mp hfu))
    have hd : (penaltyAtFull : F) ≤ 0 := by norm_num [penaltyAtFull]
    have hs : (penaltyCap - penaltyAtFull : F) ≤ 0 := by norm_num [penaltyCap,penaltyAtFull]
    exact add_nonpos hd (mul_nonpos_of_nonpos_of_nonneg hs hpa.le)

end Exact

end SageGateway.Reputation
