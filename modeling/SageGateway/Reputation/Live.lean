import SageGateway.Reputation.Chronic
import SageGateway.Reputation.Selector

namespace SageGateway.Reputation

variable {F : Type} [Zero F] [One F] [Add F] [Sub F] [Mul F] [Div F] [Neg F] [NatCast F]
  [OfScientific F] [Preorder F] [DecidableLT F] [DecidableLE F] [DecidableEq F]

structure Env (F : Type) [Zero F] [One F] [NatCast F] [Preorder F] where
  cfg : Config F
  maxScore_eq : cfg.maxScore = ((100 : Nat) : F)
  platform : Platform
  log10 : Log10 F
  ln2 : F
  opMath : OpMath F
  stateIdleTTL : Int

structure Live (F : Type) [Zero F] [Preorder F] where
  store : Service F
  chronic : Option (ChargedView F)
  impact : SignalType → F
  rate : RateConfig F
  selector : SelectorConfig F
  owners : Owners

namespace Live

section Reads

variable (E : Env F) (s : Live F)

def start (storage : GoMap GoString (State F)) (impact : SignalType → F) (rate : RateConfig F)
    (selector : SelectorConfig F) (owners : Owners) : Live F :=
  ⟨⟨∅,∅,storage⟩,none,impact,rate,selector,owners⟩

def penalty (rate : F) : F := s.rate.normalized.penalty E.log10 rate

def seedFor (svc key : GoString) : Option F :=
  match s.chronic with
  | none => none
  | some v => v.seedFor s.owners svc (operatorOfKey E.platform key) (rpcOfKey key)

def initialScore (svc : ServiceName) (key : GoString) : F :=
  (s.seedFor E svc.1 key).getD E.cfg.initialScore

def scoring : Scoring F where
  impact := s.impact
  rateEnabled := s.rate.normalized.enabled
  lambda := s.rate.normalized.lambda E.ln2
  penalty := s.penalty E
  minThreshold := s.selector.minThreshold
  initialScoreOf := s.initialScore E

def rateFor (svc key : GoString) (rate : F) : F :=
  match s.chronic with
  | none => rate
  | some v => if (v.opOn.get svc).getD false then (v.byKey.get (svc,key)).getD rate else rate

def baselineFor (svc key : GoString) : Option F :=
  s.chronic.bind fun v => v.baseline.get (svc,rpcOfKey key)

def penaltyFor (svc key : GoString) (rate : F) : F :=
  let p := s.penalty E (s.rateFor svc key rate)
  if p = 0 then 0
  else match s.baselineFor svc key with
    | some base => least 0 (p - s.penalty E base)
    | none => p

def scoreWith (svc key : GoString) (st : State F) (party : F) : F :=
  let score := st.score + s.penaltyFor E svc key st.rate + party
  let floor := least st.score s.selector.minThreshold
  clamp E.cfg (if score < floor then floor else score)

def partyPenalty (svc key : GoString) : F :=
  match s.chronic with
  | none => 0
  | some v => v.partyPenalty E.platform s.owners svc key

def classPenalty (svc key methodClass : GoString) : F :=
  match s.chronic with
  | none => 0
  | some v => v.classPenalty E.platform s.owners svc key methodClass

def effectiveFor (svc key : GoString) (st : State F) : F :=
  s.scoreWith E svc key st (s.partyPenalty E svc key)

def effectiveForClass (svc key : GoString) (st : State F) (methodClass : GoString) : F :=
  s.scoreWith E svc key st
    (least (s.partyPenalty E svc key) (s.classPenalty E svc key methodClass))

def classesCharged : Bool :=
  match s.chronic with
  | none => false
  | some v => v.classPen.len ≠ 0

def stateFor (svc : ServiceName) (key : GoString) : State F :=
  (s.store.cache.get (svc,key)).getD (.start (s.initialScore E svc key))

def scoreForSelector (svc : ServiceName) (ep : EndpointAddr) (t : RPCType)
    (methodClass : GoString) : F :=
  let key := E.cfg.keyOf ep t
  if s.classesCharged then s.effectiveForClass E svc.1 key (s.stateFor E svc key) methodClass
  else s.effectiveFor E svc.1 key (s.stateFor E svc key)

def getScore (svc : ServiceName) (ep : EndpointAddr) (t : RPCType) : F :=
  let key := E.cfg.keyOf ep t
  s.effectiveFor E svc.1 key (s.stateFor E svc key)

def prune (svc : ServiceName) (key : GoString) : Live F :=
  { s with store := { s.store with
    cache := pruneUninformative E.cfg (s.scoring E) svc key s.store.cache } }

end Reads

section Hydration

variable (E : Env F)

def splitScoreKey (field : GoString) : Option Id :=
  match GoString.cut ':' field with
  | some (svc,key) =>
      if h : ':' ∉ svc then if svc = [] ∨ key = [] then none else some (⟨svc,h⟩,key) else none
  | none => none

def fresh (cutoff : Int) (st : State F) : Bool :=
  0 < st.updatedAt && cutoff < GoTime.ofUnix st.updatedAt

def room (s : Live F) (id : Id) : Live F :=
  if maxScoresPerServiceShard ≤ shardLen E.cfg s.store id.1 id.2 then s.prune E id.1 id.2 else s

def loadState (s : Live F) (id : Id) (st : State F) : Live F :=
  if E.stateIdleTTL < 0 ∨ s.store.cache.has id then s
  else
    let s := s.room E id
    if maxScoresPerServiceShard ≤ shardLen E.cfg s.store id.1 id.2 then s
    else { s with store := { s.store with cache := s.store.cache.put id st } }

def adopt (now : Int) (s : Live F) (e : GoString × State F) : Live F :=
  match splitScoreKey e.1 with
  | some id => if fresh (now - E.stateIdleTTL) e.2 then s.loadState E id e.2 else s
  | none => s

end Hydration

inductive Act (F : Type) where
  | record (now : Int) (svc : ServiceName) (endpoint : EndpointAddr) (t : RPCType) (signal : Signal)
  | rebase (svc : ServiceName) (endpoints : List EndpointAddr) (t : RPCType)
  | reset (now : Int) (order : List (Id × State F)) (svc : ServiceName) (target : GoString)
  | flush (now : Int) (order : List (GoString × State F))
  | hydrate (now : Int) (order : List (GoString × State F))
  | refresh (now : Int) (gates : Gates) (prices : Prices F) (stats : GoMap OpID (OperatorStat F))
  | retune (impact : SignalType → F) (rate : RateConfig F) (selector : SelectorConfig F)
  | own (supplier owner operator : GoString)

def step (E : Env F) (s : Live F) : Act F → Option (Live F)
  | .record now svc endpoint t signal =>
      some { s with store := recordSignal E.cfg (s.scoring E) s.store now svc endpoint t signal }
  | .rebase svc endpoints t => some { s with
      store := (rebaseAfterDrain E.cfg s.selector.minThreshold s.store svc endpoints t).1 }
  | .reset now order svc target =>
      if s.store.cache.Iterates order then
        some { s with store := (resetMatching E.cfg s.store now order svc target).1 }
      else none
  | .flush now order =>
      if s.store.pending.Iterates order then
        some { s with store := flushPending E.cfg s.store now order }
      else none
  | .hydrate now order =>
      if s.store.storage.Iterates order then some (order.foldl (adopt E now) s) else none
  | .refresh now gates prices stats => some { s with
      chronic := some (refreshBaselines E.platform E.cfg.initialScore s.owners gates prices
        (operatorRates E.opMath now stats) s.store.cache) }
  | .retune impact rate selector =>
      some { s with impact := impact, rate := rate, selector := selector }
  | .own supplier owner operator =>
      some { s with owners := s.owners.recordOwner supplier owner operator }

theorem record_starts_at_stateFor (E : Env F) (s : Live F) (now : Int) (svc : ServiceName)
    (endpoint : EndpointAddr) (t : RPCType) (signal : Signal) :
    (s.step E (.record now svc endpoint t signal)).map
        (fun s' => s'.store.cache.get (svc,E.cfg.keyOf endpoint t)) =
      some (some (applySignal E.cfg (s.scoring E) (s.stateFor E svc (E.cfg.keyOf endpoint t))
        (signal.timestamp.getD now) t signal)) := by
  simp [step,recordSignal,cache_enqueue,GoMap.get_put_self]
  rfl

end Live

end SageGateway.Reputation
