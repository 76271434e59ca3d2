import SageGateway.Lib.GoTime
import SageGateway.Lib.Run
import SageGateway.Relay.Narrowing

namespace SageGateway

inductive ContextEnd where
  | deadlineExceeded
  | canceled
  deriving DecidableEq

def ContextEnd.err : ContextEnd → GoError
  | .deadlineExceeded => ⟨.text "context deadline exceeded".toList,[]⟩
  | .canceled => ⟨.text "context canceled".toList,[]⟩

def ctxDoneError (ended : ContextEnd) : GoError :=
  if ended = .deadlineExceeded then
    .newRelayError .transport "hedge: attempt deadline exceeded".toList (some ended.err) true
  else ended.err

def defaultHedgeMaxBatchSize : Int := 10

def hedgesBatchOf (hedgeMaxBatchSize n : Int) : Bool :=
  let limit := if hedgeMaxBatchSize = 0 then defaultHedgeMaxBatchSize else hedgeMaxBatchSize
  decide (limit < 0) || decide (n ≤ limit)

def armContext (deadline : Option Int) (now : Int) : Option Int :=
  deadline.map fun dl => dl + max (GoTime.sub dl now) 0

def joinHosts : List GoString → GoString
  | [] => []
  | [host] => host
  | host :: hosts => host ++ ", ".toList ++ joinHosts hosts

section

variable {R : Type}

def mergeContext (dst src : RelayContext R) : RelayContext R :=
  { dst with endpoint := src.endpoint, endpoints := src.endpoints, response := src.response,
             err := src.err, heuristicResult := src.heuristicResult }

def hedgeClone (ctx : RelayContext R) (endpoints : List EndpointAddr) : RelayContext R :=
  { ctx with attemptKind := attemptHedge, endpoints := endpoints, endpoint := []
             response := none, err := none }

def deadlineInFlight (ctx : RelayContext R) (ended : ContextEnd)
    (picks : List (Option EndpointAddr)) : RelayContext R × GoError :=
  let named := (picks.filterMap id).filter fun p => decide (p ≠ [])
  let hosts := named.map EndpointAddr.domain
  ({ ctx with endpoint := if ctx.endpoint = [] then named.head?.getD [] else ctx.endpoint },
    if hosts = [] ∨ ended ≠ .deadlineExceeded then ctxDoneError ended
    else .newRelayError .transport
      ("hedge: attempt deadline exceeded with ".toList ++ joinHosts hosts ++ " in flight".toList)
      (some ended.err) true)

end

inductive HedgeArm where
  | primary
  | hedge
  | rehedge
  deriving DecidableEq

structure HedgeResult (R : Type) where
  arm : HedgeArm
  err : Option GoError
  ctx : RelayContext R

inductive ArmStage (R : Type) where
  | running
  | returned (res : HedgeResult R)
  | reported (res : HedgeResult R)

structure ArmRun (R : Type) where
  ctx : RelayContext R
  selectedEndpoint : Option EndpointAddr
  stage : ArmStage R

namespace ArmRun

variable {R : Type}

def launch (ctx : RelayContext R) (now : Int) : ArmRun R :=
  ⟨{ ctx with deadline := armContext ctx.deadline now },none,.running⟩

def select (a : HedgeArm) (v : SelectView) (r : ArmRun R) : ArmRun R :=
  let (endpoints,pick) := v.narrow r.ctx.attemptKind r.ctx.endpoints
  match pick with
  | .ok ep =>
      { r with ctx := { r.ctx with endpoints := endpoints, endpoint := ep }
               selectedEndpoint := some ep }
  | .error err =>
      let ctx := { r.ctx with endpoints := endpoints }
      { r with ctx := ctx, stage := .returned ⟨a,some err,ctx⟩ }

def finish (a : HedgeArm) (response : Option R) (heuristicResult : Option AnalysisResult)
    (ctxErr err : Option GoError) (r : ArmRun R) : ArmRun R :=
  let ctx := { r.ctx with response := response, heuristicResult := heuristicResult, err := ctxErr }
  { r with ctx := ctx, stage := .returned ⟨a,err,ctx⟩ }

end ArmRun

inductive HedgeWait where
  | delay
  | suppressed
  | racing
  | ruledOut
  | returned (err : Option GoError)
  deriving DecidableEq

structure HedgeView where
  now : Int
  owners : Owners
  operatorAware : Bool
  rehedge : Bool
  allStale : Option (List EndpointAddr → Bool)

namespace HedgeView

variable (v : HedgeView)

def narrowsIntoStale (narrowed full : List EndpointAddr) : Bool :=
  match v.allStale with
  | none => false
  | some allStale => allStale narrowed && !allStale full

def hedgeEndpoints (P : Platform) (full : List EndpointAddr) (primary : EndpointAddr) :
    List EndpointAddr :=
  let excluded := EndpointAddr.exclude full ((∅ : GoMap EndpointAddr Unit).put primary ())
  if v.operatorAware then
    let narrowed := EndpointAddr.excludeAffiliates P v.owners excluded
      (.affiliatesOf P v.owners [primary])
    if v.narrowsIntoStale narrowed full then excluded else narrowed
  else excluded

def rehedgeEndpoints (P : Platform) (full tried : List EndpointAddr) :
    Option (List EndpointAddr) :=
  let affiliates := Affiliates.affiliatesOf P v.owners tried
  let left := full.filter fun ep => !affiliates.contains P v.owners ep
  if left = [] ∨ v.narrowsIntoStale left full = true then none else some left

end HedgeView

structure HedgeGate where
  quorumArm : Bool
  hedgeFlag : Bool
  hedgeDelay : Int
  hedgeMaxBatchSize : Int
  batchSize : Int
  provider : Option (Except GoError (List EndpointAddr))
  now : Int

def HedgeGate.races (g : HedgeGate) : Bool :=
  !g.quorumArm && g.hedgeFlag && decide (g.hedgeDelay ≠ 0) &&
    hedgesBatchOf g.hedgeMaxBatchSize g.batchSize

structure HedgeRace (R : Type) where
  ctx : RelayContext R
  ended : Option ContextEnd
  wait : HedgeWait
  arm : HedgeArm → Option (ArmRun R)
  primaryCh : Option (HedgeResult R)
  hedgeCh : Option (HedgeResult R)
  primaryRes : Option (HedgeResult R)
  hedgeRes : Option (HedgeResult R)
  hedgeDone : Bool
  rehedged : Bool
  recorded : List GoString
  received : List (HedgeResult R)
  merged : List (HedgeResult R)

inductive HedgeAct (R : Type) where
  | select (a : HedgeArm) (v : SelectView)
  | finish (a : HedgeArm) (response : Option R) (heuristicResult : Option AnalysisResult)
      (ctxErr err : Option GoError)
  | report (a : HedgeArm)
  | contextEnds (e : ContextEnd)
  | delayElapses (v : HedgeView)
  | receivePrimary
  | receiveHedge (v : HedgeView)
  | seeDone

namespace HedgeRace

variable {R : Type}

def start (g : HedgeGate) (ctx : RelayContext R) : HedgeRace R :=
  let ctx := { ctx with endpoints := fillFrom g.provider ctx.endpoints }
  { ctx := ctx
    ended := none
    wait := .delay
    arm := Function.update (fun _ => none) .primary (some (.launch ctx g.now))
    primaryCh := none
    hedgeCh := none
    primaryRes := none
    hedgeRes := none
    hedgeDone := false
    rehedged := false
    recorded := []
    received := []
    merged := [] }

def setArm (s : HedgeRace R) (a : HedgeArm) (r : ArmRun R) : HedgeRace R :=
  { s with arm := Function.update s.arm a (some r) }

def selected (s : HedgeRace R) (a : HedgeArm) : Option EndpointAddr :=
  (s.arm a).bind ArmRun.selectedEndpoint

def hedgeSelected (s : HedgeRace R) : Option EndpointAddr :=
  if (s.arm .rehedge).isSome then s.selected .rehedge else s.selected .hedge

def channel (s : HedgeRace R) : HedgeArm → Option (HedgeResult R)
  | .primary => s.primaryCh
  | .hedge => s.hedgeCh
  | .rehedge => s.hedgeCh

def send (s : HedgeRace R) (a : HedgeArm) (res : HedgeResult R) : HedgeRace R :=
  match a with
  | .primary => { s with primaryCh := some res }
  | .hedge => { s with hedgeCh := some res }
  | .rehedge => { s with hedgeCh := some res }

def merge (s : HedgeRace R) (res : HedgeResult R) : HedgeRace R :=
  { s with ctx := mergeContext s.ctx res.ctx, merged := s.merged ++ [res] }

def record (s : HedgeRace R) (label : String) : HedgeRace R :=
  { s with recorded := s.recorded ++ [label.toList] }

def returning (s : HedgeRace R) (err : Option GoError) : HedgeRace R :=
  { s with wait := .returned err }

def hedgeWon (s : HedgeRace R) : String := if s.rehedged then "rehedge_won" else "hedge_won"

def launchHedge (s : HedgeRace R) (v : HedgeView) (a : HedgeArm)
    (endpoints : List EndpointAddr) : HedgeRace R :=
  s.setArm a (.launch (hedgeClone s.ctx endpoints) v.now)

def primaryPick (s : HedgeRace R) : Option EndpointAddr :=
  (s.selected .primary).filter fun p => decide (p ≠ [])

def hedgeList (P : Platform) (v : HedgeView) (s : HedgeRace R) : List EndpointAddr :=
  match s.primaryPick with
  | none => s.ctx.endpoints
  | some primary => v.hedgeEndpoints P s.ctx.endpoints primary

def delayElapsed (P : Platform) (v : HedgeView) (s : HedgeRace R) : HedgeRace R :=
  if s.primaryPick.isSome && v.narrowsIntoStale (s.hedgeList P v) s.ctx.endpoints then
    { s.record "suppressed_stale" with wait := .suppressed }
  else { s.launchHedge v .hedge (s.hedgeList P v) with wait := .racing }

def settle (s : HedgeRace R) : HedgeRace R :=
  match s.primaryRes with
  | some res =>
      if s.hedgeDone then ((s.merge res).record "both_failed").returning res.err else s
  | none => s

def tryRehedge (P : Platform) (v : HedgeView) (res : HedgeResult R) (s : HedgeRace R) :
    HedgeRace R :=
  if s.primaryRes.isNone && !s.rehedged && v.rehedge then
    let s := { s with rehedged := true }
    match v.rehedgeEndpoints P s.ctx.endpoints
        (res.ctx.endpoint :: (s.selected .primary).toList) with
    | some left => { s.launchHedge v .rehedge left with hedgeDone := false }
    | none => s
  else s

def racePrimary (res : HedgeResult R) (s : HedgeRace R) : HedgeRace R :=
  let s := { s with primaryRes := some res }
  if res.err.isNone then ((s.merge res).record "primary_won").returning none
  else
    match s.hedgeDone,s.hedgeRes with
    | true,some won =>
        if won.err.isNone then ((s.merge won).record s.hedgeWon).returning none else s.settle
    | _,_ => s.settle

def hedgeFailed (P : Platform) (v : HedgeView) (res : HedgeResult R) (s : HedgeRace R) :
    HedgeRace R :=
  match s.primaryRes with
  | some won =>
      if won.err.isNone then ((s.merge won).record "primary_won").returning none
      else (s.tryRehedge P v res).settle
  | none => (s.tryRehedge P v res).settle

def suppressRuledOut (s : HedgeRace R) : HedgeRace R :=
  let s := s.record "suppressed_ruled_out"
  match s.primaryRes with
  | some res => (s.merge res).returning res.err
  | none => { s with wait := .ruledOut }

def raceHedge (P : Platform) (v : HedgeView) (res : HedgeResult R) (s : HedgeRace R) :
    HedgeRace R :=
  if (res.err.any fun e => e.errorsIs errHedgeRuledOut.outer) && !s.rehedged then
    s.suppressRuledOut
  else
    let s := { s with hedgeRes := some res, hedgeDone := true }
    if res.err.isNone then ((s.merge res).record s.hedgeWon).returning none
    else s.hedgeFailed P v res

def receivePrimary (res : HedgeResult R) (s : HedgeRace R) : Option (HedgeRace R) :=
  let s := { s with primaryCh := none, received := s.received ++ [res] }
  match s.wait with
  | .delay =>
      let s := s.merge res
      some ((if res.err.isNone then s.record "primary_before_delay" else s).returning res.err)
  | .suppressed => some ((s.merge res).returning res.err)
  | .racing => some (s.racePrimary res)
  | .ruledOut => some (({ s with primaryRes := some res }.merge res).returning res.err)
  | .returned _ => none

def receiveHedge (P : Platform) (v : HedgeView) (res : HedgeResult R) (s : HedgeRace R) :
    Option (HedgeRace R) :=
  match s.wait with
  | .racing =>
      some (({ s with hedgeCh := none, received := s.received ++ [res] }).raceHedge P v res)
  | _ => none

def picksInFlight (s : HedgeRace R) : List (Option EndpointAddr) :=
  match s.wait with
  | .racing => [s.selected .primary,s.hedgeSelected]
  | _ => [s.selected .primary]

def seeDone (e : ContextEnd) (s : HedgeRace R) : Option (HedgeRace R) :=
  match s.wait with
  | .returned _ => none
  | _ =>
      let (ctx,err) := deadlineInFlight s.ctx e s.picksInFlight
      some { s with ctx := ctx, wait := .returned (some err) }

def step (P : Platform) (s : HedgeRace R) : HedgeAct R → Option (HedgeRace R)
  | .select a v => (s.arm a).bind fun r =>
      match r.stage,r.selectedEndpoint with
      | .running,none => some (s.setArm a (r.select a v))
      | _,_ => none
  | .finish a response heuristicResult ctxErr err => (s.arm a).bind fun r =>
      match r.stage with
      | .running => some (s.setArm a (r.finish a response heuristicResult ctxErr err))
      | _ => none
  | .report a => (s.arm a).bind fun r =>
      match r.stage,s.channel a with
      | .returned res,none => some ((s.setArm a { r with stage := .reported res }).send a res)
      | _,_ => none
  | .contextEnds e => if s.ended.isNone then some { s with ended := some e } else none
  | .delayElapses v =>
      match s.wait with
      | .delay => some (s.delayElapsed P v)
      | _ => none
  | .receivePrimary => s.primaryCh.bind fun res => s.receivePrimary res
  | .receiveHedge v => s.hedgeCh.bind fun res => s.receiveHedge P v res
  | .seeDone => s.ended.bind fun e => s.seeDone e

end HedgeRace

end SageGateway
