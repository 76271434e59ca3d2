import SageGateway.Domain
import SageGateway.Lib.GoMap
import SageGateway.Lib.Run

namespace SageGateway.Reputation

inductive SignalType where
  | success
  | minorError
  | majorError
  | criticalError
  | fatalError
  deriving DecidableEq

structure Signal where
  type : SignalType
  timestamp : Option Int
  latency : Int
  reason : GoString
  probe : Bool
  leftover : Bool
  weight : Int
  deriving DecidableEq

structure State (F : Type) where
  score : F
  rate : F
  attempts : UInt64
  trafficAttempts : UInt64
  latencyMS : F
  lastTraffic : Int
  updatedAt : Int
  timeoutHitAt : Int
  deriving DecidableEq

def State.stamp {F : Type} (st : State F) (now : Int) : State F := { st with updatedAt := now }

abbrev ServiceName := { s : GoString // ':' ∉ s }

def scoreKey (svc : ServiceName) (key : GoString) : GoString := svc.1 ++ ':' :: key

structure Scoring (F : Type) where
  impact : SignalType → F
  rateEnabled : Bool
  lambda : F
  penalty : F → F
  minThreshold : F
  initialScoreOf : ServiceName → GoString → F

structure Config (F : Type) where
  initialScore : F
  maxScore : F
  half : F
  pow : F → Int → F
  fadeWS : Int → F
  millis : Int → F
  latencyAlpha : F
  keyOf : EndpointAddr → RPCType → GoString
  shardOf : GoString → Fin 32
  isLeader : Bool
  storageUp : Bool

structure Service (F : Type) where
  cache : GoMap (ServiceName × GoString) (State F)
  pending : GoMap GoString (State F)
  storage : GoMap GoString (State F)

section Signals

variable {F : Type} [Zero F] [One F] [Add F] [Sub F] [Mul F] [LT F] [DecidableLT F] [DecidableEq F]

def State.start (score : F) : State F := ⟨score,0,0,0,0,0,0,0⟩

def secondsOf (ts : Int) : Int := ts / 1000000000

def millisOf (ts : Int) : Int := ts / 1000000

def probeDefer : Int := 600

def timeoutCoalesce : Int := 1000

def reasonTransportTimeout : GoString := "transport_timeout".toList

variable (cfg : Config F) (sc : Scoring F)

def clamp (score : F) : F :=
  let capped := if score < cfg.maxScore then score else cfg.maxScore
  if 0 < capped then capped else 0

def failureWeight : SignalType → F
  | .criticalError => 1
  | .fatalError => 1
  | .majorError => cfg.half
  | .minorError => 0
  | .success => 0

def decayWSRate (rate : F) (last ts : Int) : F :=
  if rate = 0 ∨ last = 0 then rate
  else if ts - last * 1000000000 ≤ 0 then rate
  else rate * cfg.fadeWS (ts - last * 1000000000)

def deferred (prev : State F) (ts : Int) (signal : Signal) : Bool :=
  signal.probe && signal.type = .success && !decide (prev.score < sc.minThreshold) &&
    0 < prev.lastTraffic && secondsOf ts - prev.lastTraffic < probeDefer

def isTimeout (signal : Signal) : Bool :=
  signal.type = .majorError && signal.reason = reasonTransportTimeout

def coalesced (prev : State F) (ts : Int) (signal : Signal) : Bool :=
  isTimeout signal && prev.timeoutHitAt ≠ 0 && millisOf ts - prev.timeoutHitAt < timeoutCoalesce

def stepScore (prev : State F) (ts : Int) (signal : Signal) : State F :=
  if deferred sc prev ts signal || coalesced prev ts signal then prev
  else { prev with
    score := clamp cfg (prev.score + sc.impact signal.type)
    timeoutHitAt := if isTimeout signal then millisOf ts else prev.timeoutHitAt }

def stepRate (prev : State F) (ts : Int) (t : RPCType) (signal : Signal) : F :=
  let rate := if t = .webSocket then decayWSRate cfg prev.rate prev.updatedAt ts else prev.rate
  if sc.rateEnabled && prev.score ≠ 0 && !deferred sc prev ts signal && !signal.leftover then
    if failureWeight cfg signal.type = 0 ∧ 1 < signal.weight then
      rate * cfg.pow (1 - sc.lambda) signal.weight
    else rate + sc.lambda * (failureWeight cfg signal.type - rate)
  else rate

def stepLatency (prev : F) (signal : Signal) : F :=
  if signal.type = .success ∧ 0 < signal.latency then
    if prev = 0 then cfg.millis signal.latency
    else prev + cfg.latencyAlpha * (cfg.millis signal.latency - prev)
  else prev

def applySignal (prev : State F) (ts : Int) (t : RPCType) (signal : Signal) : State F :=
  let scored := stepScore cfg sc prev ts signal
  let counted := { scored with
    rate := stepRate cfg sc prev ts t signal
    attempts := prev.attempts + 1
    updatedAt := secondsOf ts }
  if signal.probe then counted
  else { counted with
    trafficAttempts := prev.trafficAttempts + 1
    lastTraffic := secondsOf ts
    latencyMS := stepLatency cfg prev.latencyMS signal }

end Signals

section Targets

def sameURL (a b : GoString) : Bool :=
  GoString.trimSuffixChar '/' a = GoString.trimSuffixChar '/' b

def identOf (key : GoString) : GoString := ((GoString.cutLast '|' key).map Prod.fst).getD key

def hostOf (s : GoString) : GoString := EndpointAddr.hostOfURL s

def schemeWithoutDash (target : GoString) : Bool :=
  match GoString.cutText "://".toList target with
  | some (before,_) => '-' ∉ before
  | none => false

def resetTargets (key target : GoString) : Bool :=
  if target = [] then false
  else if key = target then true
  else if sameURL (identOf key) target then true
  else
    let host := hostOf (identOf key)
    if host ≠ [] ∧ host = hostOf target ∧ '/' ∉ target ∧ '|' ∉ target then true
    else if schemeWithoutDash target then false
    else
      (match EndpointAddr.url target with
        | some url => sameURL url (identOf key) || (host ≠ [] && hostOf url = host)
        | none => false) || EndpointAddr.supplier target = identOf key

end Targets

end SageGateway.Reputation
