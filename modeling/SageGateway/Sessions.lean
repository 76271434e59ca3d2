import SageGateway.Domain
import SageGateway.Lib.GoMap
import SageGateway.Lib.GoTime

namespace SageGateway

inductive ChainRPCType where
  | unknownRPC
  | grpc
  | webSocket
  | jsonRPC
  | rest
  | cometBFT
  deriving DecidableEq

structure SupplierEndpoint where
  supplier : GoString
  rpcType : ChainRPCType
  url : GoString
  deriving DecidableEq

structure ChainSupplier where
  operatorAddress : GoString
  ownerAddress : GoString
  deriving DecidableEq

structure SessionHeader where
  serviceID : GoString
  sessionEndBlockHeight : Int
  deriving DecidableEq

structure ChainSession where
  sessionID : GoString
  header : Option SessionHeader
  suppliers : List (Option ChainSupplier)
  allEndpoints : Option (GoMap GoString (List SupplierEndpoint))

structure HeadedSession where
  session : ChainSession
  header : SessionHeader
  carried : session.header = some header

namespace HeadedSession

def endHeight (s : HeadedSession) : Int := s.header.sessionEndBlockHeight

def check (session : ChainSession) : Option HeadedSession :=
  match h : session.header with
  | some header => some ⟨session,header,h⟩
  | none => none

end HeadedSession

def sessionCacheKey (serviceID appAddr : GoString) : GoString := serviceID ++ ':' :: appAddr

structure SessionHold where
  height : Int
  heldUntil : Int
  failed : Bool
  deriving DecidableEq

def sessionHoldMax : Int := 30 * GoTime.second

def sessionErrorHold : Int := 2 * GoTime.second

inductive FetchStage where
  | begun
  | asking (height : Int)
  | failed (height : Int)
  | fetched (height : Int) (session : HeadedSession)
  | compared (height : Int) (session : HeadedSession) (same : Bool)
  | storing (session : HeadedSession)
  | ending (result : Option HeadedSession)
  | returned (result : Option HeadedSession)

namespace FetchStage

def live : FetchStage → Bool
  | returned _ => false
  | _ => true

def carries : FetchStage → Option HeadedSession
  | fetched _ s => some s
  | compared _ s _ => some s
  | storing s => some s
  | _ => none

end FetchStage

structure Flight where
  key : GoString
  stage : FetchStage

inductive Want where
  | relay
  | dial
  | dialOr (ended : HeadedSession)
  | background (key : GoString)

inductive Caller where
  | getSession (key : GoString)
  | loaded (key : GoString) (cached : Option HeadedSession)
  | currentSession (key : GoString)
  | dialing (key : GoString) (cached : Option HeadedSession)
  | swapping (key : GoString) (ended : HeadedSession) (height : Int)
  | refreshing (key : GoString) (want : Want)
  | heldBack (key : GoString) (want : Want) (failed : Bool)
  | joining (key : GoString) (want : Want)
  | waiting (flight : Nat) (want : Want)
  | scheduling (key : GoString) (session : HeadedSession)
  | marking (key : GoString) (session : HeadedSession)
  | releasing (key : GoString)
  | returned (answer : Option HeadedSession)

namespace Want

def answered (r : Option HeadedSession) : Want → Caller
  | relay => .returned r
  | dial => .returned r
  | dialOr ended => .returned (some (r.getD ended))
  | background key => .releasing key

def canGiveUp : Want → Bool
  | dial => true
  | dialOr _ => true
  | _ => false

end Want

structure SessionManager where
  clock : Int
  latestBlockHeight : Int
  graceBlocks : Int
  sessionCache : GoMap GoString HeadedSession
  holds : GoMap GoString SessionHold
  bgRefreshing : GoMap GoString Unit
  wsAsked : GoMap GoString Int
  refreshGroup : GoMap GoString Nat
  flights : GoMap Nat Flight
  callers : GoMap Nat Caller

namespace SessionManager

def new (clock : Int) : SessionManager := ⟨clock,0,0,∅,∅,∅,∅,∅,∅,∅⟩

def held (sm : SessionManager) (key : GoString) : Option SessionHold :=
  (sm.holds.get key).filter fun h => sm.latestBlockHeight ≤ h.height && sm.clock < h.heldUntil

def hold (sm : SessionManager) (key : GoString) (height : Int) (failed : Bool) (jitter : Int) :
    Option SessionManager :=
  let base := if failed then sessionErrorHold else sessionHoldMax
  if 0 ≤ jitter ∧ jitter < base then
    some { sm with holds := sm.holds.put key ⟨height,sm.clock + base + jitter,failed⟩ }
  else none

def go (sm : SessionManager) (n : Nat) (c : Caller) : SessionManager :=
  { sm with callers := sm.callers.put n c }

def fly (sm : SessionManager) (id : Nat) (key : GoString) (stage : FetchStage) : SessionManager :=
  { sm with flights := sm.flights.put id ⟨key,stage⟩ }

def sameSession (sm : SessionManager) (key : GoString) (s : HeadedSession) : Bool :=
  (sm.sessionCache.get key).any fun prev => s.endHeight ≤ prev.endHeight

def forget (sm : SessionManager) (key : GoString) (id : Nat) : GoMap GoString Nat :=
  if sm.refreshGroup.get key = some id then sm.refreshGroup.del key else sm.refreshGroup

def doRefreshSession (sm : SessionManager) (id : Nat) (key : GoString)
    (answer : Option ChainSession) (jitter : Int) : FetchStage → Option SessionManager
  | .begun => some (sm.fly id key (.asking sm.latestBlockHeight))
  | .asking height =>
      match answer with
      | none => some (sm.fly id key (.failed height))
      | some session =>
          match HeadedSession.check session with
          | some s => some (sm.fly id key (.fetched height s))
          | none => some (sm.fly id key (.ending none))
  | .failed height => (sm.hold key height true jitter).map fun sm => sm.fly id key (.ending none)
  | .fetched height s => some (sm.fly id key (.compared height s (sm.sameSession key s)))
  | .compared height s true =>
      (sm.hold key height false jitter).map fun sm => sm.fly id key (.storing s)
  | .compared _ s false => some ({ sm with holds := sm.holds.del key }.fly id key (.storing s))
  | .storing s =>
      some ({ sm with sessionCache := sm.sessionCache.put key s }.fly id key (.ending (some s)))
  | .ending r => some ({ sm with refreshGroup := sm.forget key id }.fly id key (.returned r))
  | .returned _ => none

def getSession (sm : SessionManager) (n : Nat) (key : GoString) (s : HeadedSession) :
    SessionManager :=
  if sm.latestBlockHeight ≤ s.endHeight then sm.go n (.returned (some s))
  else if sm.latestBlockHeight ≤ s.endHeight + sm.graceBlocks then sm.go n (.scheduling key s)
  else sm.go n (.refreshing key .relay)

def currentSession (sm : SessionManager) (n : Nat) (key : GoString) (s : HeadedSession) :
    SessionManager :=
  if sm.latestBlockHeight ≤ s.endHeight then sm.go n (.getSession key)
  else if s.endHeight + sm.graceBlocks < sm.latestBlockHeight then sm.go n (.refreshing key .dial)
  else sm.go n (.swapping key s sm.latestBlockHeight)

def swapAsked (sm : SessionManager) (n : Nat) (key : GoString) (ended : HeadedSession)
    (height : Int) : SessionManager :=
  let asked := sm.wsAsked.get key
  let sm := { sm with wsAsked := sm.wsAsked.put key height }
  if asked = some height then sm.go n (.returned (some ended))
  else sm.go n (.refreshing key (.dialOr ended))

def join (sm : SessionManager) (n fresh : Nat) (key : GoString) (want : Want) :
    Option SessionManager :=
  match sm.refreshGroup.get key with
  | some id => some (sm.go n (.waiting id want))
  | none =>
      if sm.flights.has fresh then none
      else some (({ sm with refreshGroup := sm.refreshGroup.put key fresh }.fly
        fresh key .begun).go n (.waiting fresh want))

def scheduleBackgroundRefresh (sm : SessionManager) (n fresh : Nat) (key : GoString)
    (session : HeadedSession) : Option SessionManager :=
  if sm.bgRefreshing.has key then some (sm.go n (.returned (some session)))
  else if sm.callers.has fresh then none
  else some (({ sm with bgRefreshing := sm.bgRefreshing.put key () }.go n
    (.returned (some session))).go fresh (.refreshing key (.background key)))

def runCaller (sm : SessionManager) (n fresh : Nat) : Caller → Option SessionManager
  | .getSession key => some (sm.go n (.loaded key (sm.sessionCache.get key)))
  | .loaded key none => some (sm.go n (.refreshing key .relay))
  | .loaded key (some s) => some (sm.getSession n key s)
  | .currentSession key => some (sm.go n (.dialing key (sm.sessionCache.get key)))
  | .dialing key none => some (sm.go n (.getSession key))
  | .dialing key (some s) => some (sm.currentSession n key s)
  | .swapping key ended height => some (sm.swapAsked n key ended height)
  | .refreshing key want =>
      match sm.held key with
      | some h => some (sm.go n (.heldBack key want h.failed))
      | none => some (sm.go n (.joining key want))
  | .heldBack key want failed =>
      some (sm.go n (want.answered (if failed then none else sm.sessionCache.get key)))
  | .joining key want => sm.join n fresh key want
  | .waiting id want =>
      match sm.flights.get id with
      | some ⟨_,.returned r⟩ => some (sm.go n (want.answered r))
      | _ => none
  | .scheduling key s =>
      match sm.held key with
      | some _ => some (sm.go n (.returned (some s)))
      | none => some (sm.go n (.marking key s))
  | .marking key s => sm.scheduleBackgroundRefresh n fresh key s
  | .releasing key => some
    ({ sm with bgRefreshing := sm.bgRefreshing.del key }.go n (.returned none))
  | .returned _ => none

def giveUp (sm : SessionManager) (n : Nat) : Caller → Option SessionManager
  | .waiting _ want => if want.canGiveUp then some (sm.go n (want.answered none)) else none
  | _ => none

inductive Act where
  | tick (t : Int)
  | pollBlockHeight (height : Int)
  | setGraceBlocks (n : Int)
  | getSession (n : Nat) (serviceID appAddr : GoString)
  | currentSession (n : Nat) (serviceID appAddr : GoString)
  | caller (n fresh : Nat)
  | giveUp (n : Nat)
  | flight (id : Nat) (answer : Option ChainSession) (jitter : Int)

def call (sm : SessionManager) (n : Nat) (c : Caller) : Option SessionManager :=
  if sm.callers.has n then none else some (sm.go n c)

def step (sm : SessionManager) : Act → Option SessionManager
  | .tick t => if sm.clock ≤ t then some { sm with clock := t } else none
  | .pollBlockHeight height => some { sm with latestBlockHeight := height }
  | .setGraceBlocks n => some { sm with graceBlocks := if n < 0 then 0 else n }
  | .getSession n serviceID appAddr => sm.call n (.getSession (sessionCacheKey serviceID appAddr))
  | .currentSession n serviceID appAddr =>
      sm.call n (.currentSession (sessionCacheKey serviceID appAddr))
  | .caller n fresh => (sm.callers.get n).bind (sm.runCaller n fresh)
  | .giveUp n => (sm.callers.get n).bind (sm.giveUp n)
  | .flight id answer jitter =>
      (sm.flights.get id).bind fun f => sm.doRefreshSession id f.key answer jitter f.stage

end SessionManager

end SageGateway
