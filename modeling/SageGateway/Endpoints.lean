import SageGateway.Blocklist
import SageGateway.Lib.NetIP

namespace SageGateway

abbrev ServiceID := GoString

structure Endpoint where
  supplierAddr : GoString
  ownerAddr : GoString
  urls : GoMap RPCType GoString
  sessionEnd : Option Int
  known : urls.get .unknown = none

namespace Endpoint

def getURL (e : Endpoint) (t : RPCType) : Option GoString :=
  match e.urls.get t with
  | some u => if u = [] then none else some u
  | none => none

def urlPreference : List RPCType := [.jsonRPC,.rest,.cometBFT,.grpc,.webSocket]

def lowestURL (e : Endpoint) : GoString :=
  e.urls.entries.foldl (fun lowest u =>
    if u.2 ≠ [] ∧ (lowest = [] ∨ u.2 < lowest) then u.2 else lowest) []

def publicURL (e : Endpoint) : GoString :=
  (urlPreference.findSome? e.getURL).getD e.lowestURL

def addr (e : Endpoint) : EndpointAddr := e.supplierAddr ++ '-' :: e.publicURL

theorem getURL_unknown (e : Endpoint) : e.getURL .unknown = none := by
  simp [getURL,e.known]

end Endpoint

structure EndpointPolicy where
  requireHTTPS : Bool
  requireDomain : Bool

namespace EndpointPolicy

def isSecureURL (url : GoString) : Bool :=
  "https://".toList.isPrefixOf url || "wss://".toList.isPrefixOf url

def hostOf (u : GoString) : GoString :=
  let noScheme := ((GoString.cutText "://".toList u).map Prod.snd).getD u
  let noPath := GoString.beforeFirst '/' noScheme
  match noPath, GoString.cut ']' noPath with
  | '[' :: _, some (inner,_) => inner.drop 1
  | _, _ => ((GoString.cutLast ':' noPath).map Prod.fst).getD noPath

def isRawIPHost (host : GoString) : Bool :=
  host ≠ [] && match NetIP.Addr.parseAddr host with
    | some (.v4 _) => true
    | some (.v6 _ zone) => zone = []
    | none => false

def policyRejects (p : EndpointPolicy) (url : GoString) : Bool :=
  (p.requireHTTPS && !isSecureURL url) || (p.requireDomain && isRawIPHost (hostOf url))

end EndpointPolicy

structure Blacklist where
  blocked : GoMap (ServiceID × GoString) Int

def Blacklist.isBlacklisted (b : Blacklist) (now : Int) (svc : ServiceID) (addr : GoString) :
    Bool :=
  match b.blocked.get (svc,addr) with
  | some expiry => now < expiry
  | none => false

structure Protocol (P : Platform) where
  rpcFallbacks : GoMap ServiceID (GoMap RPCType RPCType)
  blockedDomains : Option (DomainBlocklist P)
  drains : Option (ServiceID → GoString → RPCType → Bool)
  blockedSuppliers : GoMap ServiceID (GoMap GoString Unit)
  endpointPolicy : EndpointPolicy
  overServed : Option (GoMap (ServiceID × GoString × Int) Unit)
  bl : Blacklist
  ruledOut : Option (ServiceID → EndpointAddr → RPCType → Bool)
  validated : ∀ svc m, rpcFallbacks.get svc = some m → m.get .unknown = none

inductive Verdict where
  | excluded
  | benched
  | offered
  deriving DecidableEq

inductive PoolError where
  | noApp
  | noSession
  deriving DecidableEq

abbrev Session := GoMap EndpointAddr Endpoint

def anyStakes (eps : List (EndpointAddr × Endpoint)) (t : RPCType) : Bool :=
  eps.any fun e => (e.2.getURL t).isSome

namespace Protocol

variable {P : Platform} (p : Protocol P) (now : Int) (svc : ServiceID)

def resolve (t : RPCType) : Option RPCType := (p.rpcFallbacks.get svc).bind fun m => m.get t

def endpointURL (ep : Endpoint) (t : RPCType) : Option GoString :=
  match ep.getURL t with
  | some u => some u
  | none => (p.resolve svc t).bind ep.getURL

def operatorOf (P : Platform) (url : GoString) : GoString :=
  P.toLower (EndpointAddr.operator P ('-' :: url))

def drained (url : GoString) (t : RPCType) : Bool :=
  match p.drains with
  | some d => d svc (operatorOf P url) t
  | none => false

def supplierBlocked (supplier : GoString) : Bool :=
  match p.blockedSuppliers.get svc with
  | some set => set.has supplier
  | none => false

def overServedOut (ep : Endpoint) : Bool :=
  match p.overServed, ep.sessionEnd with
  | some o, some sessionEnd => o.has (svc,ep.supplierAddr,sessionEnd)
  | _, _ => false

def judge (ep : Endpoint) (url : GoString) (t : RPCType) : Verdict :=
  if (DomainBlocklist.isBlockedEndpoint p.blockedDomains url ep.ownerAddr t).1 then .excluded
  else if p.drained svc url t then .excluded
  else if p.supplierBlocked svc ep.supplierAddr then .excluded
  else if p.endpointPolicy.policyRejects url then .excluded
  else if p.overServedOut svc ep then .excluded
  else if p.bl.isBlacklisted now svc ep.supplierAddr then .benched
  else .offered

def candidateURL (t lookupType : RPCType) (skipStakers : Bool) (ep : Endpoint) : Option GoString :=
  if t = .unknown then some ep.publicURL
  else if skipStakers && (ep.getURL t).isSome then none
  else ep.getURL lookupType

def collect (filtered : Bool) (t lookupType : RPCType) (skipStakers : Bool) :
    List (EndpointAddr × Endpoint) → List EndpointAddr × List EndpointAddr
  | [] => ([],[])
  | (addr,ep) :: rest =>
      let (result,benched) := collect filtered t lookupType skipStakers rest
      match candidateURL t lookupType skipStakers ep with
      | none => (result,benched)
      | some url =>
          if filtered then
            match p.judge now svc ep url t with
            | .excluded => (result,benched)
            | .benched => (result,addr :: benched)
            | .offered => (addr :: result,benched)
          else (addr :: result,benched)

def unusable (t : RPCType) (pool : List EndpointAddr) (byReputation : Bool) : Bool :=
  pool = [] || match p.ruledOut with
    | some f => byReputation && pool.all fun ep => f svc ep t
    | none => false

def requestedFallback (t : RPCType) : Option RPCType :=
  if t = .unknown then none else p.resolve svc t

def lookupType (order : List (EndpointAddr × Endpoint)) (t : RPCType) : RPCType :=
  match p.requestedFallback svc t with
  | some fallback => if anyStakes order t then t else fallback
  | none => t

def secondPass (filtered byReputation : Bool) (order order' : List (EndpointAddr × Endpoint))
    (t : RPCType) (pass : List EndpointAddr × List EndpointAddr) :
    List EndpointAddr × List EndpointAddr :=
  match p.requestedFallback svc t with
  | some fallback =>
      if filtered ∧ p.lookupType svc order t = t ∧ p.unusable svc t pass.1 byReputation then
        let fb := p.collect now svc filtered t fallback true order'
        if fb.1 = [] then pass else fb
      else pass
  | none => pass

def offer (filtered byReputation : Bool) (order order' : List (EndpointAddr × Endpoint))
    (t : RPCType) : List EndpointAddr :=
  let (result,benched) := p.secondPass now svc filtered byReputation order order' t
    (p.collect now svc filtered t (p.lookupType svc order t) false order)
  if filtered ∧ result = [] then benched else result

def endpoints (session : Except PoolError Session)
    (iter iter' : Session → List (EndpointAddr × Endpoint)) (filtered byReputation : Bool)
    (t : RPCType) : Except PoolError (List EndpointAddr) :=
  match session with
  | .ok s => .ok (p.offer now svc filtered byReputation (iter s) (iter' s) t)
  | .error e => .error e

def availableEndpoints (session : Except PoolError Session)
    (iter iter' : Session → List (EndpointAddr × Endpoint)) (t : RPCType) :
    Except PoolError (List EndpointAddr) :=
  p.endpoints now svc session iter iter' true true t

end Protocol

end SageGateway
