import SageGateway.Relay.CanonicalBody
import SageGateway.Relay.Hedge
import Mathlib.Data.List.Sort

namespace SageGateway

def GoError.clientMessage (err : GoError) : GoString :=
  let found := err.chain.findSome? fun
    | .relay kind message _ => some (kind,message)
    | _ => none
  match found with
  | some (kind,message) =>
      if message = [] then "relay failed".toList else kind.text ++ ": ".toList ++ message
  | none => "relay failed".toList

def headerQuorumModeUsed : GoString := "X-Quorum-Mode".toList

def headerQuorumArms : GoString := "X-Quorum-Count".toList

def headerQuorumAchieved : GoString := "X-Quorum-Achieved".toList

def headerQuorumMajority : GoString := "X-Quorum-Majority".toList

inductive QuorumMode where
  | consensus
  | collect
  deriving DecidableEq

def QuorumMode.text : QuorumMode → GoString
  | .consensus => "consensus".toList
  | .collect => "collect".toList

def defaultQuorum : Int := 3

def maxQuorum : Int := 9

def decimal : Nat → GoString → Option Nat
  | n,[] => some n
  | n,c :: s =>
      if 48 ≤ c.toNat ∧ c.toNat ≤ 57 then decimal (10 * n + (c.toNat - 48)) s else none

def atoiUnsigned (limit : Nat) (s : GoString) : Option Nat :=
  if s = [] then none else (decimal 0 s).filter fun n => n < limit

def maxInt : Nat := 9223372036854775807

-- strconv.Atoi: an optional sign, decimal digits, in the range of an int.
def atoi : GoString → Option Int
  | [] => none
  | c :: s =>
      if c = '-' then (atoiUnsigned (maxInt + 2) s).map fun n => -(n : Int)
      else
        let digits := if c = '+' then s else c :: s
        (atoiUnsigned (maxInt + 1) digits).map fun n => (n : Int)

def quorumSize (header : GoString) : Nat :=
  let n := (atoi (GoString.trimSpace header)).getD defaultQuorum
  let n := if n < defaultQuorum then defaultQuorum else n
  let n := if maxQuorum < n then maxQuorum else n
  (if n % 2 = 0 then n - 1 else n).toNat

structure OperatorGroup where
  operator : GoString
  endpoints : List EndpointAddr
  vouched : Bool
  best : Rat
  deriving DecidableEq

structure ScoreView where
  getScore : EndpointAddr → Option Rat
  vouched : EndpointAddr → Bool

namespace OperatorGroup

def weigh (v : ScoreView) (ep : EndpointAddr) (g : OperatorGroup) : OperatorGroup :=
  match v.getScore ep with
  | none => g
  | some score =>
      if v.vouched ep && !g.vouched then { g with vouched := true, best := score }
      else if v.vouched ep == g.vouched && g.best.blt score then { g with best := score }
      else g

def join (repSvc : Option ScoreView) (ep : EndpointAddr) (g : OperatorGroup) : OperatorGroup :=
  let g := { g with endpoints := g.endpoints ++ [ep] }
  match repSvc with
  | none => g
  | some v => g.weigh v ep

def before (a b : OperatorGroup) : Bool :=
  if a.vouched != b.vouched then a.vouched
  else if b.best.blt a.best then true
  else if a.best.blt b.best then false
  else !Json.keyLt b.operator a.operator

end OperatorGroup

def groupOperators (P : Platform) (repSvc : Option ScoreView) (pool : List EndpointAddr) :
    List OperatorGroup :=
  pool.foldl (fun groups ep =>
    let op := ep.operator P
    if groups.any fun g => g.operator = op then
      groups.map fun g => if g.operator = op then g.join repSvc ep else g
    else groups ++ [OperatorGroup.join repSvc ep ⟨op,[],false,-1⟩]) []

def oddArms (take : Nat) : Nat := if 2 < take ∧ take % 2 = 0 then take - 1 else take

def topOperators (P : Platform) (repSvc : Option ScoreView) (pool : List EndpointAddr) (n : Nat) :
    List OperatorGroup :=
  let groups := (groupOperators P repSvc pool).insertionSort fun a b => a.before b = true
  groups.take (oddArms (if n ≤ groups.length then n else groups.length))

structure QuorumRequest where
  countHeader : GoString
  modeHeader : GoString
  enabled : Bool
  payloads : Nat
  isGRPC : Bool
  isImmutable : Bool
  pool : Except GoError (List EndpointAddr)
  repSvc : Option ScoreView

inductive QuorumPlan where
  | passes (skipped : Option GoString)
  | rejects (modeHeader : GoString)
  | fails (err : GoError)
  | runs (mode : QuorumMode) (outcome : GoString) (groups : List OperatorGroup)
  deriving DecidableEq

namespace QuorumRequest

variable (P : Platform) (q : QuorumRequest)

def mode : Option QuorumMode :=
  let mode := (GoString.trimSpace q.modeHeader).map Char.toLower
  if mode = [] ∨ mode = QuorumMode.consensus.text then some .consensus
  else if mode = QuorumMode.collect.text then some .collect
  else none

def skipped : Option GoString :=
  if !q.enabled then some "disabled".toList
  else if q.payloads ≠ 1 then some "batch".toList
  else if q.isGRPC then some "rpc_type".toList
  else none

def launch (mode : QuorumMode) (outcome : GoString) : QuorumPlan :=
  match q.pool with
  | .error err => .fails err
  | .ok pool =>
      let groups := topOperators P q.repSvc pool (quorumSize q.countHeader)
      if groups = [] then
        .fails (.newRelayError .protocol "no endpoint available for service".toList none false)
      else .runs mode outcome groups

def plan : QuorumPlan :=
  if q.countHeader = [] ∧ q.modeHeader = [] then .passes none
  else
    match q.mode with
    | none => .rejects q.modeHeader
    | some mode =>
        match q.skipped with
        | some reason => .passes (some reason)
        | none =>
            if mode = .consensus ∧ q.isImmutable = false then
              q.launch P .collect "collect_not_immutable".toList
            else q.launch P mode []

end QuorumRequest

structure Response where
  body : Json.Bytes
  httpStatusCode : Int
  deriving DecidableEq

section Digest

variable {D : Type} (sha256 : Json.Bytes → D)

def answerDigest (resp : Response) : D :=
  let status := if resp.httpStatusCode = 0 then 200 else resp.httpStatusCode
  sha256 (Json.ascii (toString status) ++ 10 :: canonicalBody resp.body)

end Digest

structure ArmResult where
  index : Nat
  ctx : RelayContext Response
  err : Option GoError

inductive QuorumBody where
  | json (raw : Json.Bytes)
  | text (raw : Json.Bytes)
  deriving DecidableEq

def rawJSON (body : Json.Bytes) : Option QuorumBody :=
  if body = [] then none
  else if (Json.decode body).any fun r => (Json.skip r.2).isEmpty then some (.json body)
  else some (.text body)

structure QuorumAnswer where
  operator : GoString
  httpStatus : Int
  body : Option QuorumBody
  error : GoString
  deriving DecidableEq

def quorumAnswer (g : OperatorGroup) : Option ArmResult → QuorumAnswer
  | none => ⟨g.operator,0,none,"no answer before the deadline".toList⟩
  | some r =>
      { operator := g.operator
        httpStatus := (r.ctx.response.map Response.httpStatusCode).getD 0
        body := r.ctx.response.bind fun resp => rawJSON resp.body
        error := (r.err.map GoError.clientMessage).getD [] }

structure QuorumEnvelope where
  count : Nat
  responses : List QuorumAnswer
  deriving DecidableEq

def collectEnvelope (groups : List OperatorGroup) (done : List (Option ArmResult)) :
    QuorumEnvelope :=
  ⟨groups.length,List.zipWith quorumAnswer groups done⟩

inductive QuorumReply where
  | majority
  | envelope (e : QuorumEnvelope)
  | failed (err : GoError)
  deriving DecidableEq

structure QuorumWait (D : Type) where
  mode : QuorumMode
  outcome : GoString
  groups : List OperatorGroup
  ctx : RelayContext Response
  votes : GoMap D (List ArmResult)
  voted : Nat
  voters : Affiliates
  done : List (Option ArmResult)
  answered : Nat
  received : Nat
  ended : Option ContextEnd
  headers : List (GoString × GoString)
  recorded : List GoString
  dissent : Option Nat
  reply : Option QuorumReply

inductive QuorumAct where
  | receive (r : ArmResult) (owners : Owners)
  | contextEnds (e : ContextEnd)
  | leave

namespace QuorumWait

variable {D : Type} [DecidableEq D] (sha256 : Json.Bytes → D) (P : Platform)

def start (mode : QuorumMode) (outcome : GoString) (groups : List OperatorGroup)
    (ctx : RelayContext Response) : QuorumWait D :=
  { mode := mode, outcome := outcome, groups := groups, ctx := ctx, votes := ∅, voted := 0
    voters := ⟨∅,∅⟩, done := List.replicate groups.length none, answered := 0, received := 0
    ended := none, headers := [], recorded := [], dissent := none, reply := none }

def need (s : QuorumWait D) : Nat := s.groups.length / 2 + 1

def agree (r : ArmResult) (agreed : Nat) (s : QuorumWait D) : QuorumWait D :=
  { s with
    ctx := mergeContext s.ctx r.ctx
    headers := s.headers ++
      [(headerQuorumModeUsed,QuorumMode.consensus.text),
        (headerQuorumArms,(toString s.groups.length).toList),
        (headerQuorumAchieved,(toString agreed).toList),
        (headerQuorumMajority,"true".toList)]
    recorded := s.recorded ++ ["majority".toList]
    dissent := if agreed < s.voted then some (s.voted - agreed) else none
    reply := some .majority }

def vote (owners : Owners) (r : ArmResult) (resp : Response) (s : QuorumWait D) : QuorumWait D :=
  if s.voters.contains P owners r.ctx.endpoint then s
  else
    let digest := answerDigest sha256 resp
    let cast := (s.votes.get digest).getD [] ++ [r]
    let s := { s with voted := s.voted + 1, voters := s.voters.add P owners r.ctx.endpoint
                      votes := s.votes.put digest cast }
    if cast.length < s.need then s else s.agree r cast.length

def receive (owners : Owners) (r : ArmResult) (s : QuorumWait D) : QuorumWait D :=
  let s := { s with done := s.done.set r.index (some r), received := s.received + 1 }
  match r.err,r.ctx.response with
  | none,some resp =>
      let s := { s with answered := s.answered + 1 }
      if s.mode = .consensus then s.vote sha256 P owners r resp else s
  | _,_ => s

def collectOutcome (s : QuorumWait D) : GoString :=
  if s.outcome ≠ [] then s.outcome
  else if s.ended.isSome then "timeout".toList
  else if s.mode = .consensus then "no_majority".toList
  else "collect".toList

def collect (s : QuorumWait D) : QuorumWait D :=
  { s with
    ctx := { s.ctx with err := none }
    headers := s.headers ++
      [(headerQuorumModeUsed,QuorumMode.collect.text),
        (headerQuorumArms,(toString s.groups.length).toList),
        (headerQuorumAchieved,(toString s.answered).toList)] ++
      (if s.mode = .consensus then [(headerQuorumMajority,"false".toList)] else [])
    recorded := s.recorded ++ [s.collectOutcome]
    reply := some (.envelope (collectEnvelope s.groups s.done)) }

def conclude (s : QuorumWait D) : QuorumWait D :=
  match s.ended with
  | some e =>
      if s.answered = 0 then
        { s with recorded := s.recorded ++ ["timeout".toList]
                 reply := some (.failed (ctxDoneError e)) }
      else s.collect
  | none => s.collect

def step (s : QuorumWait D) : QuorumAct → Option (QuorumWait D)
  | .receive r owners =>
      if s.reply.isNone && decide (s.received < s.groups.length) &&
          (s.done[r.index]?).any Option.isNone then
        some (s.receive sha256 P owners r)
      else none
  | .contextEnds e => if s.ended.isNone then some { s with ended := some e } else none
  | .leave =>
      if s.reply.isNone && (decide (s.groups.length ≤ s.received) || s.ended.isSome) then
        some s.conclude
      else none

end QuorumWait

end SageGateway
