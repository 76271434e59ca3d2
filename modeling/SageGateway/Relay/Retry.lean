import SageGateway.Lib.GoTime
import SageGateway.Relay.Context

namespace SageGateway

structure RetryConfig where
  maxRetries : Int
  maxLatency : Int

def retryBudgetFraction : Int := 5

def budgetForRetry (deadline : Option Int) (start now : Int) : Bool :=
  match deadline with
  | none => true
  | some deadline =>
      decide ((GoTime.sub deadline start).tdiv retryBudgetFraction ≤ GoTime.sub deadline now)

def perAttemptDeadline (deadline : Option Int) (now : Int) (attemptsLeft : Nat) : Option Int :=
  match deadline with
  | none => none
  | some deadline =>
      let remaining := GoTime.sub deadline now
      if attemptsLeft ≤ 1 ∨ remaining ≤ 0 then some deadline
      else some (min deadline (now + remaining.tdiv attemptsLeft))

def retryReason (err : GoError) : GoString :=
  if err.errorsIs .endpointsStale then "rollover".toList
  else match err.asRelayError with
    | some kind => kind.text
    | none => "error".toList

def retryCause (heuristicResult : Option AnalysisResult) (err : GoError) : GoString :=
  match heuristicResult with
  | some v => if v.reason = [] then retryReason err else v.reason
  | none => retryReason err

def limiterVerdict (reason : GoString) : Bool :=
  ["rate_limited".toList,"quota_exceeded".toList,"http_429".toList,"upstream_429".toList].any
    fun r => decide (r = reason)

def historyRefusal (reason : GoString) : Bool :=
  decide (reason = "blockchain_error".toList) || decide (reason = "refused_recent".toList)

def attemptRetry : GoString := "retry".toList

structure RetryTurn (R : Type) where
  now : Int
  ended : Bool
  owners : Owners
  vouched : Option (EndpointAddr → Bool)
  allStale : Option (List EndpointAddr → Bool)
  archivalRetry : Bool
  retainingEndpoints : Option (List EndpointAddr → Option (List EndpointAddr))
  onProbation : EndpointAddr → Bool
  handleRelay : RelayContext R → Attempt R
  finished : Int

namespace RetryTurn

variable {R : Type} (T : RetryTurn R)

def anyVouched (eps : List EndpointAddr) : Bool :=
  match T.vouched with
  | none => true
  | some vouched => eps.any vouched

def narrowsIntoStale (narrowed full : List EndpointAddr) : Bool :=
  match T.allStale with
  | none => false
  | some allStale => allStale narrowed && !allStale full

def avoidAffiliates (P : Platform) (operatorAware : Bool) (available : List EndpointAddr)
    (triedAffiliates : Affiliates) : List EndpointAddr :=
  let narrowed := EndpointAddr.excludeAffiliates P T.owners available triedAffiliates
  if operatorAware && (T.anyVouched narrowed || !T.anyVouched available) &&
      !T.narrowsIntoStale narrowed available then narrowed
  else available

def keepHistory (cause : GoString) (available : List EndpointAddr) : List EndpointAddr :=
  if historyRefusal cause && T.archivalRetry then
    match T.retainingEndpoints.bind fun retaining => retaining available with
    | some kept => if T.anyVouched kept then kept else available
    | none => available
  else available

def attemptNote (a : Attempt R) : GoString :=
  let endpoint := a.answer.endpoint
  let host := if EndpointAddr.domain endpoint = [] then ['-'] else EndpointAddr.domain endpoint
  let host := if endpoint ≠ [] ∧ T.onProbation endpoint then host ++ ":probation".toList else host
  match a.answer.err with
  | none => host ++ ":ok".toList
  | some err => host ++ ':' :: retryCause a.answer.heuristicResult err

end RetryTurn

structure Tried where
  endpoints : GoMap EndpointAddr Unit
  operators : GoMap GoString Unit
  affiliates : Affiliates
  pool : List EndpointAddr

def Tried.add (P : Platform) (o : Owners) (tried : Tried) (ep : EndpointAddr) : Tried :=
  { tried with endpoints := tried.endpoints.put ep ()
               operators := tried.operators.put (ep.operator P) ()
               affiliates := tried.affiliates.add P o ep }

inductive RetryRecord where
  | retry (reason : GoString)
  | resolution (reason outcome : GoString)
  deriving DecidableEq

structure RetryState (R : Type) where
  ctx : RelayContext R
  tried : Option Tried
  lastErr : Option GoError
  kept : RelayAnswer R
  pendingCause : GoString
  retriedFor : GoString
  limited : Bool
  trail : Option (List GoString)
  recorded : List RetryRecord
  made : List (Attempt R)

inductive Flow where
  | again
  | returns (err : Option GoError)

namespace RelayAnswer

variable {R : Type}

def keep (kept current : RelayAnswer R) : RelayAnswer R :=
  if current.own && (!isStale current.heuristicResult || !isStale kept.heuristicResult ||
      fresherStale current.heuristicResult kept.heuristicResult) then current
  else kept

def stands (kept current : RelayAnswer R) : Bool :=
  current.err.isSome && kept.response.isSome &&
    (current.response.isNone || supplierAttributed current.heuristicResult) &&
    (current.response.isNone || !fresherStale current.heuristicResult kept.heuristicResult)

end RelayAnswer

namespace RetryState

variable {R : Type}

def start (ctx : RelayContext R) : RetryState R where
  ctx := ctx
  tried := none
  lastErr := none
  kept := ⟨ctx.response,ctx.endpoint,ctx.heuristicResult,none⟩
  pendingCause := []
  retriedFor := []
  limited := false
  trail := none
  recorded := []
  made := []

def current (s : RetryState R) (err : Option GoError) : RelayAnswer R :=
  ⟨s.ctx.response,s.ctx.endpoint,s.ctx.heuristicResult,err⟩

def note (T : RetryTurn R) (s : RetryState R) (a : Attempt R) : Option (List GoString) :=
  if a.answer.err.isSome || s.trail.isSome then some (s.trail.getD [] ++ [T.attemptNote a])
  else none

def runAttempt (T : RetryTurn R) (attemptsLeft : Nat) (s : RetryState R) : Attempt R :=
  T.handleRelay { s.ctx with
    deadline := perAttemptDeadline s.ctx.deadline T.now attemptsLeft
    attemptKind := if s.made = [] then [] else attemptRetry }

def ranAttempt (T : RetryTurn R) (s : RetryState R) (a : Attempt R) : RetryState R :=
  { s with
    ctx := { s.ctx.land a with attemptKind := if s.made = [] then [] else attemptRetry }
    retriedFor := s.pendingCause
    pendingCause := []
    lastErr := a.answer.err.or s.lastErr
    trail := s.note T a
    made := s.made ++ [a] }

def attempt (C : RetryConfig) (start : Int) (T : RetryTurn R) (attemptsLeft : Nat)
    (s : RetryState R) : RetryState R × Flow :=
  let a := s.runAttempt T attemptsLeft
  (s.ranAttempt T a,
    match a.answer.err with
    | none => .returns none
    | some err =>
        if !err.isRetryable then .returns (some err)
        else if 0 < C.maxLatency ∧ C.maxLatency ≤ GoTime.sub T.finished start then
          .returns (some err)
        else .again)

def beforeRetry (recorder : Bool) (err : GoError) (s : RetryState R) : RetryState R :=
  { s with
    pendingCause := retryCause s.ctx.heuristicResult err
    kept := s.kept.keep (s.current s.lastErr)
    recorded := if recorder then s.recorded ++ [.retry (retryReason err)] else s.recorded }

def rollover (s : RetryState R) : RetryState R := { s with ctx := s.ctx.cleared [], tried := none }

def exclude (P : Platform) (T : RetryTurn R) (s : RetryState R) : Tried :=
  (s.tried.getD ⟨∅,∅,.affiliatesOf P T.owners [],s.ctx.endpoints⟩).add P T.owners s.ctx.endpoint

def otherOperators (P : Platform) (tried : Tried) (available : List EndpointAddr) :
    List EndpointAddr :=
  available.filter fun ep => !tried.operators.has (ep.operator P)

def nextPool (P : Platform) (operatorAware : Bool) (T : RetryTurn R) (s : RetryState R) :
    RetryState R × Option (List EndpointAddr) :=
  let tried := s.exclude P T
  let s := { s with tried := some tried }
  let available := EndpointAddr.exclude tried.pool tried.endpoints
  if available = [] then (s,none)
  else
    let available := T.avoidAffiliates P operatorAware available tried.affiliates
    if limiterVerdict s.pendingCause then
      let other := otherOperators P tried available
      if other = [] ∨ T.anyVouched other = false ∨ T.narrowsIntoStale other available = true then
        ({ s with retriedFor := s.pendingCause, limited := true },none)
      else (s,some (T.keepHistory s.pendingCause other))
    else (s,some (T.keepHistory s.pendingCause available))

def deliver (s : RetryState R) (retErr : Option GoError) : RelayContext R × Option GoError :=
  let kept := s.kept
  let ctx :=
    if kept.stands (s.current retErr) then
      { s.ctx with response := kept.response, endpoint := kept.endpoint
                   heuristicResult := kept.heuristicResult, err := kept.err }
    else s.ctx
  ({ ctx with attempts := s.trail.getD ctx.attempts },
    if kept.stands (s.current retErr) then kept.err else retErr)

end RetryState

structure RetryRequest (R : Type) where
  quorumArm : Bool
  retryFlag : Bool
  operatorAware : Bool
  recorder : Bool
  deadline : Option Int
  endpoints : List EndpointAddr
  availableEndpoints : Option (List EndpointAddr)
  started : Int
  turn : Nat → RetryTurn R

structure RetryReturn (R : Type) where
  ctx : RelayContext R
  err : Option GoError
  recorded : List RetryRecord
  made : List (Attempt R)

def RetryReturn.answer {R : Type} (r : RetryReturn R) : RelayAnswer R :=
  ⟨r.ctx.response,r.ctx.endpoint,r.ctx.heuristicResult,r.err⟩

namespace RetryRequest

variable {R : Type} (P : Platform) (C : RetryConfig) (q : RetryRequest R)

def context : RelayContext R := ⟨q.deadline,[],q.endpoints,none,none,none,[],[]⟩

def fillEndpoints (ctx : RelayContext R) : RelayContext R :=
  match ctx.endpoints,q.availableEndpoints with
  | [],some eps => { ctx with endpoints := eps }
  | _,_ => ctx

def retryAfter (T : RetryTurn R) (attemptsLeft : Nat) (err : GoError) (s : RetryState R) :
    RetryState R × Flow :=
  if T.ended || !budgetForRetry s.ctx.deadline q.started T.now then (s,.returns (some err))
  else
    let s := s.beforeRetry q.recorder err
    if err.errorsIs .endpointsStale then s.rollover.attempt C q.started T attemptsLeft
    else match s.nextPool P q.operatorAware T with
      | (s,none) => (s,.returns (some err))
      | (s,some available) =>
          ({ s with ctx := s.ctx.cleared available }).attempt C q.started T attemptsLeft

def retryTurn (attempt attemptsLeft : Nat) (s : RetryState R) : RetryState R × Flow :=
  match attempt,s.lastErr with
  | 0,_ => s.attempt C q.started (q.turn 0) attemptsLeft
  | n + 1,some err => q.retryAfter P C (q.turn (n + 1)) attemptsLeft err s
  -- not reached: the loop goes on only after an attempt that failed
  | _ + 1,none => (s,.returns none)

def loop : Nat → Nat → RetryState R → RetryState R × Option GoError
  | 0,_,s => (s,s.lastErr)
  | left + 1,attempt,s =>
      match q.retryTurn P C attempt (left + 1) s with
      | (s,.returns err) => (s,err)
      | (s,.again) => loop left (attempt + 1) s

def recordResolution (s : RetryState R) (retErr : Option GoError) : List RetryRecord :=
  if s.retriedFor = [] ∨ q.recorder = false then s.recorded
  else
    let outcome :=
      if s.limited then "limited" else if retErr.isNone then "recovered" else "exhausted"
    s.recorded ++ [.resolution s.retriedFor outcome.toList]

def retry : RetryReturn R :=
  if q.quorumArm || !q.retryFlag || decide (C.maxRetries = 0) then
    let a := (q.turn 0).handleRelay q.context
    ⟨q.context.land a,a.answer.err,[],[a]⟩
  else
    let (s,retErr) := q.loop P C (C.maxRetries + 1).toNat 0 (.start (q.fillEndpoints q.context))
    let (ctx,err) := s.deliver retErr
    ⟨ctx,err,q.recordResolution s retErr,s.made⟩

end RetryRequest

namespace RetryState

variable {R : Type} {s s' : RetryState R}

theorem attempt_eq {C : RetryConfig} {start : Int} {T : RetryTurn R} {left : Nat} {flow : Flow}
    (h : s.attempt C start T left = (s',flow)) :
    ∃ a, s' = s.ranAttempt T a ∧
      (flow = .returns a.answer.err ∨ flow = .again ∧ a.answer.err.isSome = true) := by
  obtain ⟨rfl,rfl⟩ := Prod.mk.inj h
  refine ⟨s.runAttempt T left,rfl,?_⟩
  cases he : (s.runAttempt T left).answer.err with
  | none => exact .inl rfl
  | some err =>
    dsimp only
    split
    · exact .inl rfl
    · split
      · exact .inl rfl
      · exact .inr ⟨rfl,rfl⟩

theorem nextPool_eq {P : Platform} {operatorAware : Bool} {T : RetryTurn R}
    {pool : Option (List EndpointAddr)} (h : s.nextPool P operatorAware T = (s',pool)) :
    s'.ctx = s.ctx ∧ s'.lastErr = s.lastErr ∧ s'.kept = s.kept ∧ s'.made = s.made := by
  unfold nextPool at h
  dsimp only at h
  split at h
  · cases h
    exact ⟨rfl,rfl,rfl,rfl⟩
  · split at h
    · split at h
      · cases h
        exact ⟨rfl,rfl,rfl,rfl⟩
      · cases h
        exact ⟨rfl,rfl,rfl,rfl⟩
    · cases h
      exact ⟨rfl,rfl,rfl,rfl⟩

end RetryState

end SageGateway
