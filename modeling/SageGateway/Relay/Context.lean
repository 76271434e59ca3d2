import SageGateway.Owner

namespace SageGateway

inductive ErrorKind where
  | transport
  | protocol
  | endpoint
  | rateLimit
  | validation
  | capability
  deriving DecidableEq

def ErrorKind.text : ErrorKind → GoString
  | .transport => "transport error".toList
  | .protocol => "protocol error".toList
  | .endpoint => "endpoint error".toList
  | .rateLimit => "rate limited".toList
  | .validation => "invalid request".toList
  | .capability => "unsupported capability".toList

inductive ErrorLayer where
  | text (message : GoString)
  | retryVerdict
  | endpointsStale
  | relay (kind : ErrorKind) (message : GoString) (retryable : Bool)
  deriving DecidableEq

structure GoError where
  outer : ErrorLayer
  causes : List ErrorLayer
  deriving DecidableEq

namespace GoError

def chain (e : GoError) : List ErrorLayer := e.outer :: e.causes

def errorsIs (e : GoError) (target : ErrorLayer) : Bool := e.chain.any fun l => decide (l = target)

def newRelayError (kind : ErrorKind) (message : GoString) (cause : Option GoError)
    (retryable : Bool) : GoError :=
  ⟨.relay kind message retryable,(cause.map chain).getD []⟩

def isRetryable (e : GoError) : Bool :=
  match e.outer with
  | .relay _ _ retryable => retryable
  | _ => false

def asRelayError (e : GoError) : Option ErrorKind :=
  e.chain.findSome? fun
    | .relay kind _ _ => some kind
    | _ => none

def retryVerdict (reason : GoString) : GoError :=
  newRelayError .endpoint ("heuristic analysis suggests retry: ".toList ++ reason)
    (some ⟨.retryVerdict,[]⟩) true

theorem errorsIs_retryVerdict (reason : GoString) :
    (retryVerdict reason).errorsIs .retryVerdict = true := rfl

end GoError

inductive ErrorAttribution where
  | unknown
  | supplier
  | blockchain
  | client
  deriving DecidableEq

def reasonStaleResponse : GoString := "stale_response".toList

def reasonLightMethodError : GoString := "light_method_error".toList

structure AnalysisResult where
  attribution : ErrorAttribution
  reason : GoString
  headLag : Nat
  stale : reason = reasonStaleResponse → attribution = .supplier

def staleResponse (lag : Nat) : AnalysisResult :=
  ⟨.supplier,reasonStaleResponse,lag,fun _ => rfl⟩

def isStale : Option AnalysisResult → Bool
  | some v => decide (v.reason = reasonStaleResponse)
  | none => false

def headLag (v : Option AnalysisResult) : Nat := (v.map AnalysisResult.headLag).getD 0

def fresherStale (a b : Option AnalysisResult) : Bool :=
  isStale a && isStale b && decide (headLag a < headLag b)

def supplierAttributed : Option AnalysisResult → Bool
  | some v => decide (v.attribution = .supplier)
  | none => false

variable {v : Option AnalysisResult}

theorem supplierAttributed_of_stale (h : isStale v = true) :
    supplierAttributed v = true := by
  cases v with
  | none => cases h
  | some v => exact decide_eq_true (v.stale (of_decide_eq_true h))

def nodeVerdict : Option AnalysisResult → Bool
  | none => true
  | some v => decide (v.attribution ≠ .supplier) || decide (v.reason = reasonStaleResponse) ||
      decide (v.reason = reasonLightMethodError)

theorem nodeVerdict_of_stale (h : isStale v = true) :
    nodeVerdict v = true := by
  cases v with
  | none => rfl
  | some v =>
    rw [isStale] at h
    rw [nodeVerdict,h,Bool.or_true,Bool.true_or]

theorem nodeVerdict_of_not_supplier
    (h : supplierAttributed v = false) : nodeVerdict v = true := by
  cases v with
  | none => rfl
  | some v =>
    have hne : v.attribution ≠ .supplier := of_decide_eq_false h
    rw [nodeVerdict,decide_eq_true hne,Bool.true_or,Bool.true_or]

structure RelayAnswer (R : Type) where
  response : Option R
  endpoint : EndpointAddr
  heuristicResult : Option AnalysisResult
  err : Option GoError

namespace RelayAnswer

variable {R : Type}

def underRetryVerdict (b : RelayAnswer R) : Bool := b.err.any fun e => e.errorsIs .retryVerdict

def own (b : RelayAnswer R) : Bool :=
  b.response.isSome && b.underRetryVerdict && nodeVerdict b.heuristicResult

def stale (b : RelayAnswer R) : Bool := b.response.isSome && isStale b.heuristicResult

def supplierPage (b : RelayAnswer R) : Bool :=
  b.response.isSome && b.underRetryVerdict && !nodeVerdict b.heuristicResult

def lag (b : RelayAnswer R) : Nat := headLag b.heuristicResult

end RelayAnswer

structure Attempt (R : Type) where
  answer : RelayAnswer R
  endpoints : List EndpointAddr
  ctxErr : Option GoError
  answered : answer.response.isSome = true → answer.err.isSome = true →
    answer.underRetryVerdict = true
  graded : isStale answer.heuristicResult = true →
    answer.response.isSome = true ∧ answer.err.isSome = true

namespace Attempt

variable {R : Type}

def judged (response : R) (endpoint : EndpointAddr) (endpoints : List EndpointAddr)
    (result : AnalysisResult) : Attempt R where
  answer := ⟨some response,endpoint,some result,some (.retryVerdict result.reason)⟩
  endpoints := endpoints
  ctxErr := some (.retryVerdict result.reason)
  answered _ _ := GoError.errorsIs_retryVerdict result.reason
  graded _ := ⟨rfl,rfl⟩

def unanswered (endpoint : EndpointAddr) (endpoints : List EndpointAddr) (err : GoError) :
    Attempt R where
  answer := ⟨none,endpoint,none,some err⟩
  endpoints := endpoints
  ctxErr := some err
  answered h := by cases h
  graded h := by cases h

end Attempt

structure RelayContext (R : Type) where
  deadline : Option Int
  endpoint : EndpointAddr
  endpoints : List EndpointAddr
  response : Option R
  err : Option GoError
  heuristicResult : Option AnalysisResult
  attemptKind : GoString
  attempts : List GoString

namespace RelayContext

variable {R : Type}

def land (ctx : RelayContext R) (a : Attempt R) : RelayContext R :=
  { ctx with endpoint := a.answer.endpoint, endpoints := a.endpoints, response := a.answer.response,
             err := a.ctxErr, heuristicResult := a.answer.heuristicResult }

def cleared (ctx : RelayContext R) (endpoints : List EndpointAddr) : RelayContext R :=
  { ctx with endpoints := endpoints, endpoint := [], response := none, err := none,
             heuristicResult := none }

end RelayContext

end SageGateway
