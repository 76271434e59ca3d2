import SageGateway.Relay.Quorum

namespace SageGateway

open List Option

open Json

-- The request was checked when it was parsed, so an id is JSON; how deep it nests was not.
structure Payload where
  jsonRPCID : Bytes
  parsed : wellFormed jsonRPCID = true

def ContextEnd.text : ContextEnd → GoString
  | .deadlineExceeded => "context deadline exceeded".toList
  | .canceled => "context canceled".toList

section Rendering

def codedError (msg : GoString) : Value :=
  .object [("code".toList,.number (ascii "-32603")),("message".toList,.string msg)]

def errorJSON (msg : GoString) : Bytes := encode (.object [("error".toList,codedError msg)])

def member (name : GoString) (text : Bytes) : Bytes := quote name ++ 58 :: text

def jsonRPCErrorItem (id : Bytes) (msg : GoString) : Bytes :=
  match compact id with
  | some raw =>
      123 :: (join [member "jsonrpc".toList (quote "2.0".toList),
        member "id".toList (htmlEscape raw),
        member "error".toList (encode (codedError msg))] ++ [125])
  | none => errorJSON msg

def appendItem : Option Bytes → Option Bytes
  | none => some (ascii "null")
  | some r => (compact r).map htmlEscape

def separator (i : Nat) : Bytes := if 0 < i then [44] else []

def mergeFrom : Nat → List (Option Bytes) → Option Bytes
  | _,[] => some [93]
  | i,r :: rs =>
      (appendItem r).bind fun item =>
        (mergeFrom (i + 1) rs).map fun rest => separator i ++ (item ++ rest)

def mergeBatch (results : List (Option Bytes)) : Option Bytes :=
  (mergeFrom 0 results).map fun items => 91 :: items

def combineFailure : Bytes :=
  ascii "\x7b\"error\":\"failed to combine batch responses\"\x7d"

def notJSON : GoString := "endpoint error: response is not JSON".toList

def streamItem (p : Payload) (result : Option Bytes) : Bytes :=
  match appendItem result with
  | some item => item
  | none => (appendItem (some (jsonRPCErrorItem p.jsonRPCID notJSON))).getD []

end Rendering

structure SubRelay where
  answer : RelayAnswer Response
  degraded : Bool

namespace SubRelay

-- A parameter: the raw id gjson reads out of a frame, empty when it is absent or null.
variable (requestID : Bytes → Bytes)

def supplierPage (s : SubRelay) : Bool :=
  match s.answer.heuristicResult,s.answer.response with
  | some h,some r =>
      decide (h.attribution = .supplier) && (decide (r.httpStatusCode = 408) || !valid r.body)
  | _,_ => false

def nodeAnswer (s : SubRelay) : Bool :=
  s.answer.underRetryVerdict &&
    s.answer.response.any fun r => !s.supplierPage && decide (requestID r.body ≠ [])

def body (s : SubRelay) : Except GoString Bytes :=
  match s.answer.response with
  | none => .error "endpoint error: empty response".toList
  | some r => if r.body = [] then .error "endpoint error: empty response".toList else .ok r.body

def outcome (s : SubRelay) : Except GoString Bytes :=
  match s.answer.err with
  | none => s.body
  | some err => if s.nodeAnswer requestID then s.body else .error err.clientMessage

end SubRelay

inductive Fate where
  | notStarted (ended : ContextEnd)
  | replied (s : SubRelay)

namespace Fate

variable (requestID : Bytes → Bytes)

def outcome : Fate → Except GoString Bytes
  | .notStarted ended => .error ("batch payload not started: ".toList ++ ended.text)
  | .replied s => s.outcome requestID

def result (p : Payload) (f : Fate) : Bytes :=
  match f.outcome requestID with
  | .ok body => body
  | .error msg => jsonRPCErrorItem p.jsonRPCID msg

end Fate

end SageGateway
