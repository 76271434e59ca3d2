import Mathlib.Algebra.Ring.Nat
import Mathlib.Data.Rat.Defs
import SageGateway.Drain.Store
import SageGateway.Lib.GoTime
import SageGateway.Owner

namespace SageGateway.Autodrain

open Drain (Key Entry)

def reasonPrefix : GoString := "auto:".toList

def minClientFailure : ℚ := 5 / 100

def minClientRequests : Nat := 50

def maxSuccess : ℚ := 2 / 100

def severeMaxSuccess : ℚ := 60 / 100

def severeMinAttempts : Nat := 200

def drainFor : Int := 2 * GoTime.hour

def maxLivePool : Nat := 1

def maxLiveFleet : Nat := 5

def serviceGap : Int := 30 * GoTime.minute

def maxPerHour : Nat := 3

def suppressFor : Int := 6 * GoTime.hour

inductive Outcome where
  | drained
  | shadow
  | suppressed
  | rateLimited
  | capped
  | noVouched
  | manual
  | belowClient
  | noClientEvidence
  | poolWide
  deriving DecidableEq

inductive Trigger where
  | collapse
  | operatorRate
  | chainAnswers
  deriving DecidableEq

-- The part of an event a decision reads. Shares are only compared, never computed with, and the
-- text of the evidence only follows the prefix in the reason.
structure Event where
  trigger : Trigger
  attempts : Nat
  successRate : ℚ
  firstAttempts : Nat
  firstSuccess : ℚ
  clientRequests : Nat
  clientFailure : ℚ
  answerHarm : ℚ
  poolWide : Bool
  evidence : GoString

def Event.severe (ev : Event) : Bool :=
  decide (severeMinAttempts ≤ ev.firstAttempts) && decide (ev.firstSuccess ≤ severeMaxSuccess) ||
    decide (severeMinAttempts ≤ ev.attempts) && decide (ev.successRate ≤ maxSuccess)

-- With an error of propagation the drain is in force on this instance; with another it is not.
inductive SetAnswer where
  | done
  | errPropagation
  | failed
  deriving DecidableEq

-- What the stores answer while one candidate is decided: Active is asked three times over.
structure Answers where
  covering : List Entry
  pool : List Entry
  fleet : List (List Entry)
  endpoints : List EndpointAddr
  vouched : EndpointAddr → Bool
  set : SetAnswer

structure Deps where
  platform : Platform
  owners : Owners
  equalFold : GoString → GoString → Bool
  maxDrain : Int

structure Engine where
  live : GoMap Key Int
  suppressed : GoMap Key Int
  lastBySvc : GoMap GoString Int
  recent : List Int

structure Decision where
  outcome : Option Outcome
  set : Option SetAnswer
  deriving DecidableEq

def isAuto (en : Entry) : Bool := reasonPrefix.isPrefixOf en.reason

def liveAuto (rpcType : GoString) (active : List Entry) : Nat :=
  active.countP fun en => decide (en.key.rpcType = rpcType) && isAuto en

def liveAutoFleet (active : List (List Entry)) : Nat :=
  (active.map fun entries => entries.countP isAuto).sum

namespace Deps

variable (D : Deps)

def find (k : Key) (active : List Entry) : Option Entry :=
  active.find? fun en =>
    D.equalFold en.key.operator k.operator &&
      (decide (en.key.rpcType = k.rpcType) || decide (en.key.rpcType = []))

def alternative (k : Key) (a : Answers) : GoString :=
  let own := a.endpoints.filter fun ep => D.equalFold (ep.operator D.platform) k.operator
  let drained := Affiliates.affiliatesOf D.platform D.owners own
  let other := a.endpoints.find? fun ep =>
    !D.equalFold (ep.operator D.platform) k.operator &&
      !drained.contains D.platform D.owners ep && a.vouched ep
  (other.map (EndpointAddr.operator D.platform)).getD []

def drainLength : Int := if 0 < D.maxDrain ∧ D.maxDrain < drainFor then D.maxDrain else drainFor

end Deps

namespace Engine

def new : Engine := ⟨∅,∅,∅,[]⟩

section

variable (D : Deps)

def reconcileKey (now : Int) (active : Key → List Entry) (e : Engine) (row : Key × Int) : Engine :=
  if row.2 ≤ now then { e with live := e.live.del row.1 }
  else
    match D.find row.1 (active row.1) with
    | none =>
        { e with
          suppressed := e.suppressed.put row.1 (now + suppressFor)
          live := e.live.del row.1 }
    | some entry => if isAuto entry then e else { e with live := e.live.del row.1 }

def reconcile (now : Int) (active : Key → List Entry) (e : Engine) : Engine :=
  let e := e.live.toList.foldl (reconcileKey D now active) e
  { e with
    suppressed := e.suppressed.filter fun _ untilAt => decide (now < untilAt)
    recent := e.recent.filter fun t => decide (now - GoTime.hour < t) }

def rateLimited (e : Engine) (svc : GoString) (now : Int) : Bool :=
  ((e.lastBySvc.get svc).any fun last => decide (GoTime.sub now last < serviceGap)) ||
    decide (maxPerHour ≤ e.recent.length)

def place (e : Engine) (k : Key) (now : Int) : Engine :=
  { e with
    live := e.live.put k (now + D.drainLength)
    lastBySvc := e.lastBySvc.put k.serviceID now
    recent := e.recent ++ [now] }

def decide (e : Engine) (k : Key) (now : Int) (act : Bool) (ev : Event) (a : Answers) :
    Engine × Decision :=
  let stop (outcome : Option Outcome) := (e,(⟨outcome,none⟩ : Decision))
  match D.find k a.covering with
  | some entry => if isAuto entry then stop none else stop (some .manual)
  | none =>
      if ev.clientRequests < minClientRequests then stop (some .noClientEvidence)
      else if ev.clientFailure < minClientFailure ∧ ev.answerHarm < minClientFailure ∧
          ev.severe = false then stop (some .belowClient)
      else if ev.poolWide then stop (some .poolWide)
      else if D.alternative k a = [] then stop (some .noVouched)
      else if (e.suppressed.get k).any fun untilAt => Decidable.decide (now < untilAt) then
        stop (some .suppressed)
      else if maxLivePool ≤ liveAuto k.rpcType a.pool ∨ maxLiveFleet ≤ liveAutoFleet a.fleet then
        stop (some .capped)
      else if e.rateLimited k.serviceID now then stop (some .rateLimited)
      else if act = false then stop (some .shadow)
      else
        match a.set with
        | .done => (e.place D k now,⟨some .drained,some .done⟩)
        | answer => (e,⟨none,some answer⟩)

end

end Engine

structure Candidate where
  key : Key
  event : Event
  -- The flags for the candidate's service.
  autoDrain : Bool
  autoDrainShadow : Bool
  autoDrainChainAnswers : Bool
  answers : Answers

def Candidate.live (c : Candidate) : Bool :=
  c.autoDrain && !c.autoDrainShadow &&
    (decide (c.event.trigger ≠ .chainAnswers) || c.autoDrainChainAnswers)

structure Evaluation where
  now : Int
  leader : Bool
  active : Key → List Entry
  candidates : List Candidate

inductive Note where
  | placed (k : Key) (time : Int)
  | noticed (k : Key) (time : Int)
  deriving DecidableEq

-- History: the drains put in force and the early releases noticed, newest first.
structure Watched where
  engine : Engine
  clock : Int
  log : List Note

namespace Watched

def new (clock : Int) : Watched := ⟨.new,clock,[]⟩

def placedAt : Note → Option (Key × Int)
  | .placed k t => some (k,t)
  | .noticed _ _ => none

def drains (w : Watched) : List (Key × Int) := w.log.filterMap placedAt

section

variable (D : Deps)

def released (now : Int) (active : Key → List Entry) (live : GoMap Key Int) : List Key :=
  (live.toList.filter fun row =>
    decide (now < row.2) && (D.find row.1 (active row.1)).isNone).map Prod.fst

def noted (k : Key) (now : Int) (d : Decision) : List Note :=
  match d.set with
  | some .done | some .errPropagation => [.placed k now]
  | _ => []

def consider (now : Int) (w : Watched) (c : Candidate) : Watched :=
  if c.autoDrain = false ∧ c.autoDrainShadow = false then w
  else
    let r := w.engine.decide D c.key now c.live c.event c.answers
    { w with engine := r.1, log := noted c.key now r.2 ++ w.log }

def evaluate (w : Watched) (ev : Evaluation) : Option Watched :=
  if ev.now < w.clock then none
  else if ev.leader = false then some { w with clock := ev.now }
  else
    let noticed := (released D ev.now ev.active w.engine.live).map (Note.noticed · ev.now)
    let start : Watched := ⟨w.engine.reconcile D ev.now ev.active,ev.now,noticed ++ w.log⟩
    some (ev.candidates.foldl (consider D ev.now) start)

end

end Watched

end SageGateway.Autodrain
