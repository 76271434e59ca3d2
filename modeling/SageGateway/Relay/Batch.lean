import SageGateway.Lib.Slots
import SageGateway.Relay.Batch.Items

namespace SageGateway

open Json

structure BatchRequest where
  payloads : List Payload
  streaming : Bool
  maxConcurrentRelays : Int
  maxPayloads : Int
  maxPerBatch : Int
  maxWindow : Int

inductive BatchEntry where
  | passThrough
  | refused
  | fanOut
  deriving DecidableEq

namespace BatchRequest

def n (q : BatchRequest) : Nat := q.payloads.length

def entry (q : BatchRequest) : BatchEntry :=
  if q.n ≤ 1 then .passThrough
  else if 0 < q.maxPayloads ∧ q.maxPayloads < q.n then .refused
  else .fanOut

def ceiling (q : BatchRequest) : Option Slots :=
  if 0 < q.maxPerBatch ∧ q.maxPerBatch < q.n then some ⟨q.maxPerBatch.toNat,0⟩ else none

def window (q : BatchRequest) : Option Slots :=
  if q.streaming = true ∧ 0 < q.maxPerBatch ∧ 0 ≤ q.maxWindow then
    some ⟨(q.maxPerBatch + q.maxWindow).toNat,0⟩
  else none

end BatchRequest

-- What one item takes before it starts, in this order.
inductive Stage where
  | window
  | ceiling
  | budget
  deriving DecidableEq

def Stage.rank : Stage → Nat
  | .window => 0
  | .ceiling => 1
  | .budget => 2

inductive Channel where
  | window
  | ceiling
  | budget (id : Nat)
  deriving DecidableEq

def Channel.stage : Channel → Stage
  | .window => .window
  | .ceiling => .ceiling
  | .budget _ => .budget

abbrev Token := Channel × Nat

inductive Dispatcher where
  | acquiring (i : Nat) (st : Stage)
  | waiting (i : Nat) (st : Stage)
  | launching (i : Nat)
  | undoing (i : Nat) (st : Stage)
  | failing (j : Nat)
  | stopped
  deriving DecidableEq

namespace Dispatcher

def acquired (i : Nat) : Stage → Dispatcher
  | .window => .acquiring i .ceiling
  | .ceiling => .acquiring i .budget
  | .budget => .launching i

def refused (i : Nat) : Stage → Dispatcher
  | .window => .failing i
  | .ceiling => .undoing i .window
  | .budget => .undoing i .ceiling

def following (n i : Nat) : Dispatcher := if i + 1 < n then .acquiring (i + 1) .window else .stopped

end Dispatcher

inductive Phase where
  | idle
  | running
  | answered
  | gaveBudget
  | gaveCeiling
  | told
  deriving DecidableEq

structure BatchItem where
  started : Bool
  phase : Phase
  result : Option Bytes
  -- History: what the item came to.
  fate : Option Fate

def BatchItem.initial : BatchItem := ⟨false,.idle,none,none⟩

inductive Collector where
  | opening
  | receiving
  | flushing
  | releasing
  | returned (response : Response)

structure Batch where
  request : BatchRequest
  sem : Option Nat
  window : Option Slots
  ceiling : Option Slots
  parentErr : Option ContextEnd
  ctxErr : Option ContextEnd
  dispatcher : Dispatcher
  items : Nat → BatchItem
  ready : List Nat
  done : Nat → Bool
  received : Nat
  nextOut : Nat
  collector : Collector
  abandoned : Bool
  degraded : Bool
  wire : Bytes
  -- History: whether a write to the client failed, and the slots taken and given back.
  cut : Bool
  log : List (Move Token)

inductive BatchAct where
  | endParent (ended : ContextEnd)
  | propagate
  | check
  | take
  | giveUp
  | launch
  | undo
  | fail
  | reply (i : Nat) (s : SubRelay)
  | giveBudget (i : Nat)
  | giveCeiling (i : Nat)
  | tell (i : Nat)
  | openBody (ok : Bool)
  | receive
  | flush (ok : Bool)
  | release
  | finish (ok : Bool)

inductive BudgetUse where
  | none
  | take
  | give
  deriving DecidableEq

namespace Batch

def start (q : BatchRequest) (sem : Option Nat) : Batch where
  request := q
  sem := sem
  window := q.window
  ceiling := q.ceiling
  parentErr := none
  ctxErr := none
  dispatcher := .acquiring 0 .window
  items := fun _ => .initial
  ready := []
  done := fun _ => false
  received := 0
  nextOut := 0
  collector := .opening
  abandoned := false
  degraded := false
  wire := []
  cut := false
  log := []

def n (b : Batch) : Nat := b.request.n

def channel (b : Batch) : Stage → Option Channel
  | .window => b.window.map fun _ => .window
  | .ceiling => b.ceiling.map fun _ => .ceiling
  | .budget => b.sem.map .budget

-- The shared budget's slots are the gateway's, not the batch's.
def slots (b : Batch) : Stage → Option Slots
  | .window => b.window
  | .ceiling => b.ceiling
  | .budget => none

def putSlots (b : Batch) (c : Slots) : Stage → Batch
  | .window => { b with window := some c }
  | .ceiling => { b with ceiling := some c }
  | .budget => b

def moveSlot (b : Batch) (st : Stage) (op : Slots → Option Slots) (m : Channel → Move Token) :
    Option Batch :=
  (b.channel st).bind fun ch =>
    match b.slots st with
    | some c => (op c).map fun c => { b.putSlots c st with log := m ch :: b.log }
    | none => some { b with log := m ch :: b.log }

def takeSlot (b : Batch) (i : Nat) (st : Stage) : Option Batch :=
  b.moveSlot st Slots.take fun ch => .took (ch,i)

def giveSlot (b : Batch) (i : Nat) (st : Stage) : Option Batch :=
  if (b.channel st).isSome then b.moveSlot st Slots.give fun ch => .gave (ch,i) else some b

def setItem (b : Batch) (i : Nat) (x : BatchItem) : Batch :=
  { b with items := Function.update b.items i x }

def setPhase (b : Batch) (i : Nat) (phase : Phase) : Batch :=
  b.setItem i { b.items i with phase := phase }

def cancelBatch (b : Batch) : Batch := { b with ctxErr := b.ctxErr <|> some .canceled }

def abandon (b : Batch) : Batch := { b.cancelBatch with abandoned := true }

def writeStream (b : Batch) (ok : Bool) (chunk : Bytes) : Batch :=
  if ok then { b with wire := b.wire ++ chunk } else { b.abandon with cut := true }

def check (b : Batch) : Option Batch :=
  match b.dispatcher with
  | .acquiring i st =>
      if (b.channel st).isNone then some { b with dispatcher := .acquired i st }
      else if b.ctxErr.isSome then some { b with dispatcher := .refused i st }
      else some { b with dispatcher := .waiting i st }
  | _ => none

def take (b : Batch) : Option Batch :=
  match b.dispatcher with
  | .waiting i st => (b.takeSlot i st).map fun b => { b with dispatcher := .acquired i st }
  | _ => none

def giveUp (b : Batch) : Option Batch :=
  match b.dispatcher with
  | .waiting i st => if b.ctxErr.isSome then some { b with dispatcher := .refused i st } else none
  | _ => none

def launch (b : Batch) : Option Batch :=
  match b.dispatcher with
  | .launching i =>
      some { b.setItem i { b.items i with started := true, phase := .running } with
        dispatcher := .following b.n i }
  | _ => none

def undo (b : Batch) : Option Batch :=
  match b.dispatcher with
  | .undoing i .window =>
      (b.giveSlot i .window).map fun b => { b with dispatcher := .failing i }
  | .undoing i .ceiling =>
      (b.giveSlot i .ceiling).map fun b => { b with dispatcher := .undoing i .window }
  | _ => none

section

variable (requestID : Bytes → Bytes)

def settle (b : Batch) (i : Nat) (f : Fate) (phase : Phase) : Option Batch :=
  (b.request.payloads[i]?).map fun p =>
    b.setItem i
      { b.items i with phase := phase, result := some (f.result requestID p), fate := some f }

def fail (b : Batch) : Option Batch :=
  match b.dispatcher with
  | .failing j =>
      if j < b.n then
        b.ctxErr.bind fun ended => (b.settle requestID j (.notStarted ended) .told).map fun b =>
          { b with ready := b.ready ++ [j], dispatcher := .failing (j + 1) }
      else some { b with dispatcher := .stopped }
  | _ => none

def reply (b : Batch) (i : Nat) (s : SubRelay) : Option Batch :=
  if (b.items i).phase = .running then
    (b.settle requestID i (.replied s) .answered).map fun b =>
      { b with degraded := b.degraded || s.degraded }
  else none

def giveBudget (b : Batch) (i : Nat) : Option Batch :=
  if (b.items i).phase = .answered then
    (b.giveSlot i .budget).map fun b => b.setPhase i .gaveBudget
  else none

def giveCeiling (b : Batch) (i : Nat) : Option Batch :=
  if (b.items i).phase = .gaveBudget then
    (b.giveSlot i .ceiling).map fun b => b.setPhase i .gaveCeiling
  else none

def tell (b : Batch) (i : Nat) : Option Batch :=
  if (b.items i).phase = .gaveCeiling then
    some { b.setPhase i .told with ready := b.ready ++ [i] }
  else none

def openBody (b : Batch) (ok : Bool) : Option Batch :=
  match b.collector with
  | .opening =>
      if b.request.streaming then some { b.writeStream ok [91] with collector := .receiving }
      else some { b with collector := .receiving }
  | _ => none

def receive (b : Batch) : Option Batch :=
  match b.collector,b.ready with
  | .receiving,i :: rest =>
      if b.received < b.n then
        some { b with done := Function.update b.done i true, received := b.received + 1,
                      ready := rest, collector := .flushing }
      else none
  | _,_ => none

-- A client that has gone is seen before the next item is written to it.
def noticed (b : Batch) : Batch :=
  if b.abandoned = false ∧ b.parentErr = some .canceled then b.abandon else b

def writeItem (b : Batch) (ok : Bool) : Option Batch :=
  if b.noticed.abandoned then some b.noticed
  else (b.request.payloads[b.nextOut]?).map fun p =>
    b.noticed.writeStream ok
      (separator b.nextOut ++ streamItem p (b.items b.nextOut).result)

def flush (b : Batch) (ok : Bool) : Option Batch :=
  match b.collector with
  | .flushing =>
      if b.nextOut < b.n ∧ b.done b.nextOut = true then
        if b.request.streaming then
          (b.writeItem ok).map fun b => { b with collector := .releasing }
        else some { b with nextOut := b.nextOut + 1 }
      else some { b with collector := .receiving }
  | _ => none

def release (b : Batch) : Option Batch :=
  match b.collector with
  | .releasing =>
      let i := b.nextOut
      let freed := if (b.items i).started then b.giveSlot i .window else some b
      freed.map fun b =>
        { b.setItem i { b.items i with result := none } with
          nextOut := i + 1, collector := .flushing }
  | _ => none

def merged (b : Batch) : Bytes :=
  (mergeBatch ((List.range b.n).map fun i => (b.items i).result)).getD combineFailure

def finish (b : Batch) (ok : Bool) : Option Batch :=
  match b.collector with
  | .receiving =>
      if b.received < b.n then none
      else if b.request.streaming then
        let closed := if b.abandoned then b else b.writeStream ok [93]
        some { closed.cancelBatch with collector := .returned ⟨[],200⟩, abandoned := b.abandoned }
      else some { b.cancelBatch with collector := .returned ⟨b.merged,200⟩ }
  | _ => none

def step (b : Batch) : BatchAct → Option Batch
  | .endParent ended =>
      if b.parentErr.isNone then some { b with parentErr := some ended } else none
  | .propagate =>
      if b.ctxErr.isNone then
        b.parentErr.map fun ended => { b with ctxErr := some ended }
      else none
  | .check => b.check
  | .take => b.take
  | .giveUp => b.giveUp
  | .launch => b.launch
  | .undo => b.undo
  | .fail => b.fail requestID
  | .reply i s => b.reply requestID i s
  | .giveBudget i => b.giveBudget i
  | .giveCeiling i => b.giveCeiling i
  | .tell i => b.tell i
  | .openBody ok => b.openBody ok
  | .receive => b.receive
  | .flush ok => b.flush ok
  | .release => b.release
  | .finish ok => b.finish ok

end

def budgetUse (b : Batch) : BatchAct → BudgetUse
  | .take =>
      match b.dispatcher with
      | .waiting _ .budget => .take
      | _ => .none
  | .giveBudget _ => if b.sem.isSome then .give else .none
  | _ => .none

def delivered (b : Batch) : Bytes :=
  match b.collector with
  | .returned response => if b.request.streaming then b.wire else response.body
  | _ => []

end Batch

structure Gateway where
  budgets : List Slots
  current : Option Nat
  pending : List BatchRequest
  batches : List Batch

inductive GatewayAct where
  | enter (lost : Bool)
  | batch (k : Nat) (a : BatchAct)

namespace Gateway

def start (pending : List BatchRequest) : Gateway := ⟨[],none,pending,[]⟩

-- A swap that was lost to another request takes the channel that one put there.
def semFor (g : Gateway) (maxConcurrentRelays : Int) (lost : Bool) : Option Nat × Gateway :=
  if maxConcurrentRelays ≤ 0 then (none,g)
  else
    let cur := g.current.bind fun id => g.budgets[id]?
    if cur.any fun c => decide ((c.cap : Int) = maxConcurrentRelays) then (g.current,g)
    else if lost && g.current.isSome then (g.current,g)
    else
      (some g.budgets.length,
        { g with budgets := g.budgets ++ [⟨maxConcurrentRelays.toNat,0⟩],
                 current := some g.budgets.length })

def enter (g : Gateway) (lost : Bool) : Option Gateway :=
  match g.pending with
  | [] => none
  | q :: rest =>
      let waiting := { g with pending := rest }
      -- The budget is looked up before the cap on payloads, so a refused request may resize it.
      let r := waiting.semFor q.maxConcurrentRelays lost
      match q.entry with
      | .passThrough => some waiting
      | .refused => some r.2
      | .fanOut => some { r.2 with batches := r.2.batches ++ [.start q r.1] }

def useBudget (g : Gateway) (sem : Option Nat) : BudgetUse → Option (List Slots)
  | .none => some g.budgets
  | .take =>
      sem.bind fun id => (g.budgets[id]?).bind fun c => c.take.map fun c => g.budgets.set id c
  | .give =>
      sem.bind fun id => (g.budgets[id]?).bind fun c => c.give.map fun c => g.budgets.set id c

def step (requestID : Bytes → Bytes) (g : Gateway) : GatewayAct → Option Gateway
  | .enter lost => g.enter lost
  | .batch k a =>
      (g.batches[k]?).bind fun b =>
        (b.step requestID a).bind fun b' =>
          (g.useBudget b.sem (b.budgetUse a)).map fun budgets =>
            { g with budgets := budgets, batches := g.batches.set k b' }

end Gateway

end SageGateway
