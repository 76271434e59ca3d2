import Mathlib.Data.Rat.Defs
import SageGateway.Lib.TickRing
import SageGateway.Relay.Context
import SageGateway.Reputation

namespace SageGateway.Autodrain

open TickRing (Ring)

def windowSlots : Nat := 10

instance : NeZero windowSlots := ⟨by decide⟩

def maxMethods : Nat := 64

def overflowMethod : GoString := "\x00overflow".toList

inductive AttemptKind where
  | first
  | retry
  | hedge
  | probation
  deriving DecidableEq

inductive AnswerOrigin where
  | chain
  | supplier
  | gateway
  deriving DecidableEq

structure PoolKey where
  svc : GoString
  rpc : RPCType
  deriving DecidableEq

structure MethodCount where
  answered : Nat
  chain : Nat
  deriving DecidableEq

structure OpCount where
  picks : Nat
  attempts : Nat
  successes : Nat
  firsts : Nat
  firstFails : Nat
  methods : GoMap GoString MethodCount

namespace OpCount

def zero : OpCount := ⟨0,0,0,0,0,∅⟩

def method (c : OpCount) (name : GoString) (f : MethodCount → MethodCount) : OpCount :=
  let kept :=
    if c.methods.has name = false ∧ maxMethods ≤ c.methods.len then overflowMethod else name
  { c with methods := c.methods.put kept (f ((c.methods.get kept).getD ⟨0,0⟩)) }

def add (t c : OpCount) : OpCount where
  picks := t.picks + c.picks
  attempts := t.attempts + c.attempts
  successes := t.successes + c.successes
  firsts := t.firsts + c.firsts
  firstFails := t.firstFails + c.firstFails
  methods := c.methods.toList.foldl (fun m row =>
    let old := (m.get row.1).getD ⟨0,0⟩
    m.put row.1 ⟨old.answered + row.2.answered,old.chain + row.2.chain⟩) t.methods

end OpCount

-- A slot without its minute, which is the ring's.
structure Slot where
  collapse : Nat
  ops : GoMap GoString OpCount

namespace Slot

def empty : Slot := ⟨0,∅⟩

def op (s : Slot) (name : GoString) (f : OpCount → OpCount) : Slot :=
  { s with ops := s.ops.put name (f ((s.ops.get name).getD .zero)) }

def pick (s : Slot) (name : GoString) : Slot := s.op name fun c => { c with picks := c.picks + 1 }

-- The buffer of operators already met holds four of them and no more.
def countPicks : List GoString → Slot → List GoString → Slot
  | _,s,[] => s
  | seen,s,op :: ops =>
      if seen.contains op then countPicks seen s ops
      else countPicks (if seen.length < 4 then seen ++ [op] else seen) (s.pick op) ops

end Slot

structure ClientSlot where
  total : Nat
  failed : Nat
  deriving DecidableEq

def clientFailed (status : Nat) : Bool :=
  decide (500 ≤ status) || decide (status = 408) || decide (status = 429)

inductive Call where
  | onCollapse (k : PoolKey) (served : List EndpointAddr)
  | onSignal (k : PoolKey) (ep : EndpointAddr) (st : Reputation.SignalType) (probe : Bool)
  | onAttempt (k : PoolKey) (ep : EndpointAddr) (attribution : Option ErrorAttribution)
      (kind : AttemptKind) (method : GoString) (retried : Bool)
  | onClientResult (svc : GoString) (status : Nat) (origin : AnswerOrigin)

def attemptFailed (attribution : Option ErrorAttribution) : Bool :=
  decide (attribution = some .supplier) || decide (attribution = some .unknown)

def OpCount.attempt (c : OpCount) (attribution : Option ErrorAttribution) (kind : AttemptKind)
    (method : GoString) (retried : Bool) : OpCount :=
  let failed := attemptFailed attribution
  let c := { c with
    attempts := c.attempts + 1
    successes := if failed then c.successes else c.successes + 1 }
  if kind ≠ .first ∧ kind ≠ .probation then c
  else
    let c := { c with firsts := c.firsts + 1 }
    if failed then { c with firstFails := c.firstFails + 1 }
    else c.method method fun m =>
      ⟨m.answered + 1,
        if attribution = some .blockchain ∧ retried = false then m.chain + 1 else m.chain⟩

def OpCount.signal (c : OpCount) (st : Reputation.SignalType) : OpCount :=
  { c with
    attempts := c.attempts + 1
    successes := if st = .success then c.successes + 1 else c.successes }

-- Which pool a call counts in, and what it does to that pool's slot of the minute.
def Call.counts (P : Platform) : Call → Option (PoolKey × (Slot → Slot))
  | .onCollapse k served =>
      if served.length = 0 then none
      else some (k,fun s =>
        Slot.countPicks [] { s with collapse := s.collapse + 1 }
          (served.map (EndpointAddr.operator P)))
  | .onSignal k ep st probe =>
      if probe = true ∨ k.rpc ≠ .webSocket then none
      else some (k,fun s => s.op (ep.operator P) (·.signal st))
  | .onAttempt k ep attribution kind method retried =>
      if attribution = some .client then none
      else some (k,fun s => s.op (ep.operator P) (·.attempt attribution kind method retried))
  | .onClientResult _ _ _ => none

def minuteOf (now : Nat) : Nat := now / 1000000000 / 60

structure Evidence where
  counting : Bool
  pools : GoMap PoolKey (Ring windowSlots Slot)
  clients : GoMap GoString (Ring windowSlots ClientSlot)

namespace Evidence

def new : Evidence := ⟨true,∅,∅⟩

def slotsOf (e : Evidence) (k : PoolKey) : Ring windowSlots Slot :=
  (e.pools.get k).getD (TickRing.new .empty)

def clientSlots (e : Evidence) (svc : GoString) : Ring windowSlots ClientSlot :=
  (e.clients.get svc).getD (TickRing.new ⟨0,0⟩)

-- A pool's first call also opens its service's window of client results.
def slot (e : Evidence) (k : PoolKey) (now : Nat) (f : Slot → Slot) : Evidence :=
  { e with
    pools := e.pools.put k (TickRing.modify .empty (minuteOf now) f (e.slotsOf k))
    clients :=
      if e.pools.has k = false ∧ e.clients.has k.svc = false then
        e.clients.put k.svc (TickRing.new ⟨0,0⟩)
      else e.clients }

def countClient (e : Evidence) (svc : GoString) (now status : Nat) (origin : AnswerOrigin) :
    Evidence :=
  if svc = [] then e
  else
    match e.clients.get svc with
    | none => e
    | some w =>
        let failed := decide (origin ≠ .chain) && clientFailed status
        { e with
          clients := e.clients.put svc (TickRing.modify ⟨0,0⟩ (minuteOf now) (fun s =>
            ⟨s.total + 1,if failed then s.failed + 1 else s.failed⟩) w) }

def call (P : Platform) (e : Evidence) (now : Nat) (c : Call) : Evidence :=
  if e.counting = false then e
  else
    match c with
    | .onClientResult svc status origin => e.countClient svc now status origin
    | c =>
        match c.counts P with
        | none => e
        | some (k,f) => e.slot k now f

structure PoolWindow where
  collapse : Nat
  ops : GoMap GoString OpCount

def addOp (t : GoMap GoString OpCount) (row : GoString × OpCount) : GoMap GoString OpCount :=
  t.put row.1 (((t.get row.1).getD .zero).add row.2)

def addSlot (w : PoolWindow) (s : Slot) : PoolWindow :=
  ⟨w.collapse + s.collapse,s.ops.toList.foldl addOp w.ops⟩

def oldest (now : Nat) : Nat := minuteOf now + 1 - windowSlots

def window (e : Evidence) (k : PoolKey) (now : Nat) : PoolWindow :=
  (TickRing.live (oldest now) (e.slotsOf k)).foldl addSlot ⟨0,∅⟩

def clientShare (e : Evidence) (svc : GoString) (now : Nat) : ℚ × Nat :=
  let live := TickRing.live (oldest now) (e.clientSlots svc)
  let requests := (live.map ClientSlot.total).sum
  if requests = 0 then (0,0) else ((live.map ClientSlot.failed).sum / requests,requests)

end Evidence

namespace Evidence.PoolWindow

def count (field : OpCount → Nat) (w : PoolWindow) (op : GoString) : Nat :=
  (w.ops.get op).elim 0 field

def share (w : PoolWindow) (op : GoString) : ℚ :=
  if 0 < w.collapse then w.count OpCount.picks op / w.collapse else 0

end Evidence.PoolWindow

end SageGateway.Autodrain
