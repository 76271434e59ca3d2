import SageGateway.Lib.GoMap
import SageGateway.Lib.GoString
import SageGateway.Lib.GoTime
import Mathlib.Data.Rat.Defs

namespace SageGateway.CircuitBreaker

def defaultCacheTTL : Int := 5 * GoTime.second

def defaultMinTTL : Int := GoTime.minute

def defaultMaxTTL : Int := 30 * GoTime.minute

def defaultEscalationMemory : Int := 60 * GoTime.minute

structure Key where
  serviceID : GoString
  domain : GoString
  deriving DecidableEq

structure BrokenState where
  expiry : Int
  hitCount : Nat
  reason : GoString
  deriving DecidableEq

def BrokenState.isExpired (st : BrokenState) (now : Int) : Bool := st.expiry < now

structure OutcomeWindow where
  windowStart : Int
  failures : Nat
  successes : Nat
  lastEpisodeAt : Option Int
  lastHitCount : Nat
  deriving DecidableEq

structure Gate (F : Type) where
  failureWindow : Int
  minFailures : Int
  failureRateThreshold : F
  rebreakMargin : F

def defaultGate : Gate ℚ := ⟨30 * GoTime.second,5,1 / 5,3 / 20⟩

structure Breaker where
  broken : GoMap Key BrokenState
  brokenLocally : GoMap Key Int
  stats : GoMap Key OutcomeWindow

def Breaker.new : Breaker := ⟨∅,∅,∅⟩

def escalateTTL (hitCount : Nat) : Int :=
  let ttl := defaultMinTTL * ((1 <<< Nat.min hitCount 5 : Nat) : Int)
  if defaultMaxTTL < ttl then defaultMaxTTL else ttl

section Windows

variable {F : Type}

def OutcomeWindow.start (now : Int) : OutcomeWindow := ⟨now,0,0,none,0⟩

def OutcomeWindow.roll (g : Gate F) (w : OutcomeWindow) (now : Int) : OutcomeWindow :=
  if g.failureWindow < GoTime.sub now w.windowStart then
    { w with windowStart := now, failures := 0, successes := 0 }
  else w

def OutcomeWindow.recentlyBroken (w : OutcomeWindow) (now : Int) : Bool :=
  match w.lastEpisodeAt with
  | some last => GoTime.sub now last ≤ defaultEscalationMemory
  | none => false

def windowLocked (g : Gate F) (stats : GoMap Key OutcomeWindow) (k : Key) (now : Int) :
    OutcomeWindow :=
  match stats.get k with
  | none => .start now
  | some w => w.roll g now

def recordSuccess (g : Gate F) (b : Breaker) (k : Key) (now : Int) : Breaker :=
  if k.domain = [] then b
  else
    let w := windowLocked g b.stats k now
    { b with stats := b.stats.put k { w with successes := w.successes + 1 } }

end Windows

section Gates

variable {F : Type} [Add F] [Div F] [NatCast F] [LT F] [DecidableLT F]

def OutcomeWindow.threshold (g : Gate F) (w : OutcomeWindow) (now : Int) : F :=
  if w.recentlyBroken now then g.failureRateThreshold + g.rebreakMargin else g.failureRateThreshold

def OutcomeWindow.breaks (g : Gate F) (w : OutcomeWindow) (now : Int) : Bool :=
  !decide ((w.failures : Int) < g.minFailures ∨ w.failures + w.successes = 0) &&
    !decide ((w.failures : F) / ((w.failures + w.successes : Nat) : F) < w.threshold g now)

def OutcomeWindow.nextHitCount (w : OutcomeWindow) (now : Int) : Nat :=
  if w.recentlyBroken now then w.lastHitCount + 1 else 1

def shouldBreak (g : Gate F) (stats : GoMap Key OutcomeWindow) (k : Key) (now : Int) :
    GoMap Key OutcomeWindow × Option Nat :=
  let w := windowLocked g stats k now
  let w := { w with failures := w.failures + 1 }
  if w.breaks g now then
    (stats.put k ⟨now,0,0,some now,w.nextHitCount now⟩,some (w.nextHitCount now))
  else (stats.put k w,none)

def Breaker.alreadyBroken (b : Breaker) (k : Key) (now : Int) : Bool :=
  match b.broken.get k with
  | some st => now < st.expiry
  | none => false

def brokenState (now : Int) (hitCount : Nat) (reason : GoString) : BrokenState :=
  ⟨now + escalateTTL (hitCount - 1),hitCount,reason⟩

def Breaker.publish (b : Breaker) (k : Key) (now : Int) (st : BrokenState) : Breaker :=
  { b with broken := b.broken.put k st, brokenLocally := b.brokenLocally.put k now }

def markBroken (g : Gate F) (b : Breaker) (k : Key) (reason : GoString) (now : Int) :
    Breaker × Bool :=
  if b.alreadyBroken k now then (b,false)
  else
    let (stats,hit) := shouldBreak g b.stats k now
    match hit with
    | none => ({ b with stats := stats },false)
    | some n => (({ b with stats := stats }).publish k now (brokenState now n reason),true)

end Gates

inductive MarkCall where
  | called (k : Key) (reason : GoString) (now : Int)
  | passed (k : Key) (reason : GoString) (now : Int)
  | breaking (k : Key) (now : Int) (st : BrokenState)
  | persisting (k : Key) (st : BrokenState)
  | expiring (k : Key)
  deriving DecidableEq

def MarkCall.reading : MarkCall → Option Int
  | .called _ _ now => some now
  | .passed _ _ now => some now
  | .breaking _ now _ => some now
  | _ => none

structure Replica where
  breaker : Breaker
  calls : GoMap Nat MarkCall

def Replica.new : Replica := ⟨.new,∅⟩

namespace Replica

inductive Act where
  | success (k : Key)
  | mark (n : Nat) (k : Key) (reason : GoString)
  | check (n : Nat)
  | gate (n : Nat)
  | publish (n : Nat)
  deriving DecidableEq

variable {F : Type} [Add F] [Div F] [NatCast F] [LT F] [DecidableLT F]

def setCall (r : Replica) (n : Nat) (c : MarkCall) : Replica := { r with calls := r.calls.put n c }

def endCall (r : Replica) (n : Nat) : Replica := { r with calls := r.calls.del n }

def checkCall (r : Replica) (n : Nat) : Option Replica :=
  match r.calls.get n with
  | some (.called k reason now) =>
      some (if r.breaker.alreadyBroken k now then r.endCall n
        else r.setCall n (.passed k reason now))
  | _ => none

def gateCall (g : Gate F) (r : Replica) (n : Nat) : Option Replica :=
  match r.calls.get n with
  | some (.passed k reason now) =>
      let out := shouldBreak g r.breaker.stats k now
      let r' := { r with breaker := { r.breaker with stats := out.1 } }
      match out.2 with
      | none => some (r'.endCall n)
      | some hit => some (r'.setCall n (.breaking k now (brokenState now hit reason)))
  | _ => none

def publishCall (redis : Bool) (r : Replica) (n : Nat) : Option Replica :=
  match r.calls.get n with
  | some (.breaking k now st) =>
      let r' := { r with breaker := r.breaker.publish k now st }
      some (if redis then r'.setCall n (.persisting k st) else r'.endCall n)
  | _ => none

def step (g : Gate F) (redis : Bool) (clock : Int) (r : Replica) : Act → Option Replica
  | .success k => some { r with breaker := recordSuccess g r.breaker k clock }
  | .mark n k reason => if r.calls.has n then none else some (r.setCall n (.called k reason clock))
  | .check n => r.checkCall n
  | .gate n => r.gateCall g n
  | .publish n => r.publishCall redis n

end Replica

structure MarkView where
  calls : GoMap Nat MarkCall
  broken : GoMap Key BrokenState

def Replica.view (r : Replica) : MarkView := ⟨r.calls,r.breaker.broken⟩

inductive MarkEvent where
  | quiet
  | called (n : Nat) (k : Key) (reason : GoString) (now : Int)
  | ended (n : Nat)
  | passed (n : Nat) (k : Key) (reason : GoString) (now : Int)
  | decided (n : Nat) (k : Key) (now : Int) (st : BrokenState)
  | published (n : Nat) (k : Key) (now : Int) (st : BrokenState)
  deriving DecidableEq

namespace MarkEvent

def apply (redis : Bool) (v : MarkView) : MarkEvent → MarkView
  | .quiet => v
  | .called n k reason now => { v with calls := v.calls.put n (.called k reason now) }
  | .ended n => { v with calls := v.calls.del n }
  | .passed n k reason now => { v with calls := v.calls.put n (.passed k reason now) }
  | .decided n k now st => { v with calls := v.calls.put n (.breaking k now st) }
  | .published n k _ st =>
      ⟨if redis then v.calls.put n (.persisting k st) else v.calls.del n,v.broken.put k st⟩

def Fits (clock : Int) (v : MarkView) : MarkEvent → Prop
  | .quiet => True
  | .called n _ _ now => v.calls.get n = none ∧ now = clock
  | .ended n => ∃ c, v.calls.get n = some c ∧ c.reading ≠ none
  | .passed n k reason now =>
      v.calls.get n = some (.called k reason now) ∧ ∀ st, v.broken.get k = some st → st.expiry ≤ now
  | .decided n k now st =>
      (∃ reason, v.calls.get n = some (.passed k reason now)) ∧ now ≤ st.expiry
  | .published n k now st => v.calls.get n = some (.breaking k now st)

end MarkEvent

theorem escalateTTL_pos (n : Nat) : 0 < escalateTTL n := by
  have hs : 0 < (1 <<< Nat.min n 5 : Nat) := by
    rw [Nat.one_shiftLeft]
    exact Nat.two_pow_pos _
  simp only [escalateTTL]
  split_ifs
  · decide
  · exact Int.mul_pos (by decide) (Int.natCast_pos.mpr hs)

theorem escalateTTL_capped {n : Nat} (h : 5 ≤ n) : escalateTTL n = defaultMaxTTL := by
  unfold escalateTTL
  rw [show Nat.min n 5 = 5 from Nat.min_eq_right h]
  rfl

namespace Replica

variable {F : Type} [Add F] [Div F] [NatCast F] [LT F] [DecidableLT F]

def event (g : Gate F) (clock : Int) (r : Replica) : Act → MarkEvent
  | .success _ => .quiet
  | .mark n k reason => .called n k reason clock
  | .check n =>
      match r.calls.get n with
      | some (.called k reason now) =>
          if r.breaker.alreadyBroken k now then .ended n else .passed n k reason now
      | _ => .quiet
  | .gate n =>
      match r.calls.get n with
      | some (.passed k reason now) =>
          match (shouldBreak g r.breaker.stats k now).2 with
          | none => .ended n
          | some hit => .decided n k now (brokenState now hit reason)
      | _ => .quiet
  | .publish n =>
      match r.calls.get n with
      | some (.breaking k now st) => .published n k now st
      | _ => .quiet

theorem view_step {g : Gate F} {redis : Bool} {clock : Int} {r r' : Replica} {a : Act}
    (h : r.step g redis clock a = some r') : r'.view = (r.event g clock a).apply redis r.view := by
  cases a with
  | success k =>
    cases h
    simp [view,event,MarkEvent.apply,recordSuccess]
    split_ifs <;> rfl
  | mark n k reason =>
    obtain ⟨-,hr⟩ := Option.ite_none_left_eq_some.mp h
    cases hr
    rfl
  | check n =>
    simp [step,checkCall] at h
    split at h
    · rename_i k reason now hg
      cases h
      simp [event,hg]
      split_ifs <;> rfl
    · cases h
  | gate n =>
    simp [step,gateCall] at h
    split at h
    · rename_i k reason now hg
      simp [event,hg]
      split at h
      · cases h
        rfl
      · cases h
        rfl
    · cases h
  | publish n =>
    simp [step,publishCall] at h
    split at h
    · rename_i k now st hg
      cases h
      simp [event,hg,MarkEvent.apply]
      split_ifs <;> rfl
    · cases h

theorem event_fits {g : Gate F} {redis : Bool} {clock : Int} {r r' : Replica} {a : Act}
    (h : r.step g redis clock a = some r') : (r.event g clock a).Fits clock r.view := by
  cases a with
  | success k => trivial
  | mark n k reason =>
    obtain ⟨hf,-⟩ := Option.ite_none_left_eq_some.mp h
    exact ⟨Option.not_isSome_iff_eq_none.mp hf,rfl⟩
  | check n =>
    simp [event]
    split
    · rename_i k reason now hg
      split_ifs with hb
      · exact ⟨_,hg,nofun⟩
      · refine ⟨hg,fun st hst => ?_⟩
        change r.breaker.broken.get k = some st at hst
        rw [Breaker.alreadyBroken,hst] at hb
        simpa using hb
    · trivial
  | gate n =>
    simp [event]
    split
    · rename_i k reason now hg
      split
      · exact ⟨_,hg,nofun⟩
      · rename_i hit _
        have hp := escalateTTL_pos (hit - 1)
        exact ⟨⟨reason,hg⟩,by simp [brokenState]; omega⟩
    · trivial
  | publish n =>
    simp [event]
    split
    · rename_i k now st hg
      exact hg
    · trivial

end Replica

end SageGateway.CircuitBreaker
