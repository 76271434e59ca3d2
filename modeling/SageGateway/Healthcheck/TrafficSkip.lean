import SageGateway.Domain
import SageGateway.Lib.GoMap
import SageGateway.Lib.GoTime
import SageGateway.Lib.Run

namespace SageGateway.Healthcheck

structure TrafficKey where
  service : GoString
  backend : GoString
  rpcType : RPCType
  deriving DecidableEq

structure TrafficReading where
  signals : Nat
  time : Int
  deriving DecidableEq

-- A check found due on a backend, with what is asked about it before it is probed.
structure DueCheck where
  key : TrafficKey
  name : GoString
  essential : Bool
  interval : Int
  warm : Bool
  heightIsFresh : Bool
  enabled : Bool
  traffic : Option Nat
  deriving DecidableEq

def DueCheck.asks (c : DueCheck) : Bool :=
  c.warm && (!c.essential || c.heightIsFresh) && c.enabled

def maxBaselineAge : Int := 30 * GoTime.minute

structure TrafficSkipper where
  minSignals : Nat
  prev : GoMap TrafficKey TrafficReading
  next : GoMap TrafficKey TrafficReading

namespace TrafficSkipper

def new (minSignals : Nat) : TrafficSkipper := ⟨minSignals,∅,∅⟩

def beginCycle (t : TrafficSkipper) : TrafficSkipper := { t with next := ∅ }

def carry (cutoff : Int) (next : GoMap TrafficKey TrafficReading)
    (row : TrafficKey × TrafficReading) : GoMap TrafficKey TrafficReading :=
  if next.has row.1 then next else if row.2.time < cutoff then next else next.put row.1 row.2

def endCycle (t : TrafficSkipper) (now : Int) : TrafficSkipper :=
  let next := t.prev.toList.foldl (carry (now - maxBaselineAge)) t.next
  { t with prev := next, next := next }

def skip (t : TrafficSkipper) (c : DueCheck) (now : Int) : TrafficSkipper × Bool :=
  match c.traffic with
  | none => (t,false)
  | some signals =>
      match t.prev.get c.key with
      | none => ({ t with next := t.next.put c.key ⟨signals,now⟩ },false)
      | some before =>
          if GoTime.sub now before.time < c.interval then
            ({ t with next := t.next.put c.key before },false)
          else
            let t' := { t with next := t.next.put c.key ⟨signals,now⟩ }
            if signals < before.signals then (t',false)
            else if signals - before.signals < t.minSignals then (t',false)
            else (t',true)

def skipCoveredByTraffic (t : TrafficSkipper) (c : DueCheck) (now : Int) : TrafficSkipper × Bool :=
  if c.asks then t.skip c now else (t,false)

-- The reading a backend will be compared with next.
def window (t : TrafficSkipper) (k : TrafficKey) : Option TrafficReading :=
  (t.next.get k).or (t.prev.get k)

end TrafficSkipper

structure Decision where
  time : Int
  check : DueCheck
  skipped : Bool
  deriving DecidableEq

-- A backend gained enough over the window a reading opened.
def Covers (minSignals : Nat) (b : TrafficReading) (time : Int) (c : DueCheck) : Prop :=
  c.interval ≤ GoTime.sub time b.time ∧ ∃ signals, c.traffic = some signals ∧
    b.signals + minSignals ≤ signals

-- The window of one check alone: it opens at its first reading and anew at each one it outlasts.
def windowOf : List Decision → Option TrafficReading
  | [] => none
  | d :: past =>
      match d.check.traffic with
      | none => windowOf past
      | some signals =>
          match windowOf past with
          | none => some ⟨signals,d.time⟩
          | some b =>
              if GoTime.sub d.time b.time < d.check.interval then some b else some ⟨signals,d.time⟩

structure Probing where
  skipper : TrafficSkipper
  -- The current cycle's time, none between two cycles.
  cycle : Option Int
  -- History: the decisions made, newest first, and the checks decided in this cycle.
  log : List Decision
  decided : List (TrafficKey × GoString)

inductive Act where
  | beginCycle (now : Int)
  | due (c : DueCheck)
  | endCycle
  deriving DecidableEq

namespace Probing

def new (minSignals : Nat) : Probing := ⟨.new minSignals,none,[],[]⟩

def step (p : Probing) : Act → Option Probing
  | .beginCycle now =>
      if p.cycle.isSome then none
      else some { p with skipper := p.skipper.beginCycle, cycle := some now, decided := [] }
  | .due c =>
      p.cycle.map fun now =>
        let r := p.skipper.skipCoveredByTraffic c now
        { p with
          skipper := r.1
          log := if c.asks then ⟨now,c,r.2⟩ :: p.log else p.log
          decided := if c.asks then (c.key,c.name) :: p.decided else p.decided }
  | .endCycle =>
      p.cycle.map fun now => { p with skipper := p.skipper.endCycle now, cycle := none }

end Probing

namespace TrafficSkipper

variable {t : TrafficSkipper} {c : DueCheck} {now : Int} {k : TrafficKey}

theorem skip_prev :
    (t.skip c now).1.prev = t.prev ∧ (t.skip c now).1.minSignals = t.minSignals := by
  unfold skip
  split
  · exact ⟨rfl,rfl⟩
  · split
    · exact ⟨rfl,rfl⟩
    · split
      · exact ⟨rfl,rfl⟩
      · split
        · exact ⟨rfl,rfl⟩
        · split
          · exact ⟨rfl,rfl⟩
          · exact ⟨rfl,rfl⟩

variable (t c now) in
theorem skip_next :
    (t.skip c now).1.next = t.next ∧ c.traffic = none ∨
      ∃ signals, c.traffic = some signals ∧ (t.skip c now).1.next = t.next.put c.key
        (match t.prev.get c.key with
          | none => ⟨signals,now⟩
          | some b => if GoTime.sub now b.time < c.interval then b else ⟨signals,now⟩) := by
  unfold skip
  cases ht : c.traffic with
  | none => exact .inl ⟨rfl,rfl⟩
  | some signals =>
    refine .inr ⟨signals,rfl,?_⟩
    cases t.prev.get c.key with
    | none => rfl
    | some before =>
      dsimp only
      split
      · rfl
      · split
        · rfl
        · split
          · rfl
          · rfl

-- A check leaves its backend's reading alone without traffic of its own, while its interval has not
-- run out since the cycle's reading and that still stands, or where it takes the one that stands.
def Leaves (t : TrafficSkipper) (c : DueCheck) (now : Int) : Prop :=
  ∀ signals ∈ c.traffic,
    (∃ b ∈ t.prev.get c.key, GoTime.sub now b.time < c.interval ∧ t.window c.key = some b) ∨
      (∀ b ∈ t.prev.get c.key, c.interval ≤ GoTime.sub now b.time) ∧
        t.window c.key = some ⟨signals,now⟩

instance : Decidable (t.Leaves c now) := by
  unfold Leaves
  infer_instance

theorem window_skip (h : t.Leaves c now) : (t.skip c now).1.window c.key = t.window c.key := by
  obtain ⟨hn,-⟩ | ⟨signals,ht,hn⟩ := t.skip_next c now
  · unfold window
    rw [hn,skip_prev.1]
  · rw [window,hn,GoMap.get_put_self,Option.some_or]
    rcases h signals ht with ⟨b,hb,hlt,hs⟩ | ⟨hd,hs⟩
    · rw [hs,show t.prev.get c.key = some b from hb]
      exact congrArg some (if_pos hlt)
    · rw [hs]
      cases hp : t.prev.get c.key with
      | none => rfl
      | some b => exact congrArg some (if_neg (Int.not_lt.mpr (hd b hp)))

theorem skip_iff :
    (t.skip c now).2 = true ↔
      ∃ b, t.prev.get c.key = some b ∧ Covers t.minSignals b now c := by
  unfold skip Covers
  cases ht : c.traffic with
  | none => simp
  | some signals =>
    cases hp : t.prev.get c.key with
    | none => simp
    | some before =>
      simp [Option.some.injEq]
      split
      · next ho => exact ⟨Bool.noConfusion,fun h => absurd ho (Int.not_lt.mpr h.1)⟩
      · next he =>
        split
        · next hb => exact ⟨Bool.noConfusion,fun h => by omega⟩
        · split
          · next hf => exact ⟨Bool.noConfusion,fun h => by omega⟩
          · next hm => exact ⟨fun _ => ⟨Int.not_lt.mp he,by omega⟩,fun _ => rfl⟩

def carried (cutoff : Int) (b : TrafficReading) (o : Option TrafficReading) :
    Option TrafficReading := o.or (if b.time < cutoff then none else some b)

theorem get_carry (cutoff : Int) (next : GoMap TrafficKey TrafficReading)
    (row : TrafficKey × TrafficReading) :
    (carry cutoff next row).get (id row.1) = carried cutoff row.2 (next.get (id row.1)) := by
  unfold carry carried
  cases hg : next.get row.1 with
  | some b =>
    rw [if_pos ((GoMap.has_iff _ _).mpr ⟨b,hg⟩),id_eq,hg]
    rfl
  | none =>
    rw [if_neg (by simp [GoMap.has,hg]),id_eq,hg]
    by_cases hold : row.2.time < cutoff
    · rw [if_pos hold,if_pos hold,hg]
      rfl
    · rw [if_neg hold,if_neg hold,GoMap.get_put_self]
      rfl

theorem get_carry_ne (cutoff : Int) (next : GoMap TrafficKey TrafficReading)
    (row : TrafficKey × TrafficReading) (j : TrafficKey) (hj : j ≠ id row.1) :
    (carry cutoff next row).get j = next.get j := by
  unfold carry
  split
  · rfl
  · split
    · rfl
    · exact GoMap.get_put_ne next row.2 hj

theorem get_endCycle (t : TrafficSkipper) (now : Int) (k : TrafficKey) :
    (t.endCycle now).prev.get k = (t.prev.get k).elim (t.next.get k) fun b =>
      carried (now - maxBaselineAge) b (t.next.get k) := by
  have hr := t.prev.iterates_toList
  cases hp : t.prev.get k with
  | some b =>
    exact GoMap.get_foldl_of_mem Function.injective_id (get_carry_ne _) (get_carry _) hr.nodup
      ((hr.mem_iff k b).mpr hp) t.next
  | none =>
    refine GoMap.get_foldl_of_notMem id (get_carry_ne _) (fun row hro heq => ?_) t.next
    subst heq
    rw [id_eq,(hr.mem_iff row.1 row.2).mp hro] at hp
    cases hp

end TrafficSkipper

end SageGateway.Healthcheck
