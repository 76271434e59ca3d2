import SageGateway.Lib.GoTime
import SageGateway.Lib.Run
import SageGateway.Qos.Selector

namespace SageGateway.Qos

structure HostEntry (V : Type) where
  value : V
  expiry : Int

structure HostMemory (V : Type) where
  entries : GoMap GoString (HostEntry V)
  ttl : Int
  maxHosts : Nat

namespace HostMemory

variable {V : Type}

def get (m : HostMemory V) (now : Int) (host : GoString) : Option V :=
  match m.entries.get host with
  | none => none
  | some e => if now < e.expiry then some e.value else none

def update (m : HostMemory V) (now : Int) (host : GoString) (fn : Option V → V) : HostMemory V :=
  if host = [] then m
  else
    let entries :=
      if m.entries.has host = false ∧ m.maxHosts ≤ m.entries.len then ∅ else m.entries
    { m with entries := entries.put host ⟨fn (m.get now host),now + m.ttl⟩ }

variable {m : HostMemory V} {now : Int} {host j : GoString} {fn : Option V → V}

theorem get_some {v : V} (h : m.get now host = some v) :
    ∃ e, m.entries.get host = some e ∧ e.value = v := by
  unfold get at h
  split at h
  · cases h
  · next e he =>
    obtain ⟨-,hv⟩ := Option.ite_none_right_eq_some.mp h
    exact ⟨e,he,Option.some.inj hv⟩

theorem update_some {e : HostEntry V} (h : (m.update now host fn).entries.get j = some e) :
    (j = host ∧ e.value = fn (m.get now host)) ∨ m.entries.get j = some e := by
  unfold update at h
  split at h
  · exact .inr h
  · rcases GoMap.get_put_eq_some.mp h with ⟨rfl,rfl⟩ | ⟨-,hold⟩
    · exact .inl ⟨rfl,rfl⟩
    · split at hold
      · cases hold
      · exact .inr hold

end HostMemory

namespace Evm

def archivalTTL : Int := GoTime.hour

def maxArchivalHosts : Nat := 4096

structure ArchivalMark where
  served : UInt64
  hasServed : Bool
  refused : UInt64
  refusedAt : Int

namespace ArchivalMark

def zero : ArchivalMark := ⟨0,false,0,GoTime.zeroTime⟩

def refusing (m : ArchivalMark) (now : Int) : Bool :=
  decide (m.refusedAt ≠ GoTime.zeroTime) && decide (GoTime.sub now m.refusedAt < archivalTTL)

def withServed (m : ArchivalMark) (depth : UInt64) : ArchivalMark :=
  { m with served := max m.served depth, hasServed := true }

def withRefused (m : ArchivalMark) (depth : UInt64) (now : Int) : ArchivalMark :=
  { m with
    refused := if !m.refusing now || decide (depth < m.refused) then depth else m.refused
    refusedAt := now }

def admits (m : ArchivalMark) (depth : UInt64) (now : Int) : Bool :=
  !m.refusing now || decide (depth < m.refused)

end ArchivalMark

inductive ArchivalStatus where
  | served
  | missing
  deriving DecidableEq

structure Observation where
  time : Int
  host : GoString
  status : ArchivalStatus
  depth : UInt64
  deriving DecidableEq

abbrev Memory := HostMemory ArchivalMark

def Memory.observe (m : Memory) (o : Observation) : Memory :=
  m.update o.time o.host fun old =>
    match o.status with
    | .served => (old.getD .zero).withServed o.depth
    | .missing => (old.getD .zero).withRefused o.depth o.time

def Memory.retains (m : Memory) (now : Int) (depth : UInt64) (host : GoString) : Bool :=
  match m.get now host with
  | none => true
  | some mark => mark.admits depth now

structure Observed where
  memory : Memory
  clock : Int
  log : List Observation

namespace Observed

def start (clock : Int) : Observed := ⟨⟨∅,archivalTTL,maxArchivalHosts⟩,clock,[]⟩

def step (w : Observed) (o : Observation) : Option Observed :=
  if w.clock ≤ o.time then some ⟨Memory.observe w.memory o,o.time,o :: w.log⟩ else none

def Evidence (w : Observed) (now : Int) (depth : UInt64) (host : GoString) : Prop :=
  ∃ o ∈ w.log, o.host = host ∧ o.status = .missing ∧ o.depth ≤ depth ∧ o.time ≤ now ∧
    now - o.time < archivalTTL

instance (w : Observed) (now : Int) (depth : UInt64) (host : GoString) :
    Decidable (w.Evidence now depth host) :=
  inferInstanceAs (Decidable (∃ o ∈ w.log, _))

def Refused (log : List Observation) (host : GoString) (o : Observation) : Prop :=
  o ∈ log ∧ o.host = host ∧ o.status = .missing

-- refusals of the host, at whatever depth, each less than archivalTTL after the one before
def Renewed (log : List Observation) (host : GoString) : Observation → Observation → Prop :=
  Relation.ReflTransGen fun o p => Refused log host p ∧ p.time - o.time < archivalTTL

def Standing (w : Observed) (now : Int) (depth : UInt64) (host : GoString) : Prop :=
  ∃ o p, Refused w.log host o ∧ o.depth ≤ depth ∧ Renewed w.log host o p ∧
    Refused w.log host p ∧ p.time ≤ now ∧ now - p.time < archivalTTL

def Backs (log : List Observation) (host : GoString) (mark : ArchivalMark) : Prop :=
  mark.refusedAt = GoTime.zeroTime ∨ ∃ o p, Refused log host o ∧ o.depth = mark.refused ∧
    Renewed log host o p ∧ Refused log host p ∧ p.time = mark.refusedAt

structure Backed (w : Observed) : Prop where
  past : ∀ o ∈ w.log, o.time ≤ w.clock
  mark : ∀ host e, w.memory.entries.get host = some e → Backs w.log host e.value

variable {w w' : Observed} {log : List Observation} {host : GoString} {mark : ArchivalMark}

theorem Refused.cons {p : Observation} (h : Refused log host p) (o : Observation) :
    Refused (o :: log) host p :=
  ⟨List.mem_cons_of_mem _ h.1,h.2⟩

theorem Renewed.cons {p q : Observation} (h : Renewed log host p q) (o : Observation) :
    Renewed (o :: log) host p q :=
  Relation.ReflTransGen.mono (fun _ _ hl => ⟨hl.1.cons o,hl.2⟩) _ _ h

theorem Backs.cons (h : Backs log host mark) (o : Observation) : Backs (o :: log) host mark := by
  refine h.imp_right ?_
  rintro ⟨p,q,hp,hd,hl,hq,ht⟩
  exact ⟨p,q,hp.cons o,hd,hl.cons o,hq.cons o,ht⟩

theorem refusing_iff {now : Int} :
    mark.refusing now = true ↔ mark.refusedAt ≠ GoTime.zeroTime ∧
      now - mark.refusedAt < archivalTTL := by
  rw [ArchivalMark.refusing,Bool.and_eq_true,decide_eq_true_eq,decide_eq_true_eq,
    GoTime.sub_lt_iff (by decide) (by decide)]

theorem Backs.refuse (h : Backs log host mark) {o : Observation} (hh : o.host = host)
    (hs : o.status = .missing) :
    Backs (o :: log) host (mark.withRefused o.depth o.time) := by
  have ho : Refused (o :: log) host o := ⟨List.mem_cons_self,hh,hs⟩
  refine .inr ?_
  unfold ArchivalMark.withRefused
  split
  · exact ⟨o,o,ho,rfl,.refl,ho,rfl⟩
  · next hk =>
    -- the shallower depth stays and the new refusal only renews its time
    simp [refusing_iff] at hk
    obtain ⟨⟨hset,hli⟩,-⟩ := hk
    obtain ⟨p,q,hp,hd,hl,-,ht⟩ := h.resolve_left hset
    exact ⟨p,o,hp.cons o,hd,(hl.cons o).tail ⟨ho,ht ▸ hli⟩,ho,rfl⟩

theorem Backed.live (h : w.Backed) (now : Int) (host : GoString) :
    Backs w.log host ((w.memory.get now host).getD .zero) := by
  cases hg : w.memory.get now host with
  | none => exact .inl rfl
  | some mark =>
    obtain ⟨e,he,rfl⟩ := HostMemory.get_some hg
    exact h.mark host e he

theorem backed_step {o : Observation} (h : w.Backed) (hst : w.step o = some w') :
    w'.Backed := by
  obtain ⟨hc,rfl⟩ := Run.guard_pos hst
  refine ⟨List.forall_mem_cons.mpr ⟨Int.le_refl _,fun p hp => (h.past p hp).trans hc⟩,?_⟩
  intro host e he
  rcases HostMemory.update_some he with ⟨rfl,hv⟩ | hold
  · rw [hv]
    have hl := h.live o.time o.host
    cases hs : o.status with
    | served => exact hl.cons o
    | missing => exact hl.refuse rfl hs
  · exact (h.mark host e hold).cons o

theorem refusal_lapses_after_the_last {clock : Int}
    (h : Run.Reaches step (fun _ _ => True) (start clock) w) {now : Int} (hnow : w.clock ≤ now)
    {depth : UInt64} (hexcluded : Memory.retains w.memory now depth host = false) :
    w.Standing now depth host := by
  have hb : w.Backed := h.invariant Backed
    ⟨List.forall_mem_nil _,fun _ _ he => by cases he⟩ fun _ _ _ h _ => backed_step h
  unfold Memory.retains at hexcluded
  split at hexcluded
  · cases hexcluded
  · next mark hg =>
    obtain ⟨e,he,rfl⟩ := HostMemory.get_some hg
    simp only [ArchivalMark.admits,Bool.or_eq_false_iff,Bool.not_eq_false',
      decide_eq_false_iff_not,refusing_iff] at hexcluded
    obtain ⟨⟨hset,hli⟩,hde⟩ := hexcluded
    obtain ⟨o,p,ho,hd,hl,hp,ht⟩ := (hb.mark host e he).resolve_left hset
    exact ⟨o,p,ho,hd ▸ UInt64.not_lt.mp hde,hl,hp,
      (hb.past p hp.1).trans hnow,ht ▸ hli⟩

def refusals : List Observation :=
  [⟨0,['h'],.missing,10⟩,⟨50 * GoTime.minute,['h'],.missing,100⟩]

theorem deeper_refusal_keeps_the_shallow_one :
    ∃ w, Run.Reaches step (fun _ _ => True) (start 0) w ∧ w.clock ≤ 65 * GoTime.minute ∧
      Memory.retains w.memory (65 * GoTime.minute) 50 ['h'] = false ∧
      ¬w.Evidence (65 * GoTime.minute) 50 ['h'] :=
  Run.reaches refusals (by decide +kernel)

theorem shallow_refusal_renewed :
    ∃ w, Run.Reaches step (fun _ _ => True) (start 0) w ∧
      Memory.retains w.memory (65 * GoTime.minute) 50 ['h'] = false ∧
      w.Standing (65 * GoTime.minute) 50 ['h'] := by
  obtain ⟨w,hr,hc,he⟩ : ∃ w, Run.Reaches step (fun _ _ => True) (start 0) w ∧
      w.clock ≤ 65 * GoTime.minute ∧
      Memory.retains w.memory (65 * GoTime.minute) 50 ['h'] = false :=
    Run.reaches refusals (by decide +kernel)
  exact ⟨w,hr,he,refusal_lapses_after_the_last hr hc he⟩

end Observed

def hostKey (addr : EndpointAddr) : GoString :=
  if EndpointAddr.domain addr ≠ [] then EndpointAddr.domain addr else addr

inductive ArchivalOutcome where
  | filtered
  | noop
  | bypassed
  deriving DecidableEq

structure RetentionView where
  archival : Memory
  logs : Memory
  now : Int
  archivalRouting : Option Bool
  party : EndpointAddr → GoString

namespace RetentionView

variable (v : RetentionView)

def archivalFilter (needs : Option UInt64) : FilterFunc := fun addr =>
  needs.all fun depth => Memory.retains v.archival v.now depth (hostKey addr)

def logsFilter (needs : Option UInt64) : FilterFunc := fun addr =>
  needs.all fun depth => Memory.retains v.logs v.now depth (hostKey addr)

def partyOf (ep : EndpointAddr) : GoString := if v.party ep ≠ [] then v.party ep else ep

def parties (eps : List EndpointAddr) : Finset GoString := (eps.map v.partyOf).toFinset

def partyCounts (eps : List EndpointAddr) (keep : FilterFunc) : Nat × Nat :=
  let kept := v.parties (eps.filter keep)
  (kept.card,(v.parties (eps.filter fun ep => !keep ep) \ kept).card)

def decideArchival (eps : List EndpointAddr) (keep : FilterFunc) : ArchivalOutcome × Nat × Bool :=
  match v.partyCounts eps keep with
  | (kept,removed) =>
      if kept < 2 then (.bypassed,0,false)
      else if removed = 0 then (.noop,removed,true)
      else (.filtered,removed,true)

-- A need is the depth the request names; a filter that is not applied has none left.
def decided (eps : List EndpointAddr) (filter : Option UInt64 → FilterFunc) :
    Option UInt64 → Option UInt64
  | none => none
  | some depth => if (v.decideArchival eps (filter (some depth))).2.2 then some depth else none

def needs (eps : List EndpointAddr) (archival logs : Option UInt64) :
    Option UInt64 × Option UInt64 :=
  if (archival.isSome ∨ logs.isSome) ∧ v.archivalRouting = some false then (none,none)
  else
    let archival := v.decided eps v.archivalFilter archival
    (archival,v.decided eps (fun logs addr => v.archivalFilter archival addr &&
      v.logsFilter logs addr) logs)

def retentionFilters (eps : List EndpointAddr) (archival logs : Option UInt64) : List FilterFunc :=
  [v.archivalFilter (v.needs eps archival logs).1,v.logsFilter (v.needs eps archival logs).2]

def selectEndpoints (getHeight : HeightFunc) (perceived syncAllowance : UInt64)
    (archival logs : Option UInt64) (eps : List EndpointAddr) : SelectResult :=
  if eps.length = 0 then ⟨[],false,0⟩
  else Qos.selectEndpoints getHeight perceived syncAllowance
    (some (v.retentionFilters eps archival logs)) eps

variable {v} {eps : List EndpointAddr}

def TwoParties (v : RetentionView) (eps : List EndpointAddr) (keep : FilterFunc) : Prop :=
  ∃ a ∈ eps, ∃ b ∈ eps, keep a = true ∧ keep b = true ∧ v.partyOf a ≠ v.partyOf b

theorem decideArchival_parties {keep : FilterFunc}
    (h : (v.decideArchival eps keep).2.2 = true) : v.TwoParties eps keep := by
  have ht : 1 < (v.parties (eps.filter keep)).card := by
    unfold decideArchival partyCounts at h
    dsimp only at h
    split at h
    · cases h
    · omega
  obtain ⟨p,hp,q,hq,hne⟩ := Finset.one_lt_card.mp ht
  simp [parties] at hp hq
  obtain ⟨a,⟨ha,hka⟩,rfl⟩ := hp
  obtain ⟨b,⟨hb,hkb⟩,rfl⟩ := hq
  exact ⟨a,ha,b,hb,hka,hkb,hne⟩

theorem decided_parties {filter : Option UInt64 → FilterFunc} {need : Option UInt64}
    (h : v.decided eps filter need ≠ none) :
    v.TwoParties eps (filter (v.decided eps filter need)) := by
  cases need with
  | none => exact absurd rfl h
  | some depth =>
    simp only [decided] at h ⊢
    split_ifs at h ⊢ with ha
    · exact decideArchival_parties ha
    · exact absurd rfl h

theorem retention_leaves_two_parties (v : RetentionView) (eps : List EndpointAddr)
    (archival logs : Option UInt64) (h : v.needs eps archival logs ≠ (none,none)) :
    v.TwoParties eps (passed (v.retentionFilters eps archival logs)) := by
  have hb : passed (v.retentionFilters eps archival logs) = fun ep =>
      v.archivalFilter (v.needs eps archival logs).1 ep &&
        v.logsFilter (v.needs eps archival logs).2 ep := by
    funext ep
    simp [passed_eq_all,retentionFilters]
  rw [hb]
  unfold needs at h ⊢
  split_ifs at h ⊢ with ho
  · exact absurd rfl h
  dsimp only at h ⊢
  cases hl : v.decided eps (fun logs addr =>
      v.archivalFilter (v.decided eps v.archivalFilter archival) addr && v.logsFilter logs addr)
        logs with
  | none =>
    -- the second filter was not needed or was dropped again: the first stands alone
    rw [hl] at h
    have ha : v.decided eps v.archivalFilter archival ≠ none := fun hn =>
      h (by rw [hn])
    simpa [logsFilter] using decided_parties ha
  | some depth =>
    rw [← hl]
    exact decided_parties (hl ▸ Option.some_ne_none depth)

def prunedAt (host : GoString) : Memory :=
  Memory.observe ⟨∅,archivalTTL,maxArchivalHosts⟩ ⟨0,host,.missing,10⟩

-- The first host keeps no state, the second no logs: with the log filter on top one party would be
-- left, so the log filter is dropped.
def halfPruned : RetentionView := ⟨prunedAt ['a'],prunedAt ['b'],1,none,id⟩

theorem dropped_log_filter_leaves_two_parties :
    halfPruned.needs [['a'],['b'],['c']] (some 50) (some 50) = (some 50,none) ∧
      halfPruned.TwoParties [['a'],['b'],['c']]
        (passed (halfPruned.retentionFilters [['a'],['b'],['c']] (some 50) (some 50))) := by
  have hn : halfPruned.needs [['a'],['b'],['c']] (some 50) (some 50) = (some 50,none) := by
    decide +kernel
  exact ⟨hn,retention_leaves_two_parties _ _ _ _ (by rw [hn]; decide)⟩

end RetentionView

end Evm

end SageGateway.Qos
