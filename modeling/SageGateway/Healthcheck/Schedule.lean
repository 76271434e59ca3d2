import Mathlib.Tactic.Ring
import SageGateway.Domain
import SageGateway.Lib.GoMap
import SageGateway.Lib.GoTime
import SageGateway.Lib.Run
import SageGateway.Lib.TickRing

namespace SageGateway.Healthcheck

open List

structure ProbeKey where
  service : GoString
  backend : GoString
  check : GoString
  deriving DecidableEq

structure BackendGroup where
  key : GoString
  endpoints : List EndpointAddr
  nonempty : endpoints ≠ []

namespace BackendGroup

def probe (g : BackendGroup) (cycle : Nat) : EndpointAddr :=
  g.endpoints.get ⟨cycle % g.endpoints.length,Nat.mod_lt _ (List.length_pos_iff.mpr g.nonempty)⟩

end BackendGroup

structure Check where
  name : GoString
  interval : Int
  -- Answered by another instance or by client traffic.
  covered : Bool
  deriving DecidableEq

structure Job where
  service : GoString
  serviceInterval : Int
  group : BackendGroup
  checks : List Check

structure Probe where
  key : ProbeKey
  endpoint : EndpointAddr
  deriving DecidableEq

structure Executor where
  cycle : Nat
  lastRun : GoMap ProbeKey Int

structure Round where
  next : GoMap ProbeKey Int
  probes : List Probe

structure Cycle where
  tick : Int
  now : Int
  jobs : List Job

namespace Executor

def due (e : Executor) (key : ProbeKey) (interval tick now : Int) (next : GoMap ProbeKey Int) :
    Bool × GoMap ProbeKey Int :=
  match e.lastRun.get key with
  | some last =>
      if GoTime.sub now last < interval - tick / 2 then (false,next.put key last)
      else (true,next.put key now)
  | none => (true,next.put key now)

def consider (e : Executor) (tick now : Int) (r : Round) (row : Job × Check) : Round :=
  let key : ProbeKey := ⟨row.1.service,row.1.group.key,row.2.name⟩
  let d := e.due key (max row.2.interval row.1.serviceInterval) tick now r.next
  if d.1 = false ∨ row.2.covered = true then { r with next := d.2 }
  else ⟨d.2,r.probes ++ [⟨key,row.1.group.probe e.cycle⟩]⟩

def runOnce (e : Executor) (c : Cycle) : Executor × List Probe :=
  let rows := c.jobs.flatMap fun j => j.checks.map (Prod.mk j)
  let r := rows.foldl (e.consider c.tick c.now) ⟨∅,[]⟩
  (⟨e.cycle + 1,r.next⟩,r.probes)

end Executor

structure Rotation where
  executor : Executor
  -- History: the cycles in which the check was probed, newest first, and who carried it.
  log : List (Nat × EndpointAddr)

namespace Rotation

def start (e : Executor) : Rotation := ⟨e,[]⟩

def step (k : ProbeKey) (w : Rotation) (c : Cycle) : Option Rotation :=
  let r := w.executor.runOnce c
  some ⟨r.1,match r.2.find? (fun p => decide (p.key = k)) with
    | some p => (w.executor.cycle,p.endpoint) :: w.log
    | none => w.log⟩

-- The backend's group stays as it is, and the check is probed every so many cycles.
def Steady (k : ProbeKey) (g : BackendGroup) (every : Nat) (w : Rotation) (c : Cycle) : Prop :=
  (∀ j ∈ c.jobs, j.service = k.service → j.group.key = k.backend → j.group = g) ∧
    ∀ last ∈ w.log.head?, (∃ p ∈ (w.executor.runOnce c).2, p.key = k) ↔
      w.executor.cycle = last.1 + every

def turns (g : BackendGroup) (first every : Nat) : Nat → List (Nat × EndpointAddr)
  | 0 => []
  | m + 1 => (first + m * every,g.probe (first + m * every)) :: turns g first every m

end Rotation

namespace Executor

variable {e : Executor} {k : ProbeKey} {g : BackendGroup} {c : Cycle}

theorem probes_rotate (tick now : Int) {rows : List (Job × Check)}
    (hro : ∀ row ∈ rows, row.1.service = k.service → row.1.group.key = k.backend →
      row.1.group = g) {r : Round} (hr : ∀ p ∈ r.probes, p.key = k → p.endpoint = g.probe e.cycle) :
    ∀ p ∈ (rows.foldl (e.consider tick now) r).probes, p.key = k →
      p.endpoint = g.probe e.cycle := by
  induction rows generalizing r with
  | nil => exact hr
  | cons row rows ih =>
    refine ih (fun row' hr' => hro row' (mem_cons_of_mem row hr')) ?_
    intro p hp hk
    unfold consider at hp
    dsimp only at hp
    split at hp
    · exact hr p hp hk
    · rcases mem_append.mp hp with hold | hn
      · exact hr p hold hk
      · cases mem_singleton.mp hn
        subst hk
        rw [hro row mem_cons_self rfl rfl]

theorem runOnce_probe (hjo : ∀ j ∈ c.jobs, j.service = k.service → j.group.key = k.backend →
    j.group = g) {p : Probe} (hp : p ∈ (e.runOnce c).2) (hk : p.key = k) :
    p.endpoint = g.probe e.cycle := by
  refine probes_rotate c.tick c.now (fun row hr => ?_) (fun p hp => by cases hp) p hp hk
  obtain ⟨j,hj,hr⟩ := mem_flatMap.mp hr
  obtain ⟨check,-,rfl⟩ := mem_map.mp hr
  exact hjo j hj

end Executor

namespace Rotation

variable {k : ProbeKey} {g : BackendGroup} {every : Nat} {w w' : Rotation}

theorem turns_length (g : BackendGroup) (first every m : Nat) :
    (turns g first every m).length = m := by
  induction m with
  | zero => rfl
  | succ m ih => rw [turns,length_cons,ih]

theorem mem_turns {first m : Nat} {c : Nat} {ep : EndpointAddr} :
    (c,ep) ∈ turns g first every m ↔
      ∃ i < m, c = first + i * every ∧ ep = g.probe (first + i * every) := by
  induction m with
  | zero => simp [turns]
  | succ m ih =>
    rw [turns,mem_cons,ih]
    constructor
    · rintro (heq | ⟨i,hi,hr⟩)
      · cases heq
        exact ⟨m,Nat.lt_succ_self m,rfl,rfl⟩
      · exact ⟨i,Nat.lt_succ_of_lt hi,hr⟩
    · rintro ⟨i,hi,rfl,rfl⟩
      rcases Nat.lt_succ_iff_lt_or_eq.mp hi with hlt | rfl
      · exact .inr ⟨i,hlt,rfl,rfl⟩
      · exact .inl rfl

theorem take_turns (g : BackendGroup) (first every n m : Nat) :
    (turns g first every (n + m)).take n = turns g (first + m * every) every n := by
  induction n with
  | zero => rfl
  | succ n ih =>
    rw [Nat.add_right_comm,turns,turns,take_succ_cons,ih,Nat.add_mul,Nat.add_comm (n * every),
      ← Nat.add_assoc]

theorem Steady.step {first m : Nat} {c : Cycle} (hok : Steady k g every w c)
    (hl : w.log = turns g first every m) (hs : w.step k c = some w') :
    ∃ first m, w'.log = turns g first every m := by
  cases hs
  cases hf : (w.executor.runOnce c).2.find? (fun p => decide (p.key = k)) with
  | none => exact ⟨first,m,hl⟩
  | some p =>
    have hm := List.mem_of_find?_eq_some hf
    have hfo := find?_some hf
    have hk : p.key = k := of_decide_eq_true hfo
    have hp := Executor.runOnce_probe hok.1 hm hk
    cases m with
    | zero =>
      refine ⟨w.executor.cycle,1,?_⟩
      dsimp only
      rw [hl,hp,turns,turns,Nat.zero_mul]
      rfl
    | succ m =>
      have hc : w.executor.cycle = first + (m + 1) * every := by
        have hn := (hok.2 (first + m * every,g.probe (first + m * every))
          (by rw [hl]; rfl)).mp ⟨p,hm,hk⟩
        rw [hn,Nat.add_mul,Nat.one_mul,Nat.add_assoc]
      refine ⟨first,m + 2,?_⟩
      dsimp only
      rw [hl,hp,hc]
      rfl

theorem rotation_reaches_everyone (hcoprime : Nat.Coprime every g.endpoints.length) {e : Executor}
    (h : Run.Reaches (step k) (Steady k g every) (start e) w)
    (hlong : g.endpoints.length ≤ w.log.length) :
    ∀ ep ∈ g.endpoints, ∃ c, (c,ep) ∈ w.log.take g.endpoints.length := by
  intro ep hep
  have ht : ∃ first m, w.log = turns g first every m :=
    h.invariant (fun w => ∃ first m, w.log = turns g first every m) ⟨0,0,rfl⟩
      fun _ _ _ hs hok hst => by
        obtain ⟨first,m,hl⟩ := hs
        exact hok.step hl hst
  obtain ⟨first,m,hl⟩ := ht
  rw [hl,turns_length] at hlong
  obtain ⟨rest,rfl⟩ := Nat.exists_eq_add_of_le hlong
  obtain ⟨r,hr,rfl⟩ := mem_iff_getElem.mp hep
  obtain ⟨i,hi,hm⟩ := Stride.visits hcoprime (first + rest * every) hr
  refine ⟨first + rest * every + i * every,?_⟩
  rw [hl,take_turns]
  refine mem_turns.mpr ⟨i,hi,rfl,?_⟩
  unfold BackendGroup.probe
  simp [hm]

section Regular

variable {tick : Int}

-- A cycle each tick, with one check whose interval is a whole number of ticks.
def regular (k : ProbeKey) (g : BackendGroup) (every : Nat) (tick : Int) (i : Nat) : Cycle :=
  ⟨tick,i * tick,[⟨k.service,0,g,[⟨k.check,every * tick,false⟩]⟩]⟩

structure At (k : ProbeKey) (g : BackendGroup) (every : Nat) (tick : Int) (m j : Nat)
    (w : Rotation) : Prop where
  cycle : w.executor.cycle = m * every + j
  last : w.executor.lastRun.get k = some ((m * every : Nat) * tick)
  log : w.log = turns g 0 every (m + 1)

theorem runOnce_regular (hg : g.key = k.backend) (htick : 0 < tick) (e : Executor) (i : Nat) :
    e.runOnce (regular k g every tick i) =
      (⟨e.cycle + 1,(e.due k (every * tick) tick (i * tick) ∅).2⟩,
        if (e.due k (every * tick) tick (i * tick) ∅).1 then [⟨k,g.probe e.cycle⟩] else []) := by
  have hm : max ((every : Int) * tick) 0 = every * tick :=
    max_eq_left (Int.mul_nonneg (Int.natCast_nonneg every) htick.le)
  have hk : (⟨k.service,g.key,k.check⟩ : ProbeKey) = k := by rw [hg]
  show (Executor.mk (e.cycle + 1) (e.consider tick (i * tick) ⟨∅,[]⟩ (_,_)).next,
    (e.consider tick (i * tick) ⟨∅,[]⟩ (_,_)).probes) = _
  unfold Executor.consider
  dsimp only
  rw [hm,hk]
  cases (e.due k (every * tick) tick (i * tick) ∅).1 with
  | true | false => rfl

theorem steady_jobs (i : Nat) :
    ∀ j ∈ (regular k g every tick i).jobs, j.service = k.service → j.group.key = k.backend →
      j.group = g := by
  intro j hj _ _
  cases mem_singleton.mp hj
  rfl

section

variable (hg : g.key = k.backend) (htick : 0 < tick)

include hg htick

-- Between two turns the check is not due: half a tick of tolerance is less than a tick.
theorem At.idle {m j : Nat} (h : At k g every tick m j w) (hj : j < every) :
    Steady k g every w (regular k g every tick (m * every + j)) ∧
      ∃ w', w.step k (regular k g every tick (m * every + j)) = some w' ∧
        At k g every tick m (j + 1) w' := by
  have hn : GoTime.sub ((m * every + j : Nat) * tick) ((m * every : Nat) * tick) <
      every * tick - tick / 2 := by
    have hdi : ((m * every + j : Nat) : Int) * tick - (m * every : Nat) * tick = j * tick := by
      push_cast
      ring
    have hle : ((m * every : Nat) : Int) * tick ≤ (m * every + j : Nat) * tick :=
      Int.mul_le_mul_of_nonneg_right (by omega) htick.le
    have hsu := GoTime.sub_le_diff hle
    have hs : ((j : Int) + 1) * tick ≤ every * tick :=
      Int.mul_le_mul_of_nonneg_right (by omega) htick.le
    rw [Int.add_mul] at hs
    omega
  have hr : w.executor.runOnce (regular k g every tick (m * every + j)) =
      (⟨w.executor.cycle + 1,GoMap.put ∅ k ((m * every : Nat) * tick)⟩,[]) := by
    have hd : w.executor.due k (every * tick) tick ((m * every + j : Nat) * tick) ∅ =
        (false,GoMap.put ∅ k ((m * every : Nat) * tick)) := by
      unfold Executor.due
      rw [h.last]
      exact if_pos hn
    rw [runOnce_regular hg htick,hd]
    rfl
  refine ⟨⟨steady_jobs _,?_⟩,⟨⟨_,_⟩,rfl,?_⟩⟩
  · intro last hl
    rw [h.log] at hl
    cases hl
    rw [hr,h.cycle]
    refine ⟨fun hp => ?_,fun heq => ?_⟩
    · obtain ⟨p,hp,-⟩ := hp
      cases hp
    · omega
  · refine ⟨?_,?_,?_⟩
    · rw [hr,h.cycle,Nat.add_assoc]
    · rw [hr]
      exact GoMap.get_put_self ..
    · rw [hr]
      exact h.log

theorem step_due {i : Nat} (hd : (w.executor.due k (every * tick) tick (i * tick) ∅).1 = true) :
    w.executor.runOnce (regular k g every tick i) =
      (⟨w.executor.cycle + 1,GoMap.put ∅ k (i * tick)⟩,[⟨k,g.probe w.executor.cycle⟩]) := by
  rw [runOnce_regular hg htick,hd]
  unfold Executor.due at hd ⊢
  split at hd
  · split at hd
    · cases hd
    · next hn => rw [if_neg hn]; rfl
  · rfl

theorem At.due
    (hm : every * tick ≤ GoTime.maxDuration) {m : Nat} (h : At k g every tick m every w) :
    Steady k g every w (regular k g every tick ((m + 1) * every)) ∧
      ∃ w', w.step k (regular k g every tick ((m + 1) * every)) = some w' ∧
        At k g every tick (m + 1) 1 w' := by
  have hc : w.executor.cycle = (m + 1) * every := by
    rw [h.cycle,Nat.add_mul,Nat.one_mul]
  have hdu : (w.executor.due k (every * tick) tick (((m + 1) * every : Nat) * tick) ∅).1 =
      true := by
    have hd : (((m + 1) * every : Nat) : Int) * tick - (m * every : Nat) * tick =
        every * tick := by
      push_cast
      ring
    have hle : ((m * every : Nat) : Int) * tick ≤ ((m + 1) * every : Nat) * tick := by
      have hn := Int.mul_nonneg (Int.natCast_nonneg every) htick.le
      omega
    have hs := GoTime.sub_eq_diff hle (by rw [hd]; exact hm)
    unfold Executor.due
    rw [h.last]
    dsimp only
    rw [if_neg (by omega)]
  have hr := step_due hg htick hdu
  refine ⟨⟨steady_jobs _,?_⟩,⟨⟨_,_⟩,rfl,?_⟩⟩
  · intro last hl
    rw [h.log] at hl
    cases hl
    rw [hr,h.cycle]
    refine ⟨fun _ => ?_,fun _ => ⟨_,mem_singleton_self _,rfl⟩⟩
    rw [Nat.zero_add]
  · refine ⟨?_,?_,?_⟩
    · rw [hr,hc]
    · rw [hr]
      exact GoMap.get_put_self ..
    · rw [hr,hc,h.log]
      simp [turns]

end

variable (every) in
theorem first_turn (hg : g.key = k.backend) (htick : 0 < tick) :
    Steady k g every (start ⟨0,∅⟩) (regular k g every tick 0) ∧
      ∃ w', (start ⟨0,∅⟩).step k (regular k g every tick 0) = some w' ∧
        At k g every tick 0 1 w' := by
  have hr : (start ⟨0,∅⟩).executor.runOnce (regular k g every tick 0) = _ :=
    step_due hg htick rfl
  refine ⟨⟨steady_jobs _,fun last hl => by cases hl⟩,⟨⟨_,_⟩,rfl,?_⟩⟩
  refine ⟨?_,?_,?_⟩
  · rw [Nat.zero_mul]
    rfl
  · rw [hr,Nat.zero_mul]
    exact GoMap.get_put_self ..
  · rw [hr]
    simp [turns,start]

variable (every tick) in
theorem regular_turns (hg : g.key = k.backend) (htick : 0 < tick) (he : 0 < every)
    (hm : every * tick ≤ GoTime.maxDuration) (m : Nat) :
    ∃ w, Run.Reaches (step k) (Steady k g every) (start ⟨0,∅⟩) w ∧
      w.log = turns g 0 every (m + 1) := by
  have hw : ∀ {m : Nat} {w : Rotation},
      Run.Reaches (step k) (Steady k g every) (start ⟨0,∅⟩) w → At k g every tick m 1 w →
      ∀ j, j < every → ∃ w, Run.Reaches (step k) (Steady k g every) (start ⟨0,∅⟩) w ∧
        At k g every tick m (j + 1) w := by
    intro m w hr hat j hj
    induction j with
    | zero => exact ⟨w,hr,hat⟩
    | succ j ih =>
      obtain ⟨v,hv,hva⟩ := ih (Nat.lt_of_succ_lt hj)
      obtain ⟨hok,v',hs,ha'⟩ := hva.idle hg htick hj
      exact ⟨v',hv.next hok hs,ha'⟩
  have ht : ∃ w, Run.Reaches (step k) (Steady k g every) (start ⟨0,∅⟩) w ∧
      At k g every tick m 1 w := by
    induction m with
    | zero =>
      obtain ⟨hok,w,hs,hat⟩ := first_turn every hg htick
      exact ⟨w,Run.Reaches.start.next hok hs,hat⟩
    | succ m ih =>
      obtain ⟨w,hr,hat⟩ := ih
      obtain ⟨v,hv,hva⟩ := hw hr hat (every - 1) (Nat.sub_lt he Nat.one_pos)
      rw [Nat.sub_add_cancel he] at hva
      obtain ⟨hok,v',hs,ha'⟩ := hva.due hg htick hm
      exact ⟨v',hv.next hok hs,ha'⟩
  obtain ⟨w,hr,hat⟩ := ht
  exact ⟨w,hr,hat.log⟩

end Regular

def chainCheck : ProbeKey :=
  ⟨"eth".toList,"https://rpc.alpha.net".toList,"chain_id".toList⟩

def sharedBackend (suppliers : List String) (h : suppliers ≠ []) : BackendGroup where
  key := "https://rpc.alpha.net".toList
  endpoints := suppliers.map fun s => (s ++ "-https://rpc.alpha.net").toList
  nonempty := by simpa using h

def twoSuppliers : BackendGroup := sharedBackend ["pokt1a","pokt1b"] (by simp)

theorem even_cycles_miss_second_supplier :
    ¬ ∃ m, ∀ w, Run.Reaches (step chainCheck) (Steady chainCheck twoSuppliers 2) (start ⟨0,∅⟩) w →
      m ≤ w.log.length → ∀ ep ∈ twoSuppliers.endpoints, ∃ c, (c,ep) ∈ w.log := by
  rintro ⟨m,ha⟩
  obtain ⟨w,hr,hl⟩ := regular_turns (k := chainCheck) (g := twoSuppliers) 2 GoTime.minute rfl
    (by decide) (by decide) (by decide) m
  have hlo : m ≤ w.log.length := by
    rw [hl,turns_length]
    exact Nat.le_succ m
  obtain ⟨c,hc⟩ := ha w hr hlo "pokt1b-https://rpc.alpha.net".toList (by decide)
  rw [hl] at hc
  obtain ⟨i,-,-,hep⟩ := mem_turns.mp hc
  have he : twoSuppliers.probe (0 + i * 2) = "pokt1a-https://rpc.alpha.net".toList := by
    unfold BackendGroup.probe
    have hm : (0 + i * 2) % twoSuppliers.endpoints.length = 0 := by
      show (0 + i * 2) % 2 = 0
      omega
    simp only [hm]
    rfl
  rw [he] at hep
  exact absurd hep (by decide)

def threeSuppliers : BackendGroup := sharedBackend ["pokt1a","pokt1b","pokt1c"] (by simp)

theorem three_suppliers_all_probed :
    ∃ w, Run.Reaches (step chainCheck) (Steady chainCheck threeSuppliers 2) (start ⟨0,∅⟩) w ∧
      w.log.length = 3 ∧ ∀ ep ∈ threeSuppliers.endpoints, ∃ c, (c,ep) ∈ w.log.take 3 := by
  obtain ⟨w,hr,hlo⟩ := regular_turns (k := chainCheck) (g := threeSuppliers) 2 GoTime.minute
    rfl (by decide) (by decide) (by decide) 2
  have hl : w.log.length = 3 := by rw [hlo,turns_length]
  exact ⟨w,hr,hl,rotation_reaches_everyone (by decide) hr hl.ge⟩

end Rotation

end SageGateway.Healthcheck
