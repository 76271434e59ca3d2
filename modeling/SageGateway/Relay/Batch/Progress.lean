import SageGateway.Relay.Batch.Slots

namespace SageGateway

open Option

open Json

-- The steps of a batch's own goroutines, a started sub-relay's return among them.
def BatchAct.own : BatchAct → Bool
  | .endParent _ | .propagate => false
  | _ => true

namespace Batch

def Returned (b : Batch) : Prop := ∃ r, b.collector = .returned r

section Enabled

variable {b : Batch} {requestID : Bytes → Bytes}

theorem Slotted.cap_pos (h : b.Slotted) {st : Stage} {c : Slots} (hc : b.slots st = some c) :
    0 < c.cap := by
  have hca := h.caps st
  rw [hc] at hca
  obtain ⟨c₀,hc₀,hcp⟩ := map_eq_some_iff.mp hca.symm
  rw [← hcp]
  cases st with
  | window =>
    obtain ⟨⟨-,hp,hw⟩,heq⟩ := ite_none_right_eq_some.mp hc₀
    cases heq
    dsimp only
    omega
  | ceiling =>
    obtain ⟨⟨hp,-⟩,heq⟩ := ite_none_right_eq_some.mp hc₀
    cases heq
    dsimp only
    omega
  | budget => cases hc₀

theorem moveSlot_enabled {st : Stage} {op : Slots → Option Slots} {m : Channel → Move Token}
    (hch : (b.channel st).isSome = true)
    (hop : ∀ c, b.slots st = some c → (op c).isSome = true) :
    (b.moveSlot st op m).isSome = true := by
  obtain ⟨ch,hch⟩ := isSome_iff_exists.mp hch
  unfold moveSlot
  rw [hch,bind_some]
  cases hc : b.slots st with
  | none => rfl
  | some c =>
    rw [isSome_map]
    exact hop c hc

theorem Slotted.giveSlot_enabled (h : b.Slotted) {st : Stage} {i : Nat} (hi : i < b.n)
    (hh : b.holds st i = true) : (b.giveSlot i st).isSome = true := by
  unfold giveSlot
  split
  · next hch =>
    refine moveSlot_enabled hch fun c hc => ?_
    have hl := (h.counts st c hc).len
    have hp : 0 < c.len := by
      by_contra hze
      have hz : Slots.held b.n (b.holds st) = 0 := by omega
      cases (Slots.held_eq_zero.mp hz i hi).symm.trans hh
    rw [Slots.give,if_pos hp]
    rfl
  · rfl

theorem Slotted.takeSlot_enabled (h : b.Slotted) {st : Stage} {i : Nat}
    (hch : (b.channel st).isSome = true) (hf : ∀ j < b.n, b.holds st j = false) :
    (b.takeSlot i st).isSome = true := by
  refine moveSlot_enabled hch fun c hc => ?_
  have hz : c.len = 0 := (h.counts st c hc).len.trans (Slots.held_eq_zero.mpr hf)
  have hr : c.len < c.cap := by
    rw [hz]
    exact h.cap_pos hc
  rw [Slots.take,if_pos hr]
  rfl

variable (requestID) in
def Free (b : Batch) : Prop :=
  ∃ a, BatchAct.own a = true ∧ (b.step requestID a).isSome = true ∧ b.budgetUse a = .none

theorem payload_of_lt {i : Nat} (hi : i < b.n) : ∃ p, b.request.payloads[i]? = some p :=
  ⟨_,List.getElem?_eq_getElem hi⟩

section

variable (ho : b.Ordered) (h : b.Slotted)

include ho h

theorem free_item {j : Nat} (hid : (b.items j).phase ≠ .idle)
    (ht : (b.items j).phase ≠ .told) :
    b.Free requestID ∨ (b.items j).phase = .answered := by
  have hj := ho.lt_n hid
  cases hph : (b.items j).phase with
  | idle => exact absurd hph hid
  | told => exact absurd hph ht
  | answered => exact .inr rfl
  | running =>
    obtain ⟨p,hp⟩ := payload_of_lt hj
    refine .inl ⟨.reply j ⟨⟨none,[],none,none⟩,false⟩,rfl,?_,rfl⟩
    rw [step,reply,if_pos hph,settle,hp]
    rfl
  | gaveBudget =>
    have hh : b.holds .ceiling j = true := by
      unfold holds BatchItem.holds
      rw [hph]
      exact Bool.or_true _
    refine .inl ⟨.giveCeiling j,rfl,?_,rfl⟩
    rw [step,giveCeiling,if_pos hph,isSome_map]
    exact h.giveSlot_enabled hj hh
  | gaveCeiling =>
    refine .inl ⟨.tell j,rfl,?_,rfl⟩
    rw [step,tell,if_pos hph]
    rfl

-- With nothing running the window and the ceiling are empty: every item started so far is told,
-- and the collector has passed them all.
theorem free_wait (hc : b.collector = .receiving)
    (hr : b.ready = []) (hq : ∀ j, (b.items j).phase = .idle ∨ (b.items j).phase = .told)
    {i : Nat} {st : Stage} (hd : b.dispatcher = .waiting i st) :
    b.Free requestID ∨ b.dispatcher = .waiting i .budget := by
  have hn : b.dispatcher.next b.n = i := by
    rw [hd]
    rfl
  have hdo : ∀ j, (b.items j).phase ≠ .idle → b.done j = true := by
    intro j hj
    rcases (ho.told j).mp ((hq j).resolve_left hj) with hdo | hm
    · exact hdo
    · rw [hr] at hm
      cases hm
  have hcu : i ≤ b.nextOut := by
    by_contra hlt
    have hb : b.nextOut < b.n := (Nat.not_le.mp hlt).trans_le (hn ▸ ho.bound)
    have hbe := ho.begun b.nextOut (by omega)
    have hs := ho.stalled (by rw [hc]; trivial) hb
    cases (hdo _ hbe).symm.trans hs
  have hf : st ≠ .budget → ∀ j < b.n, b.holds st j = false := by
    intro hne j _
    unfold holds
    rw [hd]
    cases st with
    | window =>
      simp only [Dispatcher.holds,Nat.lt_irrefl,decide_false,Bool.and_false,Bool.false_or]
      refine Bool.and_eq_false_iff.mpr ?_
      by_cases hji : j < i
      · exact .inr (decide_eq_false (by omega))
      · left
        rw [ho.idle j (by omega)]
        rfl
    | ceiling =>
      simp only [Dispatcher.holds,Nat.lt_irrefl,decide_false,Bool.and_false,Bool.false_or,
        BatchItem.holds]
      rcases hq j with hid | ht
      · rw [hid]
        rfl
      · rw [ht]
        rfl
    | budget => exact absurd rfl hne
  by_cases hst : st = .budget
  · rw [hst] at hd
    exact .inr hd
  · refine .inl ⟨.take,rfl,?_,?_⟩
    · rw [step,take,hd]
      rw [isSome_map]
      exact h.takeSlot_enabled (h.waits i st hd) (hf hst)
    · unfold budgetUse
      rw [hd]
      cases st with
      | window | ceiling => rfl
      | budget => exact absurd rfl hst

theorem free_dispatch (hc : b.collector = .receiving) (hr : b.ready = []) (hlt : b.received < b.n)
    (hq : ∀ j, (b.items j).phase = .idle ∨ (b.items j).phase = .told) :
    b.Free requestID ∨ ∃ i, b.dispatcher = .waiting i .budget := by
  cases hd : b.dispatcher with
  | acquiring i st =>
    refine .inl ⟨.check,rfl,?_,rfl⟩
    rw [step,check,hd]
    dsimp only
    split
    · rfl
    · split <;> rfl
  | waiting i st =>
    rw [← hd]
    exact (free_wait ho h hc hr hq hd).imp_right fun hb => ⟨i,hb⟩
  | launching i =>
    refine .inl ⟨.launch,rfl,?_,rfl⟩
    rw [step,launch,hd]
    rfl
  | undoing i st =>
    have hi : i < b.n := by
      have := ho.below (by rw [hd]; rfl)
      rwa [hd] at this
    have hh : b.holds st i = true := by
      unfold holds
      rw [hd]
      simp [Dispatcher.holds]
    have hg := h.giveSlot_enabled hi hh
    cases st with
    | window | ceiling =>
      refine .inl ⟨.undo,rfl,?_,rfl⟩
      rw [step,undo,hd]
      exact isSome_map.trans hg
    | budget => exact absurd hd (ho.undone i)
  | failing j =>
    by_cases hj : j < b.n
    · obtain ⟨e,he⟩ := isSome_iff_exists.mp (ho.ended (by rw [hd]; rfl))
      obtain ⟨p,hp⟩ := payload_of_lt hj
      refine .inl ⟨.fail,rfl,?_,rfl⟩
      rw [step,fail,hd]
      simp only [if_pos hj,he,bind_some,settle,hp,map_some]
      rfl
    · refine .inl ⟨.fail,rfl,?_,rfl⟩
      rw [step,fail,hd]
      simp only [if_neg hj]
      rfl
  | stopped =>
    have ha : ∀ j < b.n, b.done j = true := by
      intro j hj
      have hbe := ho.begun j (by rw [hd]; exact hj)
      rcases (ho.told j).mp ((hq j).resolve_left hbe) with hdo | hm
      · exact hdo
      · rw [hr] at hm
        cases hm
    have hf := Slots.held_eq_all.mpr ha
    have := ho.received
    omega

theorem free_or_budget (hn : ¬ b.Returned) :
    b.Free requestID ∨ (∃ i, (b.items i).phase = .answered) ∨
      ∃ i, b.dispatcher = .waiting i .budget := by
  cases hc : b.collector with
  | returned r => exact absurd ⟨r,hc⟩ hn
  | opening =>
    refine .inl ⟨.openBody true,rfl,?_,rfl⟩
    rw [step,openBody,hc]
    dsimp only
    split <;> rfl
  | flushing =>
    refine .inl ⟨.flush true,rfl,?_,rfl⟩
    rw [step,flush,hc]
    dsimp only
    split
    · next hd =>
      split
      · obtain ⟨p,hp⟩ := payload_of_lt hd.1
        rw [writeItem,hp]
        split <;> rfl
      · rfl
    · rfl
  | releasing =>
    obtain ⟨hlt,hd,-⟩ := ho.writing hc
    refine .inl ⟨.release,rfl,?_,rfl⟩
    rw [step,release,hc]
    rw [isSome_map]
    split
    · next hst =>
      refine h.giveSlot_enabled hlt ?_
      unfold holds BatchItem.holds
      rw [hst,decide_eq_true (Nat.le_refl _)]
      exact Bool.or_true _
    · rfl
  | receiving =>
    by_cases hlt : b.received < b.n
    · cases hr : b.ready with
      | cons i rest =>
        refine .inl ⟨.receive,rfl,?_,rfl⟩
        rw [step,receive,hc,hr]
        dsimp only
        rw [if_pos hlt]
        rfl
      | nil =>
        by_cases hq : ∀ j, (b.items j).phase = .idle ∨ (b.items j).phase = .told
        · exact (free_dispatch ho h hc hr hlt hq).imp_right .inr
        · obtain ⟨j,hj⟩ := not_forall.mp hq
          obtain ⟨hid,ht⟩ := not_or.mp hj
          exact (free_item ho h hid ht).imp_right fun ha => .inl ⟨j,ha⟩
    · refine .inl ⟨.finish true,rfl,?_,rfl⟩
      rw [step,finish,hc]
      dsimp only
      rw [if_neg hlt]
      split <;> rfl

end

end Enabled

end Batch

def Dispatcher.work (n : Nat) : Dispatcher → Nat
  | .acquiring i st => 10 * (n - i) + (7 - 2 * st.rank)
  | .waiting i st => 10 * (n - i) + (6 - 2 * st.rank)
  | .launching i => 10 * (n - i) + 1
  | .undoing i st => (n - i) + 2 + st.rank
  | .failing j => (n - j) + 1
  | .stopped => 0

def Phase.work : Phase → Nat
  | .idle => 5
  | .running => 4
  | .answered => 3
  | .gaveBudget => 2
  | .gaveCeiling => 1
  | .told => 0

def Collector.work : Collector → Nat
  | .opening => 2
  | .receiving => 1
  | .flushing => 2
  | .releasing => 1
  | .returned _ => 0

def pendingEnd (e : Option ContextEnd) : Nat := if e.isSome then 0 else 1

theorem pendingEnd_le {e e' : Option ContextEnd} (h : e.isSome = true → e'.isSome = true) :
    pendingEnd e' ≤ pendingEnd e := by
  unfold pendingEnd
  by_cases he : e.isSome = true
  · rw [if_pos he,if_pos (h he)]
  · split <;> omega

theorem Dispatcher.work_acquired (n i : Nat) (st : Stage) :
    (acquired i st).work n < (waiting i st).work n := by
  cases st <;> simp [acquired,work,Stage.rank]

theorem Dispatcher.work_refused {n i : Nat} (hi : i < n) (st : Stage) :
    (refused i st).work n < (waiting i st).work n := by
  cases st <;> simp [refused,work,Stage.rank] <;> omega

theorem Dispatcher.work_waiting (n i : Nat) (st : Stage) :
    (waiting i st).work n < (acquiring i st).work n := by
  cases st <;> simp [work,Stage.rank]

theorem Dispatcher.work_following (n i : Nat) :
    (following n i).work n < (launching i).work n := by
  unfold following
  split
  · simp [work,Stage.rank]
    omega
  · simp [work]

namespace Batch

def itemsWork (items : Nat → BatchItem) (n : Nat) : Nat :=
  ((List.range n).map fun j => (items j).phase.work).sum

def work (b : Batch) : Nat :=
  pendingEnd b.parentErr + pendingEnd b.ctxErr + b.dispatcher.work b.n + itemsWork b.items b.n +
    3 * (b.n - b.received) + 2 * (b.n - b.nextOut) + b.collector.work

section Work

variable {b b' : Batch} {requestID : Bytes → Bytes}

variable {x : BatchItem} {d : Dispatcher} {i : Nat}

theorem itemsWork_update (items : Nat → BatchItem) {n : Nat} (hi : i < n) (x : BatchItem) :
    itemsWork (Function.update items i x) n + (items i).phase.work =
      itemsWork items n + x.phase.work :=
  Slots.sum_range_update (fun x : BatchItem => x.phase.work) items hi x

theorem Ordered.at_lt (ho : b.Ordered) (hd : b.dispatcher = d)
    (hl : d.live = true) : d.next b.n < b.n := by
  subst hd
  exact ho.below hl

theorem work_dispatch (w c : Option Slots) (l : List (Move Token))
    (hlt : d.work b.n < b.dispatcher.work b.n) :
    work { b with window := w, ceiling := c, log := l, dispatcher := d } < b.work := by
  show pendingEnd b.parentErr + pendingEnd b.ctxErr + d.work b.n + itemsWork b.items b.n +
    3 * (b.n - b.received) + 2 * (b.n - b.nextOut) + b.collector.work < b.work
  unfold work
  omega

theorem work_item (ho : b.Ordered) (w c : Option Slots) (l : List (Move Token)) (r : List Nat)
    (g : Bool) {p p' : Phase} (hold : (b.items i).phase = p)
    (hn : x.phase = p') (hid : p ≠ .idle) (hlt : p'.work < p.work) :
    work { b with window := w, ceiling := c, log := l, ready := r, degraded := g,
                  items := Function.update b.items i x } < b.work := by
  have hs := itemsWork_update b.items (ho.lt_n (hold ▸ hid)) x
  rw [hold,hn] at hs
  show pendingEnd b.parentErr + pendingEnd b.ctxErr + b.dispatcher.work b.n +
    itemsWork (Function.update b.items i x) b.n + 3 * (b.n - b.received) +
    2 * (b.n - b.nextOut) + b.collector.work < b.work
  unfold work
  omega

theorem work_leave (ho : b.Ordered) {r : List Nat}
    (hi : i < b.n) (hat : b.dispatcher.next b.n = i) (hx : x.phase.work ≤ 4)
    (hd : d.work b.n < b.dispatcher.work b.n) :
    work { b with items := Function.update b.items i x, ready := r, dispatcher := d } < b.work := by
  have hid : b.items i = .initial := ho.idle i (Nat.le_of_eq hat)
  have hs := itemsWork_update b.items hi x
  have hf : (b.items i).phase.work = 5 := by
    rw [hid]
    rfl
  show pendingEnd b.parentErr + pendingEnd b.ctxErr + d.work b.n +
    itemsWork (Function.update b.items i x) b.n + 3 * (b.n - b.received) +
    2 * (b.n - b.nextOut) + b.collector.work < b.work
  unfold work
  omega

theorem work_ends {e e' : Option ContextEnd}
    (hlt : pendingEnd e + pendingEnd e' < pendingEnd b.parentErr + pendingEnd b.ctxErr) :
    work { b with parentErr := e, ctxErr := e' } < b.work := by
  show pendingEnd e + pendingEnd e' + b.dispatcher.work b.n + itemsWork b.items b.n +
    3 * (b.n - b.received) + 2 * (b.n - b.nextOut) + b.collector.work < b.work
  unfold work
  omega

theorem work_receive {i : Nat} {rest : List Nat}
    (hlt : b.received < b.n) :
    work { b with done := Function.update b.done i true, received := b.received + 1,
                  ready := rest, collector := .flushing } < b.work := by
  show pendingEnd b.parentErr + pendingEnd b.ctxErr + b.dispatcher.work b.n +
    itemsWork b.items b.n + 3 * (b.n - (b.received + 1)) + 2 * (b.n - b.nextOut) + 2 < b.work
  unfold work
  omega

theorem work_write {e : Option ContextEnd} {a : Bool} {w : Bytes} {c : Bool} {x : Collector}
    (he : b.ctxErr.isSome = true → e.isSome = true) (hlt : x.work < b.collector.work) :
    work { b with ctxErr := e, abandoned := a, wire := w, cut := c, collector := x } < b.work := by
  have hen := pendingEnd_le he
  show pendingEnd b.parentErr + pendingEnd e + b.dispatcher.work b.n + itemsWork b.items b.n +
    3 * (b.n - b.received) + 2 * (b.n - b.nextOut) + x.work < b.work
  unfold work
  omega

theorem work_pass {y : Collector} (w c : Option Slots) (l : List (Move Token))
    (hlt : b.nextOut < b.n) (hx : x.phase = (b.items b.nextOut).phase)
    (hy : y.work ≤ b.collector.work + 1) :
    work { b with window := w, ceiling := c, log := l,
                  items := Function.update b.items b.nextOut x,
                  nextOut := b.nextOut + 1, collector := y } < b.work := by
  have hs := itemsWork_update b.items hlt x
  rw [hx] at hs
  show pendingEnd b.parentErr + pendingEnd b.ctxErr + b.dispatcher.work b.n +
    itemsWork (Function.update b.items b.nextOut x) b.n + 3 * (b.n - b.received) +
    2 * (b.n - (b.nextOut + 1)) + y.work < b.work
  unfold work
  omega

theorem work_step {a : BatchAct} (ho : b.Ordered) (hst : b.step requestID a = some b') :
    b'.work < b.work := by
  cases step_acts hst with
  | endParent ended hno =>
    refine work_ends ?_
    rw [hno]
    exact Nat.add_lt_add_right Nat.zero_lt_one _
  | propagate ended hno =>
    refine work_ends ?_
    rw [hno]
    exact Nat.add_lt_add_left Nat.zero_lt_one _
  | acquire i st hd hno =>
    refine work_dispatch _ _ _ ?_
    rw [hd]
    exact (Dispatcher.work_acquired b.n i st).trans (Dispatcher.work_waiting b.n i st)
  | refuse i st hd hen =>
    refine work_dispatch _ _ _ ?_
    rw [hd]
    exact (Dispatcher.work_refused (ho.at_lt hd rfl) st).trans
      (Dispatcher.work_waiting b.n i st)
  | wait i st hd hch =>
    refine work_dispatch _ _ _ ?_
    rw [hd]
    exact Dispatcher.work_waiting b.n i st
  | take i st w c l hd ht =>
    refine work_dispatch w c l ?_
    rw [hd]
    exact Dispatcher.work_acquired b.n i st
  | giveUp i st hd hen =>
    refine work_dispatch _ _ _ ?_
    rw [hd]
    exact Dispatcher.work_refused (ho.at_lt hd rfl) st
  | launch i hd =>
    refine work_leave ho (ho.at_lt hd rfl) (by rw [hd]; rfl) (le_refl 4) ?_
    rw [hd]
    exact Dispatcher.work_following b.n i
  | undo i st d w c l hd hg hne =>
    refine work_dispatch w c l ?_
    rw [hd]
    rcases hne with ⟨rfl,rfl⟩ | ⟨rfl,rfl⟩
    · simp only [Dispatcher.work,Stage.rank]
      omega
    · simp only [Dispatcher.work,Stage.rank]
      omega
  | fail j ended p hd hj hp =>
    refine work_leave ho hj (by rw [hd]; rfl) (Nat.zero_le 4) ?_
    rw [hd]
    simp [Dispatcher.work]
    omega
  | stop j hd hj =>
    refine work_dispatch _ _ _ ?_
    rw [hd]
    exact Nat.succ_pos _
  | reply i s p hph hp =>
    exact work_item ho _ _ _ _ _ hph rfl Phase.noConfusion (Nat.lt_succ_self 3)
  | giveBudget i w c l hph hg =>
    exact work_item ho w c l _ _ hph rfl Phase.noConfusion (Nat.lt_succ_self 2)
  | giveCeiling i w c l hph hg =>
    exact work_item ho w c l _ _ hph rfl Phase.noConfusion (Nat.lt_succ_self 1)
  | tell i hph =>
    exact work_item ho _ _ _ _ _ hph rfl Phase.noConfusion (Nat.lt_succ_self 0)
  | openBody ok e a w c hc he | write ok e a w c hc _ _ _ _ he =>
    refine work_write he ?_
    rw [hc]
    exact Nat.lt_succ_self 1
  | receive i rest hc hr hlt => exact work_receive hlt
  | pass ok hc hlt hdo hs =>
    have hpa := work_pass b.window b.ceiling b.log (x := b.items b.nextOut)
      (y := b.collector) hlt rfl (Nat.le_succ _)
    rwa [Function.update_eq_self] at hpa
  | flushed ok hc hnt =>
    refine work_write (e := b.ctxErr) (a := b.abandoned) (w := b.wire) (c := b.cut) id ?_
    rw [hc]
    exact Nat.lt_succ_self 1
  | release w c l hc hf =>
    have hy : Collector.work .flushing ≤ b.collector.work + 1 := by
      rw [hc]
      exact le_refl 2
    exact work_pass (x := { b.items b.nextOut with result := none }) w c l (ho.writing hc).1 rfl hy
  | finish ok e w c r hc hn he =>
    refine work_write (a := b.abandoned) he ?_
    rw [hc]
    exact Nat.zero_lt_one

end Work

end Batch

end SageGateway
