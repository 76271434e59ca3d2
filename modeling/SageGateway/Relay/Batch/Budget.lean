import SageGateway.Relay.Batch.Progress

namespace SageGateway

open List Option

open Json

namespace Batch

def uses (id : Nat) (b : Batch) : Nat :=
  if b.sem = some id then Slots.held b.n (b.holds .budget) else 0

section Uses

variable {b b' : Batch} {requestID : Bytes → Bytes} {a : BatchAct}

def SlotEvent.use : SlotEvent → BudgetUse
  | .moved .budget _ true => .take
  | .moved .budget _ false => .give
  | _ => .none

theorem use_givenBack {st : Stage} (hst : st ≠ .budget) (i : Nat) :
    (b.givenBack st i).use = .none := by
  unfold givenBack
  split
  · cases st with
    | window | ceiling => rfl
    | budget => exact absurd rfl hst
  · rfl

theorem budgetUse_eq (hs : b.step requestID a = some b') :
    b.budgetUse a = (b.slotEvent a).use := by
  cases step_acts hs with
  | take i st w c l hd =>
    simp [budgetUse,slotEvent,hd]
    cases st <;> rfl
  | undo i st d w c l hd hg hn =>
    simp [budgetUse,slotEvent,hd]
    rcases hn with ⟨rfl,-⟩ | ⟨rfl,-⟩ <;> exact (use_givenBack Stage.noConfusion i).symm
  | giveBudget =>
    simp [budgetUse,slotEvent,givenBack,channel]
    split <;> rfl
  | giveCeiling i => exact (use_givenBack Stage.noConfusion i).symm
  | release =>
    simp [budgetUse,slotEvent]
    split
    · exact (use_givenBack Stage.noConfusion _).symm
    · rfl
  | _ => rfl

theorem uses_of_ne {id : Nat} (hs : b'.sem = b.sem) (hid : b.sem ≠ some id) :
    b'.uses id = b.uses id := by
  rw [uses,uses,if_neg hid,if_neg (hs ▸ hid)]

def Counted (before after : Nat) : BudgetUse → Prop
  | .none => after = before
  | .take => after = before + 1
  | .give => after + 1 = before

theorem uses_step {id : Nat} (ho : b.Ordered) (h : b.Slotted)
    (hs : b.step requestID a = some b') (hid : b.sem = some id) :
    Counted (b.uses id) (b'.uses id) (b.budgetUse a) := by
  obtain ⟨hr,hse⟩ := step_frame hs
  have hev := slot_step ho h.streaming hs
  have hn : b'.n = b.n := congrArg BatchRequest.n hr
  have hch : (b.channel .budget).isSome = true := by
    rw [channel,hid]
    rfl
  rw [budgetUse_eq hs,uses,uses,if_pos hid,if_pos (hse.trans hid),hn]
  cases hsl : b.slotEvent a with
  | quiet =>
    rw [hsl] at hev
    exact Slots.held_congr fun j _ => hev.holds .budget j hch
  | moved st i taken =>
    rw [hsl] at hev
    by_cases hst : st = .budget
    · subst hst
      have hu : Slots.held b.n (b'.holds .budget) =
          Slots.held b.n (Function.update (b.holds .budget) i taken) := by
        refine Slots.held_congr fun j _ => ?_
        rw [hev.holds .budget j hch]
        by_cases hji : j = i
        · rw [if_pos ⟨rfl,hji⟩,hji,Function.update_self]
        · rw [if_neg fun hc => hji hc.2,Function.update_of_ne hji]
      rw [hu]
      cases taken with
      | true => exact Slots.held_insert hev.bound hev.before
      | false => exact Slots.held_remove hev.bound hev.before
    · have hsa : Slots.held b.n (b'.holds .budget) = Slots.held b.n (b.holds .budget) := by
        refine Slots.held_congr fun j _ => ?_
        rw [hev.holds .budget j hch,if_neg fun hc => hst hc.1.symm]
      cases st with
      | window | ceiling => exact hsa
      | budget => exact absurd rfl hst

theorem uses_start (q : BatchRequest) (sem : Option Nat) (id : Nat) :
    (start q sem).uses id = 0 := by
  unfold uses
  split
  · refine Slots.held_eq_zero.mpr fun j _ => ?_
    simp [Batch.holds,start,Dispatcher.holds,BatchItem.holds,BatchItem.initial,Stage.rank,
      Phase.holds]
  · rfl

end Uses

def running (b : Batch) : Nat := Slots.held b.n fun i => decide ((b.items i).phase = .running)

def unwritten (b : Batch) : Nat :=
  Slots.held b.n fun i => (b.items i).started && decide (b.nextOut ≤ i)

section Bounds

variable {b : Batch}

section

variable (h : b.Returned) (ho : b.Ordered)

include h ho

theorem Returned.told {j : Nat} (hj : j < b.n) : b.done j = true ∧ (b.items j).phase = .told := by
  obtain ⟨r,hr⟩ := h
  have hd := Slots.held_eq_all.mp (ho.received.symm.trans (ho.returned r hr)) j hj
  exact ⟨hd,(ho.told j).mpr (.inl hd)⟩

theorem Returned.fates {j : Nat} (hj : j < b.n) : (b.items j).fate.isSome = true := by
  have ht := (h.told ho hj).2
  refine ho.settled j ?_ ?_
  · rw [ht]
    exact Phase.noConfusion
  · rw [ht]
    exact Phase.noConfusion

theorem Returned.nextOut : b.nextOut = b.n := by
  by_contra hne
  have hlt : b.nextOut < b.n := Nat.lt_of_le_of_ne ho.within hne
  have hd := (h.told ho hlt).1
  obtain ⟨r,hr⟩ := h
  rw [ho.stalled (by rw [hr]; trivial) hlt] at hd
  cases hd

theorem Returned.holds (st : Stage) (j : Nat) : b.holds st j = false := by
  refine Bool.or_eq_false_iff.mpr ⟨?_,?_⟩
  · by_contra hh
    rw [Bool.not_eq_false] at hh
    have hl : b.dispatcher.live = true := by
      cases hd : b.dispatcher with
      | failing k | stopped =>
        rw [hd] at hh
        cases hh
      | _ => rfl
    have hlt := ho.below hl
    have hid := ho.idle _ (le_refl _)
    have ht := (h.told ho hlt).2
    rw [hid] at ht
    cases ht
  · by_cases hj : j < b.n
    · have ht := (h.told ho hj).2
      cases st with
      | window =>
        have hp : ¬ b.nextOut ≤ j := by
          rw [h.nextOut ho]
          exact Nat.not_le.mpr hj
        rw [BatchItem.holds,decide_eq_false hp,Bool.and_false]
      | ceiling | budget =>
        rw [BatchItem.holds,ht]
        · rfl
        · exact Stage.noConfusion
    · rw [ho.idle j (Nat.le_trans ho.bound (Nat.not_lt.mp hj))]
      cases st <;> rfl

theorem Returned.balanced (hs : b.Slotted) (t : Token) :
    b.log.count (.gave t) = b.log.count (.took t) := by
  have hba := hs.tally.balance t
  have hou : b.out t = false := by
    unfold out
    rw [h.holds ho,Bool.and_false]
  rw [hou] at hba
  exact hba.symm

end

theorem Slotted.given_le (hs : b.Slotted) (t : Token) :
    b.log.count (.gave t) ≤ b.log.count (.took t) :=
  (Nat.le_add_right _ _).trans_eq (hs.tally.balance t).symm

theorem Slotted.held_le_cap (hs : b.Slotted) (st : Stage) {c : Slots}
    (hc : (start b.request b.sem).slots st = some c) : Slots.held b.n (b.holds st) ≤ c.cap := by
  have hca := hs.caps st
  rw [hc] at hca
  obtain ⟨c',hc',hcp⟩ := map_eq_some_iff.mp hca
  have hco := hs.counts st c' hc'
  rw [← hco.len,← hcp]
  exact hco.room

theorem Slotted.running_le (hs : b.Slotted) (hp : 0 < b.request.maxPerBatch) :
    (b.running : Int) ≤ b.request.maxPerBatch := by
  by_cases hn : b.request.maxPerBatch < b.n
  · have hle := hs.held_le_cap .ceiling (if_pos ⟨hp,hn⟩)
    have hr : b.running ≤ Slots.held b.n (b.holds .ceiling) := by
      refine Slots.held_mono fun j _ hj => ?_
      rw [Batch.holds,BatchItem.holds,of_decide_eq_true hj]
      · exact Bool.or_true _
      · exact Stage.noConfusion
    dsimp only at hle
    omega
  · have hle : b.running ≤ b.n := Slots.held_le b.n _
    omega

theorem Slotted.unwritten_le (hs : b.Slotted) (hst : b.request.streaming = true)
    (hp : 0 < b.request.maxPerBatch) (hw : 0 ≤ b.request.maxWindow) :
    (b.unwritten : Int) ≤ b.request.maxPerBatch + b.request.maxWindow := by
  have hle := hs.held_le_cap .window (if_pos ⟨hst,hp,hw⟩)
  have hun : b.unwritten ≤ Slots.held b.n (b.holds .window) := by
    refine Slots.held_mono fun j _ hj => ?_
    rw [Batch.holds,BatchItem.holds,hj]
    exact Bool.or_true _
  dsimp only at hle
  omega

end Bounds

end Batch

def BudgetUse.change : BudgetUse → Slots → Option Slots
  | .none => some
  | .take => Slots.take
  | .give => Slots.give

namespace Gateway

def inUse (g : Gateway) (id : Nat) : Nat := (g.batches.map (Batch.uses id)).sum

def work (g : Gateway) : Nat :=
  (g.pending.map fun q => (Batch.start q none).work + 1).sum + (g.batches.map Batch.work).sum

structure Sound (g : Gateway) : Prop where
  batches : ∀ b ∈ g.batches, b.Ordered ∧ b.Slotted
  sems : ∀ b ∈ g.batches, ∀ id, b.sem = some id → id < g.budgets.length
  current : ∀ id, g.current = some id → id < g.budgets.length
  budgets : ∀ id c, g.budgets[id]? = some c → 0 < c.cap ∧ c.len = g.inUse id ∧ c.len ≤ c.cap

theorem sound_start (qs : List BatchRequest) : (start qs).Sound where
  batches _ hb := by cases hb
  sems _ hb := by cases hb
  current _ h := by cases h
  budgets _ _ h := by cases h

section Enter

variable {g : Gateway}

theorem semFor_cases (g : Gateway) (limit : Int) (lost : Bool) :
    g.semFor limit lost = (none,g) ∨
    (∃ id, g.current = some id ∧ g.semFor limit lost = (some id,g)) ∨
      0 < limit ∧ g.semFor limit lost = (some g.budgets.length,

    { g with budgets := g.budgets ++ [⟨limit.toNat,0⟩], current := some g.budgets.length }) := by
  unfold semFor
  split
  · exact .inl rfl
  · next hp =>
    dsimp only
    split
    · next hcu =>
      cases hc : g.current with
      | none =>
        rw [hc] at hcu
        cases hcu
      | some id => exact .inr (.inl ⟨id,rfl,rfl⟩)
    · split
      · next hl =>
        obtain ⟨id,hid⟩ := isSome_iff_exists.mp (Bool.and_eq_true_iff.mp hl).2
        exact .inr (.inl ⟨id,hid,by rw [hid]⟩)
      · exact .inr (.inr ⟨Int.not_le.mp hp,rfl⟩)

theorem Sound.resized (h : g.Sound) {limit : Int} (hp : 0 < limit) :
    Sound
    { g with budgets := g.budgets ++ [⟨limit.toNat,0⟩], current := some g.budgets.length } := by
  have hl : (g.budgets ++ [(⟨limit.toNat,0⟩ : Slots)]).length = g.budgets.length + 1 := by
    rw [length_append,length_singleton]
  refine ⟨h.batches,?_,?_,?_⟩
  · intro b hb id hid
    exact Nat.lt_of_lt_of_eq (Nat.lt_succ_of_lt (h.sems b hb id hid)) hl.symm
  · rintro id ⟨⟩
    exact Nat.lt_of_lt_of_eq (Nat.lt_succ_self _) hl.symm
  · intro id c hc
    rcases Nat.lt_or_ge id g.budgets.length with hlt | hge
    · rw [List.getElem?_append_left hlt] at hc
      exact h.budgets id c hc
    · rw [List.getElem?_append_right hge] at hc
      have hid : id = g.budgets.length := by
        by_contra hne
        rw [List.getElem?_eq_none (by rw [length_singleton]; omega)] at hc
        cases hc
      rw [hid,Nat.sub_self] at hc
      cases hc
      have hz : g.inUse g.budgets.length = 0 := by
        by_contra hne
        obtain ⟨b,hb,hu⟩ := Slots.sum_pos_iff.mp (Nat.pos_of_ne_zero hne)
        unfold Batch.uses at hu
        split at hu
        · next hs => exact absurd (h.sems b hb _ hs) (Nat.lt_irrefl _)
        · exact absurd hu (Nat.lt_irrefl 0)
      refine ⟨?_,?_,Nat.zero_le _⟩
      · show 0 < limit.toNat
        omega
      · rw [hid]
        exact hz.symm

theorem Sound.semFor (h : g.Sound) (limit : Int) (lost : Bool) :
    (g.semFor limit lost).2.Sound ∧
      (∀ id, (g.semFor limit lost).1 = some id → id < (g.semFor limit lost).2.budgets.length) ∧
      (g.semFor limit lost).2.batches = g.batches ∧
      (g.semFor limit lost).2.pending = g.pending := by
  rcases semFor_cases g limit lost with heq | ⟨id,hid,heq⟩ | ⟨hp,heq⟩
  · rw [heq]
    exact ⟨h,(fun id hid => by cases hid),rfl,rfl⟩
  · rw [heq]
    refine ⟨h,?_,rfl,rfl⟩
    intro id' hi'
    cases hi'
    exact h.current id hid
  · rw [heq]
    refine ⟨h.resized hp,?_,rfl,rfl⟩
    rintro id ⟨⟩
    rw [length_append]
    exact Nat.lt_succ_self _

theorem Sound.joined (h : g.Sound) {q : BatchRequest} {sem : Option Nat} (hq : 0 < q.n)
    (hs : ∀ id, sem = some id → id < g.budgets.length) :
    Sound { g with batches := g.batches ++ [.start q sem] } := by
  refine ⟨?_,?_,h.current,?_⟩
  · intro b hb
    rcases mem_append.mp hb with hb | hb
    · exact h.batches b hb
    · rw [mem_singleton.mp hb]
      exact ⟨Batch.ordered_start q sem hq,Batch.slotted_start q sem⟩
  · intro b hb
    rcases mem_append.mp hb with hb | hb
    · exact h.sems b hb
    · rwa [mem_singleton.mp hb]
  · intro id c hc
    have hu : inUse { g with batches := g.batches ++ [.start q sem] } id = g.inUse id := by
      show ((g.batches ++ [Batch.start q sem]).map (Batch.uses id)).sum = _
      rw [map_append,sum_append,map_singleton,sum_singleton,
        Batch.uses_start,Nat.add_zero]
      rfl
    rw [hu]
    exact h.budgets id c hc

theorem enter_step {g' : Gateway} {lost : Bool} (h : g.Sound) (he : g.enter lost = some g') :
    g'.Sound ∧ g'.work < g.work := by
  unfold enter at he
  split at he
  · cases he
  · next q rest hp =>
    have hw : Sound { g with pending := rest } := { h with }
    obtain ⟨hs,hse,hba,hpe⟩ := hw.semFor q.maxConcurrentRelays lost
    have hwo : g.work = ((Batch.start q none).work + 1) +
        (rest.map fun q => (Batch.start q none).work + 1).sum + (g.batches.map Batch.work).sum := by
      unfold work
      rw [hp,map_cons,sum_cons]
    split at he
    · cases he
      refine ⟨hw,?_⟩
      show (rest.map fun q => (Batch.start q none).work + 1).sum + (g.batches.map Batch.work).sum <
        g.work
      omega
    · cases he
      refine ⟨hs,?_⟩
      unfold work at hwo ⊢
      rw [hba,hpe]
      dsimp only
      omega
    · next hen =>
      cases he
      have hq : 0 < q.n := by
        unfold BatchRequest.entry at hen
        split at hen
        · cases hen
        · omega
      refine ⟨hs.joined hq hse,?_⟩
      unfold work at hwo ⊢
      rw [hba,hpe,map_append,sum_append,map_singleton,sum_singleton]
      have hsa : (Batch.start q ({ g with pending := rest }.semFor q.maxConcurrentRelays
          lost).1).work = (Batch.start q none).work := rfl
      dsimp only
      omega

end Enter

section Step

variable {g g' : Gateway} {requestID : Bytes → Bytes}

theorem step_batch_some {k : Nat} {a : BatchAct} (h : g.step requestID (.batch k a) = some g') :
    ∃ b b' budgets, g.batches[k]? = some b ∧ b.step requestID a = some b' ∧
      g.useBudget b.sem (b.budgetUse a) = some budgets ∧
      g' = { g with budgets := budgets, batches := g.batches.set k b' } := by
  obtain ⟨b,hb,h⟩ := bind_eq_some_iff.mp h
  obtain ⟨b',hb',h⟩ := bind_eq_some_iff.mp h
  obtain ⟨budgets,hbu,rfl⟩ := map_eq_some_iff.mp h
  exact ⟨b,b',budgets,hb,hb',hbu,rfl⟩

variable {use : BudgetUse} {budgets : List Slots} {sem : Option Nat}

section

variable (h : g.useBudget sem use = some budgets)

include h

theorem useBudget_some : use = .none ∧ budgets = g.budgets ∨
      ∃ id c c', sem = some id ∧ g.budgets[id]? = some c ∧ use.change c = some c' ∧
        budgets = g.budgets.set id c' := by
  cases use with
  | none =>
    cases h
    exact .inl ⟨rfl,rfl⟩
  | take | give =>
    obtain ⟨id,hid,h⟩ := bind_eq_some_iff.mp h
    obtain ⟨c,hc,h⟩ := bind_eq_some_iff.mp h
    obtain ⟨c',hc',rfl⟩ := map_eq_some_iff.mp h
    exact .inr ⟨id,c,c',hid,hc,hc',rfl⟩

theorem useBudget_length : budgets.length = g.budgets.length := by
  obtain ⟨-,rfl⟩ | ⟨id,c,c',-,-,-,rfl⟩ := useBudget_some h
  · rfl
  · exact length_set

theorem useBudget_counts {id : Nat} {c' : Slots} (hc' : budgets[id]? = some c') :
    ∃ c, g.budgets[id]? = some c ∧ c'.cap = c.cap ∧ (c.len ≤ c.cap → c'.len ≤ c'.cap) ∧
      ((sem = some id → Batch.Counted c.len c'.len use) ∧ (sem ≠ some id → c'.len = c.len)) := by
  obtain ⟨rfl,rfl⟩ | ⟨id₀,c₀,c₁,hse,hc₀,hc,rfl⟩ := useBudget_some h
  · exact ⟨c',hc',rfl,fun hle => hle,fun _ => rfl,fun _ => rfl⟩
  · by_cases hid : id₀ = id
    · subst hid
      have hlt := (List.getElem?_eq_some_iff.mp hc₀).1
      rw [List.getElem?_set_self hlt] at hc'
      cases hc'
      refine ⟨c₀,hc₀,?_⟩
      cases use with
      | none =>
        cases hc
        exact ⟨rfl,fun hle => hle,fun _ => rfl,fun _ => rfl⟩
      | take =>
        obtain ⟨hr,rfl⟩ := Slots.take_eq_some hc
        exact ⟨rfl,fun _ => hr,fun _ => rfl,fun hne => absurd hse hne⟩
      | give =>
        obtain ⟨hp,rfl⟩ := Slots.give_eq_some hc
        refine ⟨rfl,fun hle => (Nat.sub_le _ _).trans hle,fun _ => ?_,
          fun hne => absurd hse hne⟩
        exact Nat.sub_add_cancel hp
    · rw [List.getElem?_set_ne hid] at hc'
      refine ⟨c',hc',rfl,fun hle => hle,fun hs => ?_,fun _ => rfl⟩
      cases hse.symm.trans hs
      exact absurd rfl hid

end

theorem batch_step {k : Nat} {a : BatchAct} (h : g.Sound)
    (hst : g.step requestID (.batch k a) = some g') : g'.Sound ∧ g'.work < g.work := by
  obtain ⟨b,b',budgets,hb,hb',hbu,rfl⟩ := step_batch_some hst
  have hme := mem_of_getElem? hb
  obtain ⟨ho,hs⟩ := h.batches b hme
  obtain ⟨-,hse⟩ := Batch.step_frame hb'
  have hl := useBudget_length hbu
  refine ⟨⟨?_,?_,?_,?_⟩,?_⟩
  · intro x hx
    rcases mem_or_eq_of_mem_set hx with hx | rfl
    · exact h.batches x hx
    · exact ⟨Batch.ordered_step ho hb',Batch.slotted_step ho hs hb'⟩
  · intro x hx id hid
    rw [hl]
    rcases mem_or_eq_of_mem_set hx with hx | rfl
    · exact h.sems x hx id hid
    · exact h.sems b hme id (hse ▸ hid)
  · intro id hid
    rw [hl]
    exact h.current id hid
  · intro id c' hc'
    obtain ⟨c,hc,hca,hr,hco,hsa⟩ := useBudget_counts hbu hc'
    obtain ⟨hp,hl,hle⟩ := h.budgets id c hc
    refine ⟨hca ▸ hp,?_,hr hle⟩
    have hsu : ((g.batches.set k b').map (Batch.uses id)).sum + b.uses id =
        g.inUse id + b'.uses id := Slots.sum_set (Batch.uses id) hb b'
    show c'.len = ((g.batches.set k b').map (Batch.uses id)).sum
    by_cases hid : b.sem = some id
    · have hu := Batch.uses_step ho hs hb' hid
      have hm := hco hid
      cases hb : b.budgetUse a with
      | none | take | give =>
        rw [hb] at hu hm
        simp [Batch.Counted] at hu hm
        omega
    · have hu := Batch.uses_of_ne hse hid
      have hk := hsa hid
      omega
  · have hsu := Slots.sum_set Batch.work hb b'
    have hlt := Batch.work_step ho hb'
    show (g.pending.map fun q => (Batch.start q none).work + 1).sum +
      ((g.batches.set k b').map Batch.work).sum < g.work
    unfold work
    omega

theorem sound_step {a : GatewayAct} (h : g.Sound) (hs : g.step requestID a = some g') :
    g'.Sound ∧ g'.work < g.work := by
  cases a with
  | enter lost => exact enter_step h hs
  | batch k a => exact batch_step h hs

theorem Sound.reaches {ok : Gateway → GatewayAct → Prop} {qs : List BatchRequest}
    (hr : Run.Reaches (step requestID) ok (start qs) g) : g.Sound :=
  hr.invariant Sound (sound_start qs) fun _ _ _ hs _ hst => (sound_step hs hst).1

theorem Sound.budget (h : g.Sound) {b : Batch} (hb : b ∈ g.batches) {id : Nat}
    (hid : b.sem = some id) :
    ∃ c, g.budgets[id]? = some c ∧ 0 < c.cap ∧ c.len = g.inUse id := by
  have hc := List.getElem?_eq_getElem (h.sems b hb id hid)
  obtain ⟨hca,hl,-⟩ := h.budgets id _ hc
  exact ⟨_,hc,hca,hl⟩

variable (requestID) in
def Enabled (g : Gateway) : Prop :=
  ∃ k a, BatchAct.own a = true ∧ (g.step requestID (.batch k a)).isSome = true

variable {b : Batch}

theorem enabled_of {k : Nat} {a : BatchAct} (hb : g.batches[k]? = some b)
    (how : a.own = true) (hs : (b.step requestID a).isSome = true)
    (hu : (g.useBudget b.sem (b.budgetUse a)).isSome = true) : g.Enabled requestID := by
  obtain ⟨b',hb'⟩ := isSome_iff_exists.mp hs
  obtain ⟨budgets,hbu⟩ := isSome_iff_exists.mp hu
  refine ⟨k,a,how,?_⟩
  rw [step,hb,bind_some,hb',hbu]
  rfl

theorem enabled_of_free (hb : b ∈ g.batches) (hf : b.Free requestID) :
    g.Enabled requestID := by
  obtain ⟨k,hk⟩ := List.getElem?_of_mem hb
  obtain ⟨a,how,hs,hu⟩ := hf
  exact enabled_of hk how hs (by rw [hu]; rfl)

section

variable (h : g.Sound) (hb : b ∈ g.batches)

include h hb

theorem enabled_of_answered {i : Nat}
    (hi : (b.items i).phase = .answered) : g.Enabled requestID := by
  obtain ⟨k,hk⟩ := List.getElem?_of_mem hb
  obtain ⟨ho,hs⟩ := h.batches b hb
  have hlt := ho.lt_n (j := i) (by rw [hi]; exact Phase.noConfusion)
  have hh : b.holds .budget i = true := by
    unfold Batch.holds BatchItem.holds
    rw [hi]
    exact Bool.or_true _
  refine enabled_of (a := .giveBudget i) hk rfl ?_ ?_
  · rw [Batch.step,Batch.giveBudget,if_pos hi,isSome_map]
    exact hs.giveSlot_enabled hlt hh
  · unfold Batch.budgetUse
    dsimp only
    split
    · next hse =>
      obtain ⟨id,hid⟩ := isSome_iff_exists.mp hse
      obtain ⟨c,hc,-,hl⟩ := h.budget hb hid
      have hu : 0 < b.uses id := by
        rw [Batch.uses,if_pos hid]
        by_contra hz
        cases (Slots.held_eq_zero.mp (Nat.eq_zero_of_not_pos hz) i hlt).symm.trans hh
      have hp : 0 < c.len := by
        rw [hl]
        exact Slots.sum_pos_iff.mpr ⟨b,hb,hu⟩
      rw [useBudget,hid,bind_some,hc,bind_some,Slots.give,if_pos hp]
      rfl
    · rfl

theorem enabled_of_uses {id : Nat} (hu : 0 < b.uses id) : g.Enabled requestID := by
  obtain ⟨ho,hs⟩ := h.batches b hb
  have hh : ∃ j < b.n, b.holds .budget j = true := by
    by_contra hn
    have hz : Slots.held b.n (b.holds .budget) = 0 := by
      refine Slots.held_eq_zero.mpr fun j hj => ?_
      exact Bool.eq_false_iff.mpr fun hj' => hn ⟨j,hj,hj'⟩
    unfold Batch.uses at hu
    rw [hz,ite_self] at hu
    exact absurd hu (Nat.lt_irrefl 0)
  obtain ⟨j,hj,hh⟩ := hh
  rcases Bool.or_eq_true_iff.mp hh with hd | hx
  · cases hdi : b.dispatcher with
    | launching i =>
      refine enabled_of_free hb ⟨.launch,rfl,?_,rfl⟩
      rw [Batch.step,Batch.launch,hdi]
      rfl
    | undoing i st =>
      rw [hdi] at hd
      cases st with
      | window | ceiling => simp [Dispatcher.holds,Stage.rank] at hd
      | budget => exact absurd hdi (ho.undone i)
    | acquiring i st | waiting i st =>
      rw [hdi] at hd
      cases st <;> simp [Dispatcher.holds,Stage.rank] at hd
    | failing i | stopped =>
      rw [hdi] at hd
      cases hd
  · have hp : (b.items j).phase.holds .budget = true := hx
    have hid : (b.items j).phase ≠ .idle := by
      intro hc
      rw [hc] at hp
      cases hp
    have ht : (b.items j).phase ≠ .told := by
      intro hc
      rw [hc] at hp
      cases hp
    rcases Batch.free_item ho hs hid ht with hf | ha
    · exact enabled_of_free hb hf
    · exact enabled_of_answered h hb ha

theorem enabled_of_waiting {i : Nat}
    (hd : b.dispatcher = .waiting i .budget) : g.Enabled requestID := by
  obtain ⟨k,hk⟩ := List.getElem?_of_mem hb
  obtain ⟨ho,hs⟩ := h.batches b hb
  have hch := hs.waits i .budget hd
  obtain ⟨id,hid⟩ : ∃ id, b.sem = some id := by
    rw [Batch.channel,isSome_map] at hch
    exact isSome_iff_exists.mp hch
  obtain ⟨c,hc,hca,hl⟩ := h.budget hb hid
  by_cases hz : g.inUse id = 0
  · have hr : c.len < c.cap := by
      rwa [hl,hz]
    refine enabled_of (a := .take) hk rfl ?_ ?_
    · rw [Batch.step,Batch.take,hd]
      rw [isSome_map]
      exact Batch.moveSlot_enabled hch fun c hc => by cases hc
    · unfold Batch.budgetUse
      rw [hd]
      rw [useBudget,hid,bind_some,hc,bind_some,Slots.take,if_pos hr]
      rfl
  · obtain ⟨x,hx,hu⟩ := Slots.sum_pos_iff.mp (Nat.pos_of_ne_zero hz)
    exact enabled_of_uses h hx hu

theorem enabled_of_unreturned (hn : ¬ b.Returned) : g.Enabled requestID := by
  obtain ⟨ho,hs⟩ := h.batches b hb
  have hc : b.Free requestID ∨ _ := Batch.free_or_budget ho hs hn
  rcases hc with hf | ⟨i,hi⟩ | ⟨i,hi⟩
  · exact enabled_of_free hb hf
  · exact enabled_of_answered h hb hi
  · exact enabled_of_waiting h hb hi

end

end Step

theorem batches_return_every_slot {requestID : Bytes → Bytes} {qs : List BatchRequest}
    {g : Gateway} (hreach : Run.Reaches (step requestID) (fun _ _ => True) (start qs) g) :
    (∀ b ∈ g.batches,
      (∀ t, b.log.count (.took t) ≤ 1 ∧ b.log.count (.gave t) ≤ b.log.count (.took t)) ∧
      (b.Returned → (∀ t, b.log.count (.gave t) = b.log.count (.took t)) ∧
        ∀ i < b.n, (b.items i).fate.isSome = true) ∧
      (0 < b.request.maxPerBatch → (b.running : Int) ≤ b.request.maxPerBatch) ∧
      (b.request.streaming = true → 0 < b.request.maxPerBatch → 0 ≤ b.request.maxWindow →
        (b.unwritten : Int) ≤ b.request.maxPerBatch + b.request.maxWindow)) ∧
    (∀ id c, g.budgets[id]? = some c → c.len = g.inUse id ∧ c.len ≤ c.cap) ∧
    (¬ g.Enabled requestID → ∀ b ∈ g.batches, b.Returned) ∧
    ∀ as g', Run.run (step requestID) (fun _ _ => True) g as = some g' → as.length ≤ g.work := by
  have hso := Sound.reaches hreach
  refine ⟨fun b hb => ?_,fun id c hc => (hso.budgets id c hc).2,fun hq b hb => ?_,
    fun as g' hru => ?_⟩
  · obtain ⟨ho,hs⟩ := hso.batches b hb
    refine ⟨fun t => ⟨hs.once t,hs.given_le t⟩,fun hr => ⟨hr.balanced ho hs,?_⟩,
      hs.running_le,hs.unwritten_le⟩
    exact fun i hi => hr.fates ho hi
  · by_contra hn
    exact hq (enabled_of_unreturned hso hb hn)
  · have hle := Run.run_length_le work Sound (fun _ _ _ h _ hst => sound_step h hst) hso hru
    omega

def firstCall : Payload := ⟨ascii "1",by decide +kernel⟩

def secondCall : Payload := ⟨ascii "2",by decide +kernel⟩

def tightBatch : BatchRequest where
  payloads := [firstCall,secondCall]
  streaming := true
  maxConcurrentRelays := 1
  maxPayloads := 0
  maxPerBatch := 1
  maxWindow := 1

-- The client's context ends while the second item waits behind the first one's ceiling slot.
def clientLeaves : List GatewayAct :=
  .enter false :: [BatchAct.openBody true,.check,.take,.check,.take,.check,.take,.launch,.check,
    .take,.check,.endParent .deadlineExceeded,.propagate,.giveUp,.undo,.fail,.fail,
    .reply 0 ⟨⟨some ⟨ascii "7",200⟩,[],none,none⟩,false⟩,.giveBudget 0,.receive,.flush true,
    .giveCeiling 0,.tell 0,.receive,.flush true,.release,.flush true,.release,.flush true,
    .finish true].map (.batch 0)

structure Outcome where
  moves : List (Move Token)
  delivered : Bytes
  maxPerBatch : Int
  deriving DecidableEq

def outcome (b : Batch) : Outcome := ⟨b.log.reverse,b.delivered,b.request.maxPerBatch⟩

def leftOutcome : Outcome where
  moves := [.took (.window,0),.took (.ceiling,0),.took (.budget 0,0),.took (.window,1),
    .gave (.window,1),.gave (.budget 0,0),.gave (.ceiling,0),.gave (.window,0)]
  delivered := ascii ("[7,\x7b\"jsonrpc\":\"2.0\",\"id\":2,\"error\":\x7b\"code\":-32603," ++
    "\"message\":\"batch payload not started: context deadline exceeded\"\x7d\x7d]")
  maxPerBatch := 1

theorem tight_batch_returns :
    ∃ g, Run.Reaches (step fun _ => []) (fun _ _ => True) (start [tightBatch]) g ∧
      g.batches.map outcome = [leftOutcome] ∧ g.budgets = [⟨1,0⟩] ∧
      ∀ b ∈ g.batches, (∀ t, b.log.count (.took t) ≤ 1) ∧ b.running ≤ 1 := by
  refine Run.reaches_of (P := fun g => g.batches.map outcome = [leftOutcome] ∧
    g.budgets = [⟨1,0⟩]) clientLeaves (by decide +kernel) ?_
  rintro g hre ⟨hb,hbu⟩
  refine ⟨hb,hbu,fun b hm => ?_⟩
  obtain ⟨hl,-,hr,-⟩ := (batches_return_every_slot hre).1 b hm
  have hon : b.request.maxPerBatch = 1 := by
    have hma := List.mem_map_of_mem (f := outcome) hm
    rw [hb,mem_singleton] at hma
    exact congrArg Outcome.maxPerBatch hma
  rw [hon] at hr
  exact ⟨fun t => (hl t).1,Int.ofNat_le.mp (hr Int.one_pos)⟩

end Gateway

end SageGateway
