import SageGateway.Relay.Batch.Order

namespace SageGateway

open Option
open Function (comp_def forall_update_iff update_of_ne update_self)

open Json

namespace Dispatcher

def holds : Dispatcher → Stage → Nat → Bool
  | .acquiring i st,s,j | .waiting i st,s,j => decide (j = i) && decide (s.rank < st.rank)
  | .launching i,_,j => decide (j = i)
  | .undoing i st,s,j => decide (j = i) && decide (s.rank ≤ st.rank)
  | .failing _,_,_ | .stopped,_,_ => false

-- Whether an item has yet to come to a stage.
def ahead : Dispatcher → Stage → Nat → Bool
  | .acquiring i st,s,j | .waiting i st,s,j =>
      decide (i < j) || decide (j = i) && decide (st.rank ≤ s.rank)
  | .launching i,_,j => decide (i < j)
  | .undoing _ _,_,_ | .failing _,_,_ | .stopped,_,_ => false

attribute [simp] holds ahead Stage.rank

theorem holds_acquired (i : Nat) (st s : Stage) (j : Nat) :
    (acquired i st).holds s j = if s = st ∧ j = i then true else (waiting i st).holds s j := by
  cases st <;> cases s <;> by_cases hji : j = i <;> simp [hji]

theorem holds_refused (i : Nat) (st s : Stage) (j : Nat) :
    (refused i st).holds s j = (waiting i st).holds s j := by
  cases st <;> cases s <;> simp

theorem next_of_holds {d : Dispatcher} {s : Stage} {j : Nat} (n : Nat) (h : d.holds s j = true) :
    d.next n = j := by
  cases d with
  | acquiring i st | waiting i st => exact (of_decide_eq_true (Bool.and_eq_true_iff.mp h).1).symm
  | launching i => exact (of_decide_eq_true h).symm
  | undoing i st => exact (of_decide_eq_true (Bool.and_eq_true_iff.mp h).1).symm
  | failing j | stopped => cases h

theorem ahead_acquired {i j : Nat} {st s : Stage} (h : (acquired i st).ahead s j = true) :
    (waiting i st).ahead s j = true ∧ ¬(s = st ∧ j = i) := by
  cases st <;> cases s <;> simp at h ⊢ <;> omega

theorem ahead_waiting (i : Nat) (st : Stage) : (waiting i st).ahead st i = true := by
  simp [ahead]

theorem ahead_refused (i : Nat) (st s : Stage) (j : Nat) : (refused i st).ahead s j = false := by
  cases st <;> rfl

theorem holds_following (n i : Nat) (s : Stage) (j : Nat) : (following n i).holds s j = false := by
  unfold following
  split
  · cases s <;> simp
  · rfl

theorem ahead_following {n i j : Nat} {s : Stage} (h : (following n i).ahead s j = true) :
    (launching i).ahead s j = true := by
  unfold following at h
  split at h
  · cases s <;> simp at h ⊢ <;> omega
  · cases h

end Dispatcher

def Phase.holds : Phase → Stage → Bool
  | .running,.ceiling | .running,.budget | .answered,.ceiling | .answered,.budget
  | .gaveBudget,.ceiling => true
  | _,_ => false

def BatchItem.holds (x : BatchItem) (nextOut j : Nat) : Stage → Bool
  | .window => x.started && decide (nextOut ≤ j)
  | st => x.phase.holds st

attribute [simp] Phase.holds BatchItem.holds

namespace Batch

def holds (b : Batch) (st : Stage) (j : Nat) : Bool :=
  b.dispatcher.holds st j || (b.items j).holds b.nextOut j st

def out (b : Batch) (t : Token) : Bool :=
  decide (b.channel t.1.stage = some t.1) && b.holds t.1.stage t.2

structure Quiet (b b' : Batch) : Prop where
  slots : ∀ st, b'.slots st = b.slots st
  log : b'.log = b.log
  holds : ∀ st j, (b.channel st).isSome = true → b'.holds st j = b.holds st j
  ahead : ∀ st j, b'.dispatcher.ahead st j = true → b.dispatcher.ahead st j = true

-- One token moves: into a channel for an item when it is taken, out of it when it is given.
structure Moved (b b' : Batch) (st : Stage) (i : Nat) (taken : Bool) : Prop where
  bound : i < b.n
  channel : ∃ ch, b.channel st = some ch ∧
    b'.log = (if taken then .took (ch,i) else .gave (ch,i)) :: b.log
  slot : ∀ c, b.slots st = some c →
    ∃ c', (if taken then c.take else c.give) = some c' ∧ b'.slots st = some c'
  others : ∀ s, (s = st → b.slots st = none) → b'.slots s = b.slots s
  before : b.holds st i = !taken
  holds : ∀ s j, (b.channel s).isSome = true →
    b'.holds s j = if s = st ∧ j = i then taken else b.holds s j
  ahead : ∀ s j, b'.dispatcher.ahead s j = true →
    b.dispatcher.ahead s j = true ∧ (taken = true → ¬(s = st ∧ j = i))
  claimed : taken = true → b.dispatcher.ahead st i = true

inductive SlotEvent where
  | quiet
  | moved (st : Stage) (i : Nat) (taken : Bool)
  deriving DecidableEq

def givenBack (b : Batch) (st : Stage) (i : Nat) : SlotEvent :=
  if (b.channel st).isSome then .moved st i false else .quiet

def slotEvent (b : Batch) : BatchAct → SlotEvent
  | .take =>
      match b.dispatcher with
      | .waiting i st => .moved st i true
      | _ => .quiet
  | .undo =>
      match b.dispatcher with
      | .undoing i st => b.givenBack st i
      | _ => .quiet
  | .giveBudget i => b.givenBack .budget i
  | .giveCeiling i => b.givenBack .ceiling i
  | .release => if (b.items b.nextOut).started then b.givenBack .window b.nextOut else .quiet
  | _ => .quiet

def Happens (b b' : Batch) : SlotEvent → Prop
  | .quiet => Quiet b b'
  | .moved st i taken => Moved b b' st i taken

section Moves

variable {b b' : Batch} {i : Nat} {st : Stage}

theorem slots_putSlots {c c' : Slots} (h : b.slots st = some c) (s : Stage) :
    (b.putSlots c' st).slots s = if s = st then some c' else b.slots s := by
  cases st with
  | window | ceiling => cases s <;> rfl
  | budget => cases h

theorem moveSlot_slots {op : Slots → Option Slots} {m : Channel → Move Token}
    (h : b.moveSlot st op m = some b') :
    (∃ ch, b.channel st = some ch ∧ b'.log = m ch :: b.log) ∧
      (∀ c, b.slots st = some c → ∃ c', op c = some c' ∧ b'.slots st = some c') ∧
      ∀ s, (s = st → b.slots st = none) → b'.slots s = b.slots s := by
  obtain ⟨ch,hch,⟨c,c',hc,hop,rfl⟩ | ⟨hn,rfl⟩⟩ := moveSlot_some h
  · have hsl : ∀ s, Batch.slots { b.putSlots c' st with log := m ch :: b.log } s =
        if s = st then some c' else b.slots s := by
      intro s
      rw [← slots_putSlots hc s]
      cases s <;> rfl
    refine ⟨⟨ch,hch,rfl⟩,?_,?_⟩
    · intro d hd
      have hcd : c = d := some.inj (hc.symm.trans hd)
      exact ⟨c',hcd ▸ hop,by rw [hsl,if_pos rfl]⟩
    · intro s hs
      have hne : s ≠ st := by
        intro he
        cases (hs he).symm.trans hc
      rw [hsl,if_neg hne]
  · refine ⟨⟨ch,hch,rfl⟩,?_,?_⟩
    · intro c hc
      cases hn.symm.trans hc
    · intro s _
      cases s <;> rfl

theorem slots_congr (hw : b'.window = b.window) (hc : b'.ceiling = b.ceiling) (s : Stage) :
    b'.slots s = b.slots s := by
  cases s with
  | window => exact hw
  | ceiling => exact hc
  | budget => rfl

theorem moved_of {b₁ : Batch} (taken : Bool)
    (hm : b.moveSlot st (if taken then Slots.take else Slots.give)
      (fun ch => if taken then .took (ch,i) else .gave (ch,i)) = some b₁)
    (hw : b'.window = b₁.window) (hc : b'.ceiling = b₁.ceiling) (hl : b'.log = b₁.log)
    (hi : i < b.n) (hb : b.holds st i = !taken)
    (hh : ∀ s j, (b.channel s).isSome = true →
      b'.holds s j = if s = st ∧ j = i then taken else b.holds s j)
    (ha : ∀ s j, b'.dispatcher.ahead s j = true →
      b.dispatcher.ahead s j = true ∧ (taken = true → ¬(s = st ∧ j = i)))
    (hcl : taken = true → b.dispatcher.ahead st i = true) : Moved b b' st i taken := by
  obtain ⟨⟨ch,hch,hlo⟩,hsl,ho⟩ := moveSlot_slots hm
  refine ⟨hi,⟨ch,hch,hl.trans hlo⟩,?_,?_,hb,hh,ha,hcl⟩
  · intro c hc'
    obtain ⟨c',hop,hc''⟩ := hsl c hc'
    refine ⟨c',?_,(slots_congr hw hc st).trans hc''⟩
    cases taken <;> exact hop
  · intro s hs
    exact (slots_congr hw hc s).trans (ho s hs)

theorem quiet_dispatch {d : Dispatcher}
    (hh : ∀ s j, (b.channel s).isSome = true → d.holds s j = b.dispatcher.holds s j)
    (ha : ∀ s j, d.ahead s j = true → b.dispatcher.ahead s j = true) :
    Quiet b { b with dispatcher := d } where
  slots _ := slots_congr rfl rfl _
  log := rfl
  holds s j hs := congrArg (· || (b.items j).holds b.nextOut j s) (hh s j hs)
  ahead := ha

theorem holds_congr {x : BatchItem}
    (hx : ∀ s, x.holds b.nextOut i s = (b.items i).holds b.nextOut i s)
    (s : Stage) (j : Nat) :
    (Function.update b.items i x j).holds b.nextOut j s = (b.items j).holds b.nextOut j s := by
  by_cases hji : j = i
  · rw [hji,update_self]
    exact hx s
  · rw [update_of_ne hji]

theorem quiet_item {x : BatchItem} {r : List Nat} {g : Bool}
    (hx : ∀ s, x.holds b.nextOut i s = (b.items i).holds b.nextOut i s) :
    Quiet b { b with items := Function.update b.items i x, ready := r, degraded := g } where
  slots _ := slots_congr rfl rfl _
  log := rfl
  holds s j _ := congrArg (b.dispatcher.holds s j || ·) (holds_congr hx s j)
  ahead _ _ h := h

end Moves

section Step

variable {b b' : Batch} {i : Nat} {st : Stage}

theorem Ordered.nextOut_le (h : b.Ordered) {j : Nat} (hj : (b.items j).phase ≠ .told) :
    b.nextOut ≤ j := by
  by_contra hlt
  exact hj ((h.told j).mpr (.inl (h.cursor j (Nat.not_le.mp hlt))))

theorem Ordered.at_free (h : b.Ordered) {d : Dispatcher} (hd : b.dispatcher = d)
    (hl : d.live = true) (hn : d.next b.n = i) :
    i < b.n ∧ ∀ s, (b.items i).holds b.nextOut i s = false := by
  subst hd hn
  refine ⟨h.below hl,fun s => ?_⟩
  rw [h.idle _ le_rfl]
  cases s <;> rfl

theorem slot_refused {i : Nat} {st : Stage} {d : Dispatcher} (hd : b.dispatcher = d)
    (hs : ∀ s j, d.holds s j = (Dispatcher.waiting i st).holds s j) :
    Quiet b { b with dispatcher := .refused i st } := by
  refine quiet_dispatch (fun s j _ => ?_) fun s j ha => ?_
  · rw [Dispatcher.holds_refused,hd,hs]
  · rw [Dispatcher.ahead_refused] at ha
    cases ha

theorem slot_acquired (hd : b.dispatcher = .acquiring i st) (hn : b.channel st = none) :
    Quiet b { b with dispatcher := .acquired i st } := by
  refine quiet_dispatch (fun s j hs => ?_) fun s j ha => ?_
  · have hne : s ≠ st := by
      rintro rfl
      simp [hn] at hs
    rw [Dispatcher.holds_acquired,if_neg fun hc => hne hc.1,hd]
    rfl
  · rw [hd]
    exact (Dispatcher.ahead_acquired ha).1

theorem slot_take (h : b.Ordered) (hd : b.dispatcher = .waiting i st) {b₁ : Batch}
    (ht : b.takeSlot i st = some b₁) :
    Moved b { b₁ with dispatcher := .acquired i st } st i true := by
  obtain ⟨w,c,l,hb₁⟩ := moveSlot_frame ht
  obtain ⟨hi,hf⟩ := h.at_free (i := i) hd rfl rfl
  refine moved_of true ht rfl rfl rfl hi ?_ ?_ ?_ ?_
  · show (b.dispatcher.holds st i || (b.items i).holds b.nextOut i st) = false
    rw [hd,hf]
    simp [Dispatcher.holds]
  · intro s j _
    subst hb₁
    show ((Dispatcher.acquired i st).holds s j || (b.items j).holds b.nextOut j s) = _
    rw [Dispatcher.holds_acquired,Batch.holds,hd]
    split
    · exact Bool.true_or _
    · rfl
  · intro s j ha
    obtain ⟨hw,hne⟩ := Dispatcher.ahead_acquired ha
    rw [hd]
    exact ⟨hw,fun _ => hne⟩
  · intro _
    rw [hd]
    exact Dispatcher.ahead_waiting i st

theorem slot_launch (h : b.Ordered) (hd : b.dispatcher = .launching i) : Quiet b { b with
      items := Function.update b.items i { b.items i with started := true, phase := .running },
      dispatcher := .following b.n i } := by
  have hid : b.items i = .initial := h.idle i (by rw [hd]; exact le_rfl)
  have hc : b.nextOut ≤ i := h.nextOut_le (by rw [hid]; exact Phase.noConfusion)
  refine ⟨fun s => slots_congr rfl rfl s,rfl,fun s j _ => ?_,fun s j ha => ?_⟩
  · show ((Dispatcher.following b.n i).holds s j ||
      (Function.update b.items i { b.items i with started := true, phase := .running } j).holds
        b.nextOut j s) = (b.dispatcher.holds s j || (b.items j).holds b.nextOut j s)
    rw [Dispatcher.holds_following,hd]
    by_cases hji : j = i
    · rw [hji]
      simp [Dispatcher.holds]
      cases s with
      | window => exact decide_eq_true hc
      | ceiling | budget => rfl
    · rw [update_of_ne hji]
      simp [Dispatcher.holds,decide_eq_false hji]
  · rw [hd]
    exact Dispatcher.ahead_following ha

theorem happens_givenBack {b₁ : Batch} (hg : b.giveSlot i st = some b₁)
    (hw : b'.window = b₁.window) (hc : b'.ceiling = b₁.ceiling) (hl : b'.log = b₁.log)
    (hi : i < b.n)
    (hb : b.holds st i = true)
    (hh : ∀ s j, b'.holds s j = if s = st ∧ j = i then false else b.holds s j)
    (hah : ∀ s j, b'.dispatcher.ahead s j = true → b.dispatcher.ahead s j = true) :
    Happens b b' (b.givenBack st i) := by
  unfold givenBack
  unfold giveSlot at hg
  split
  · next hch =>
    rw [if_pos hch] at hg
    exact moved_of false hg hw hc hl hi hb (fun s j _ => hh s j)
      (fun s j ha => ⟨hah s j ha,nofun⟩) nofun
  · next hch =>
    cases (if_neg hch).symm.trans hg
    refine ⟨slots_congr hw hc,hl,fun s j hs => (hh s j).trans (if_neg ?_),hah⟩
    rintro ⟨rfl,-⟩
    exact hch hs

theorem slot_undo (h : b.Ordered) (hd : b.dispatcher = .undoing i st) {d : Dispatcher}
    (hh : ∀ s j, d.holds s j = if s = st ∧ j = i then false else b.dispatcher.holds s j)
    (hah : ∀ s j, d.ahead s j = false) {b₁ : Batch} (hg : b.giveSlot i st = some b₁) :
    Happens b { b₁ with dispatcher := d } (b.givenBack st i) := by
  obtain ⟨hi,hf⟩ := h.at_free (i := i) hd rfl rfl
  refine happens_givenBack hg rfl rfl rfl hi ?_ (fun s j => ?_) fun s j ha => ?_
  · simp [Batch.holds,hd]
  · obtain ⟨w,c,l,rfl⟩ := giveSlot_frame hg
    show (d.holds s j || (b.items j).holds b.nextOut j s) = _
    rw [hh]
    split
    · next hc => rw [hc.2,hf,Bool.or_false]
    · rfl
  · rw [hah] at ha
    cases ha

section

variable (h : b.Ordered) (hi : (b.items i).phase ≠ .idle)
  (hheld : (b.items i).holds b.nextOut i st = true)

include h hi hheld

theorem slot_return {x : BatchItem} {m : Nat} {q : Collector}
    (hf : ∀ s, x.holds m i s = if s = st then false else (b.items i).holds b.nextOut i s)
    (hcu : ∀ s j, j ≠ i → (b.items j).holds m j s = (b.items j).holds b.nextOut j s)
    {b₁ : Batch} (hg : b.giveSlot i st = some b₁) :
    Happens b { b₁ with items := Function.update b₁.items i x, nextOut := m, collector := q }
      (b.givenBack st i) := by
  have hlt := h.lt_next hi
  have hn : ∀ s, b.dispatcher.holds s i = false := by
    intro s
    by_contra hd
    have := Dispatcher.next_of_holds b.n ((Bool.not_eq_false _).mp hd)
    omega
  refine happens_givenBack hg rfl rfl rfl (h.lt_n hi) ?_ (fun s => ?_) fun s j ha => ?_
  · rw [Batch.holds,hheld,Bool.or_true]
  · obtain ⟨w,c,l,rfl⟩ := giveSlot_frame hg
    refine (forall_update_iff b.items fun j x => (b.dispatcher.holds s j || x.holds m j s) =
      if s = st ∧ j = i then false else b.holds s j).mpr ⟨?_,fun j hji => ?_⟩
    · rw [hf,Batch.holds,hn,Bool.false_or,Bool.false_or]
      simp
    · rw [hcu s j hji,if_neg fun hc => hji hc.2]
      rfl
  · obtain ⟨w,c,l,rfl⟩ := giveSlot_frame hg
    exact ha

theorem slot_rephase {phase : Phase}
    (hf : ∀ s, BatchItem.holds { b.items i with phase := phase } b.nextOut i s =
      if s = st then false else (b.items i).holds b.nextOut i s)
    {b₁ : Batch} (hg : b.giveSlot i st = some b₁) :
    Happens b (b₁.setPhase i phase) (b.givenBack st i) := by
  have hr := slot_return h (q := b.collector) hi hheld hf (fun _ _ _ => rfl) hg
  obtain ⟨w,c,l,rfl⟩ := giveSlot_frame hg
  exact hr

end

theorem slot_step {requestID : Bytes → Bytes} {a : BatchAct} (h : b.Ordered)
    (hs : b.window.isSome = true → b.request.streaming = true)
    (hse : b.step requestID a = some b') : Happens b b' (b.slotEvent a) := by
  cases step_acts hse with
  | acquire i st hd hn => exact slot_acquired hd hn
  | refuse i st hd he | giveUp i st hd he => exact slot_refused hd fun _ _ => rfl
  | wait i st hd hch =>
    exact quiet_dispatch (fun s j _ => by simp [hd]) fun s j ha => by simpa [hd] using ha
  | take i st w c l hd ht =>
    simp [slotEvent,hd]
    exact slot_take h hd ht
  | launch i hd => exact slot_launch h hd
  | undo i st d w c l hd hg hne =>
    simp [slotEvent,hd]
    rcases hne with ⟨rfl,rfl⟩ | ⟨rfl,rfl⟩
    · refine slot_undo h hd (fun s j => ?_) (fun _ _ => rfl) hg
      cases s <;> by_cases hji : j = i <;> simp [hd,hji]
    · refine slot_undo h hd (fun s j => ?_) (fun _ _ => rfl) hg
      cases s <;> by_cases hji : j = i <;> simp [hd,hji]
  | fail j ended p hd hj hp =>
    have hid : b.items j = .initial := h.idle j (by rw [hd]; exact le_rfl)
    refine ⟨fun s => slots_congr rfl rfl s,rfl,fun s k _ => ?_,fun s k ha => by cases ha⟩
    refine congrArg₂ (· || ·) (by rw [hd]; rfl) (holds_congr (fun s => ?_) s k)
    rw [hid]
    cases s <;> rfl
  | stop j hd hj =>
    refine quiet_dispatch (fun s k _ => ?_) fun s k ha => by cases ha
    rw [hd]
    rfl
  | reply i s p hph hp | tell i hph =>
    refine quiet_item fun s => ?_
    cases s <;> simp [hph]
  | giveBudget i w c l hph hg | giveCeiling i w c l hph hg =>
    refine slot_rephase h (by simp [hph]) (by simp [hph]) (fun s => ?_) hg
    cases s <;> simp [hph]
  | pass ok hc hlt hdo hun =>
    refine ⟨fun s => slots_congr rfl rfl s,rfl,fun s j hch => ?_,fun _ _ ha => ha⟩
    cases s with
    | window =>
      rw [channel,isSome_map] at hch
      cases (hs hch).symm.trans hun
    | ceiling | budget => rfl
  | release w c l hc hf =>
    obtain ⟨-,hdo,-⟩ := h.writing hc
    have hb := h.begun_of_told (.inl hdo)
    have hcu : ∀ s j, j ≠ b.nextOut →
        (b.items j).holds (b.nextOut + 1) j s = (b.items j).holds b.nextOut j s := by
      intro s j hj
      have hle : b.nextOut + 1 ≤ j ↔ b.nextOut ≤ j := by omega
      cases s <;> simp [hle]
    cases hst : (b.items b.nextOut).started with
    | true =>
      rw [if_pos hst] at hf
      rw [show b.slotEvent .release = b.givenBack .window b.nextOut from if_pos hst]
      exact slot_return h (x := { b.items b.nextOut with result := none })
        (m := b.nextOut + 1) (q := .flushing) hb (by simp [hst])
        (fun s => by cases s <;> simp) hcu hf
    | false =>
      simp only [slotEvent,hst,Bool.false_eq_true,if_false] at hf ⊢
      obtain rfl : b.window = w := congrArg Batch.window (some.inj hf)
      obtain rfl : b.ceiling = c := congrArg Batch.ceiling (some.inj hf)
      obtain rfl : b.log = l := congrArg Batch.log (some.inj hf)
      refine ⟨fun s => slots_congr rfl rfl s,rfl,fun s j _ => ?_,fun _ _ ha => ha⟩
      refine congrArg (b.dispatcher.holds s j || ·) ?_
      refine (forall_update_iff b.items fun j x =>
        x.holds (b.nextOut + 1) j s = (b.items j).holds b.nextOut j s).mpr ⟨?_,hcu s⟩ j
      cases s <;> simp [hst]
  | _ => exact ⟨fun s => slots_congr rfl rfl s,rfl,fun _ _ _ => rfl,fun _ _ ha => ha⟩

end Step

structure Slotted (b : Batch) : Prop where
  counts : ∀ st c, b.slots st = some c → c.Counts b.n (b.holds st)
  caps : ∀ st, (b.slots st).map Slots.cap = ((start b.request b.sem).slots st).map Slots.cap
  tally : Move.Tally b.log b.out
  once : ∀ t, b.log.count (.took t) ≤ 1
  unclaimed : ∀ st ch j, b.channel st = some ch → b.dispatcher.ahead st j = true →
    b.log.count (.took (ch,j)) = 0
  waits : ∀ i st, b.dispatcher = .waiting i st → (b.channel st).isSome = true

section Slotted

variable {b b' : Batch} {ev : SlotEvent}

variable {taken : Bool} {ch : Channel} {i : Nat} {st : Stage}

theorem cap_of_move {c c' : Slots}
    (h : (if taken then c.take else c.give) = some c') : c'.cap = c.cap := by
  cases taken with
  | true =>
    obtain ⟨-,rfl⟩ := Slots.take_eq_some h
    rfl
  | false =>
    obtain ⟨-,rfl⟩ := Slots.give_eq_some h
    rfl

theorem Happens.caps (h : Happens b b' ev) (st : Stage) :
    (b'.slots st).map Slots.cap = (b.slots st).map Slots.cap := by
  cases ev with
  | quiet => rw [h.slots st]
  | moved s i taken =>
    by_cases hst : st = s
    · subst hst
      cases hc : b.slots st with
      | none => rw [h.others st fun _ => hc,hc]
      | some c =>
        obtain ⟨c',hop,hc'⟩ := h.slot c hc
        rw [hc',map_some,map_some,cap_of_move hop]
    · rw [h.others st fun he => absurd he hst]

theorem channel_eq (b : Batch) (st : Stage) :
    b.channel st = match st with
      | .window => ((b.slots .window).map Slots.cap).map fun _ => Channel.window
      | .ceiling => ((b.slots .ceiling).map Slots.cap).map fun _ => Channel.ceiling
      | .budget => b.sem.map Channel.budget := by
  cases st with
  | window | ceiling => simp only [channel,slots,map_map,comp_def]
  | budget => rfl

theorem Happens.channel (h : Happens b b' ev) (hs : b'.sem = b.sem) (st : Stage) :
    b'.channel st = b.channel st := by
  rw [channel_eq,channel_eq]
  cases st with
  | window | ceiling => simp [h.caps]
  | budget => simp [hs]

theorem stage_of_channel (h : b.channel st = some ch) :
    ch.stage = st := by
  cases st <;> obtain ⟨_,-,rfl⟩ := map_eq_some_iff.mp h <;> rfl

theorem Quiet.out (h : Quiet b b') (hch : ∀ st, b'.channel st = b.channel st) : b'.out = b.out := by
  funext t
  unfold Batch.out
  rw [hch]
  by_cases ht : b.channel t.1.stage = some t.1
  · rw [h.holds t.1.stage t.2 (by rw [ht]; rfl)]
  · rw [decide_eq_false ht,Bool.false_and,Bool.false_and]

theorem Moved.out
    (h : Moved b b' st i taken) (hch : ∀ st, b'.channel st = b.channel st)
    (hst : b.channel st = some ch) : b'.out = Function.update b.out (ch,i) taken := by
  have hsa := stage_of_channel hst
  funext t
  by_cases ht : t = (ch,i)
  · rw [ht]
    unfold Batch.out
    rw [hch,hsa,decide_eq_true hst,h.holds st i (by rw [hst]; rfl)]
    simp
  · rw [update_of_ne ht]
    unfold Batch.out
    rw [hch]
    by_cases hm : b.channel t.1.stage = some t.1
    · have hne : ¬(t.1.stage = st ∧ t.2 = i) := by
        rintro ⟨hs,hi⟩
        rw [hs,hst] at hm
        exact ht (Prod.ext (some.inj hm).symm hi)
      rw [h.holds t.1.stage t.2 (by rw [hm]; rfl),if_neg hne]
    · rw [decide_eq_false hm,Bool.false_and,Bool.false_and]

theorem Moved.took_count
    (h : Moved b b' st i taken) (hst : b.channel st = some ch) (t : Token) :
    b'.log.count (.took t) = b.log.count (.took t) + if taken = true ∧ (ch,i) =
    t then 1 else 0 := by
  obtain ⟨ch',hs',hl⟩ := h.channel
  cases hst.symm.trans hs'
  rw [hl]
  cases taken <;> simp [List.count_cons]

theorem counts_move {c c' : Slots} {n : Nat} {p q : Nat → Bool}
    (h : c.Counts n p) (hop : (if taken then c.take else c.give) = some c') (hi : i < n)
    (hp : p i = !taken) (hq : ∀ j, q j = if j = i then taken else p j) : c'.Counts n q := by
  have hu : ∀ j < n, q j = Function.update p i taken j := by
    intro j _
    rw [hq]
    by_cases hji : j = i
    · rw [if_pos hji,hji,update_self]
    · rw [if_neg hji,update_of_ne hji]
  cases taken with
  | true => exact (h.take hop hi hp).congr hu
  | false => exact (h.give hop hi hp).congr hu

theorem slotted_start (q : BatchRequest) (sem : Option Nat) : (start q sem).Slotted where
  counts st c hc := by
    have hl : c.len = 0 := by
      cases st with
      | window | ceiling =>
        obtain ⟨-,rfl⟩ := Run.guard_pos hc
        rfl
      | budget => cases hc
    refine ⟨?_,hl ▸ Nat.zero_le _⟩
    rw [hl]
    refine (Slots.held_eq_zero.mpr fun j _ => ?_).symm
    cases st <;> simp [Batch.holds,start,BatchItem.initial]
  caps _ := rfl
  tally := by
    refine ⟨fun t => ?_⟩
    have ho : (start q sem).out t = false := by
      refine Bool.and_eq_false_iff.mpr (.inr ?_)
      cases t.1.stage <;> simp [Batch.holds,start,BatchItem.initial]
    rw [ho]
    rfl
  once _ := Nat.zero_le _
  unclaimed _ _ _ _ _ := rfl
  waits _ _ h := by cases h

theorem waiting_step {requestID : Bytes → Bytes} {a : BatchAct}
    (hs : b.step requestID a = some b') (hd : b'.dispatcher = .waiting i st) :
    (b.channel st).isSome = true ∨ b.dispatcher = .waiting i st := by
  cases step_acts hs with
  | wait j s _ hch =>
    cases hd
    exact .inl hch
  | acquire j s | refuse j s | giveUp j s | take j s => cases s <;> cases hd
  | launch j =>
    simp [Dispatcher.following] at hd
    split at hd <;> cases hd
  | undo j s d w c l _ _ hn => rcases hn with ⟨-,rfl⟩ | ⟨-,rfl⟩ <;> cases hd
  | fail | stop => cases hd
  | _ => exact .inr hd

theorem Slotted.streaming (h : b.Slotted) (hw : b.window.isSome = true) :
    b.request.streaming = true := by
  have hca := congrArg isSome (h.caps .window)
  rw [isSome_map,isSome_map] at hca
  change b.window.isSome = b.request.window.isSome at hca
  rw [hw] at hca
  obtain ⟨c,hc⟩ := isSome_iff_exists.mp hca.symm
  obtain ⟨⟨hs,-⟩,-⟩ := ite_none_right_eq_some.mp hc
  exact hs

theorem Slotted.happens (h : b.Slotted) (hev : Happens b b' ev) (hr : b'.request = b.request)
    (hse : b'.sem = b.sem)
    (hwa : ∀ i st, b'.dispatcher = .waiting i st →
      (b.channel st).isSome = true ∨ b.dispatcher = .waiting i st) : b'.Slotted := by
  have hn : b'.n = b.n := congrArg BatchRequest.n hr
  have hch := hev.channel hse
  have hca : ∀ st, (b'.slots st).map Slots.cap =
      ((start b'.request b'.sem).slots st).map Slots.cap := by
    intro st
    rw [hev.caps,h.caps,hr,hse]
  have hp : ∀ {st c}, b.slots st = some c → (b.channel st).isSome = true := by
    intro st c hc
    rw [channel_eq]
    cases st with
    | window | ceiling =>
      simp only [hc]
      rfl
    | budget => cases hc
  have hw : ∀ i st, b'.dispatcher = .waiting i st → (b'.channel st).isSome = true := by
    intro i st hd
    rw [hch]
    exact (hwa i st hd).elim id (h.waits i st)
  cases ev with
  | quiet =>
    refine ⟨fun st c hc => ?_,hca,?_,?_,?_,hw⟩
    · rw [hev.slots st] at hc
      rw [hn]
      exact (h.counts st c hc).congr fun j _ => hev.holds st j (hp hc)
    · rw [hev.log,hev.out hch]
      exact h.tally
    · rw [hev.log]
      exact h.once
    · intro st ch j hst ha
      rw [hch] at hst
      rw [hev.log]
      exact h.unclaimed st ch j hst (hev.ahead st j ha)
  | moved st i taken =>
    obtain ⟨ch,hst,hl⟩ := Moved.channel hev
    refine ⟨fun s c hc => ?_,hca,?_,?_,?_,hw⟩
    · rw [hn]
      by_cases hs : s = st
      · subst hs
        cases hold : b.slots s with
        | none =>
          rw [hev.others s fun _ => hold,hold] at hc
          cases hc
        | some c₀ =>
          obtain ⟨c',hop,hc'⟩ := hev.slot c₀ hold
          cases hc'.symm.trans hc
          refine counts_move (h.counts s c₀ hold) hop hev.bound hev.before fun j => ?_
          rw [hev.holds s j (hp hold)]
          simp
      · rw [hev.others s fun he => absurd he hs] at hc
        refine (h.counts s c hc).congr fun j _ => ?_
        rw [hev.holds s j (hp hc),if_neg fun hbo => hs hbo.1]
    · rw [hl,hev.out hch hst]
      have ho : b.out (ch,i) = !taken := by
        unfold Batch.out
        rw [stage_of_channel hst,decide_eq_true hst]
        exact hev.before
      cases taken with
      | true => exact h.tally.take ho
      | false => exact h.tally.give ho
    · intro t
      rw [hev.took_count hst]
      split
      · next ht =>
        obtain ⟨ht,rfl⟩ := ht
        rw [h.unclaimed st ch i hst (hev.claimed ht)]
      · exact h.once t
    · intro s ch' j hs ha
      rw [hch] at hs
      obtain ⟨hb,hne⟩ := hev.ahead s j ha
      rw [hev.took_count hst,h.unclaimed s ch' j hs hb,if_neg]
      rintro ⟨ht,⟨⟩⟩
      exact hne ht ⟨(stage_of_channel hs).symm.trans (stage_of_channel hst),rfl⟩

theorem slotted_step {requestID : Bytes → Bytes} {a : BatchAct} (ho : b.Ordered) (h : b.Slotted)
    (hs : b.step requestID a = some b') : b'.Slotted := by
  obtain ⟨hr,hse⟩ := step_frame hs
  exact h.happens (slot_step ho h.streaming hs) hr hse fun _ _ => waiting_step hs

end Slotted

end Batch

end SageGateway
