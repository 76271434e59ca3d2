import SageGateway.Relay.Batch

namespace SageGateway

open List Option
open Function (forall_update_iff update_eq_self update_of_ne)

open Json

namespace Dispatcher

def next (n : Nat) : Dispatcher → Nat
  | .acquiring i _ | .waiting i _ | .launching i | .undoing i _ => i
  | .failing j => j
  | .stopped => n

def live : Dispatcher → Bool
  | .acquiring _ _ | .waiting _ _ | .launching _ | .undoing _ _ => true
  | .failing _ | .stopped => false

def aborted : Dispatcher → Bool
  | .undoing _ _ | .failing _ => true
  | _ => false

attribute [simp] acquired refused next live aborted

theorem next_following {n i : Nat} (h : i < n) :
    (following n i).next n = i + 1 ∧ (following n i).aborted = false ∧
      ((following n i).live = true → i + 1 < n) := by
  unfold following
  split
  · next hlt => exact ⟨rfl,rfl,fun _ => hlt⟩
  · next hge =>
    refine ⟨?_,rfl,fun hl => by cases hl⟩
    show n = i + 1
    omega

end Dispatcher

namespace BatchAct

end BatchAct

namespace Batch

def Flushed : Collector → Prop
  | .flushing | .releasing => False
  | _ => True

structure Ordered (b : Batch) : Prop where
  bound : b.dispatcher.next b.n ≤ b.n
  below : b.dispatcher.live = true → b.dispatcher.next b.n < b.n
  idle : ∀ j, b.dispatcher.next b.n ≤ j → b.items j = .initial
  begun : ∀ j < b.dispatcher.next b.n, (b.items j).phase ≠ .idle
  started : ∀ j, (b.items j).phase ≠ .idle → (b.items j).phase ≠ .told →
    (b.items j).started = true
  inOrder : b.dispatcher.live = true → ∀ j < b.dispatcher.next b.n, (b.items j).started = true
  ended : b.dispatcher.aborted = true → b.ctxErr.isSome = true
  undone : ∀ i, b.dispatcher ≠ .undoing i .budget
  settled : ∀ j, (b.items j).phase ≠ .idle → (b.items j).phase ≠ .running →
    (b.items j).fate.isSome = true
  told : ∀ j, (b.items j).phase = .told ↔ b.done j = true ∨ j ∈ b.ready
  nodup : b.ready.Nodup
  fresh : ∀ j ∈ b.ready, b.done j = false
  received : b.received = Slots.held b.n b.done
  within : b.nextOut ≤ b.n
  cursor : ∀ j < b.nextOut, b.done j = true
  stalled : Flushed b.collector → b.nextOut < b.n → b.done b.nextOut = false
  writing : b.collector = .releasing →
    b.nextOut < b.n ∧ b.done b.nextOut = true ∧ b.request.streaming = true
  returned : ∀ r, b.collector = .returned r → b.received = b.n

theorem ordered_start (q : BatchRequest) (sem : Option Nat) (hq : 0 < q.n) :
    (start q sem).Ordered where
  bound := Nat.zero_le _
  below _ := hq
  idle _ _ := rfl
  begun j hj := absurd hj (Nat.not_lt_zero j)
  started j hidle := absurd rfl hidle
  inOrder _ j hj := absurd hj (Nat.not_lt_zero j)
  ended h := by cases h
  undone _ h := by cases h
  settled j hidle := absurd rfl hidle
  told j := by
    constructor
    · nofun
    · rintro (h | h)
      · cases h
      · cases h
  nodup := nodup_nil
  fresh _ hj := by cases hj
  received := (Slots.held_eq_zero.mpr fun _ _ => rfl).symm
  within := Nat.zero_le _
  cursor j hj := absurd hj (Nat.not_lt_zero j)
  stalled _ _ := rfl
  writing h := by cases h
  returned _ h := by cases h

section Inversion

variable {b b' : Batch} {i : Nat} {st : Stage}

theorem cancelBatch_ended (b : Batch) : b.cancelBatch.ctxErr.isSome = true := by
  unfold cancelBatch
  cases b.ctxErr <;> rfl

theorem moveSlot_some {op : Slots → Option Slots} {m : Channel → Move Token}
    (h : b.moveSlot st op m = some b') :
    ∃ ch, b.channel st = some ch ∧ (
      (∃ c c', b.slots st = some c ∧ op c = some c' ∧
        b' = { b.putSlots c' st with log := m ch :: b.log }) ∨
      b.slots st = none ∧ b' = { b with log := m ch :: b.log }) := by
  obtain ⟨ch,hch,h⟩ := bind_eq_some_iff.mp h
  refine ⟨ch,hch,?_⟩
  cases hc : b.slots st with
  | some c =>
    simp only [hc] at h
    obtain ⟨c',hop,rfl⟩ := map_eq_some_iff.mp h
    exact .inl ⟨c,c',rfl,hop,rfl⟩
  | none =>
    simp [hc] at h
    cases h
    exact .inr ⟨rfl,rfl⟩

theorem moveSlot_frame {op : Slots → Option Slots} {m : Channel → Move Token}
    (h : b.moveSlot st op m = some b') :
    ∃ w c l, b' = { b with window := w, ceiling := c, log := l } := by
  obtain ⟨ch,-,⟨c,c',-,-,rfl⟩ | ⟨-,rfl⟩⟩ := moveSlot_some h
  · cases st <;> exact ⟨_,_,_,rfl⟩
  · exact ⟨_,_,_,rfl⟩

theorem giveSlot_frame (h : b.giveSlot i st = some b') :
    ∃ w c l, b' = { b with window := w, ceiling := c, log := l } := by
  unfold giveSlot at h
  split at h
  · exact moveSlot_frame h
  · cases h
    exact ⟨_,_,_,rfl⟩

theorem writeStream_frame (b : Batch) (ok : Bool) (chunk : Bytes) :
    ∃ e a w c, b.writeStream ok chunk =
    { b with ctxErr := e, abandoned := a, wire := w, cut := c } ∧
      (b.ctxErr.isSome = true → e.isSome = true) := by
  unfold writeStream
  split
  · exact ⟨_,_,_,_,rfl,id⟩
  · exact ⟨_,_,_,_,rfl,fun _ => b.cancelBatch_ended⟩

theorem noticed_frame (b : Batch) :
    ∃ e a, b.noticed = { b with ctxErr := e, abandoned := a } ∧
      (b.ctxErr.isSome = true → e.isSome = true) := by
  unfold noticed
  split
  · exact ⟨_,_,rfl,fun _ => b.cancelBatch_ended⟩
  · exact ⟨_,_,rfl,id⟩

theorem writeItem_frame {ok : Bool} (h : b.writeItem ok = some b') :
    ∃ e a w c, b' = { b with ctxErr := e, abandoned := a, wire := w, cut := c } ∧
      (b.ctxErr.isSome = true → e.isSome = true) := by
  obtain ⟨e,a,hn,he⟩ := noticed_frame b
  unfold writeItem at h
  split at h
  · cases h
    exact ⟨e,a,_,_,hn,he⟩
  · obtain ⟨p,-,rfl⟩ := map_eq_some_iff.mp h
    obtain ⟨e',a',w,c,hw,he'⟩ := writeStream_frame b.noticed ok
      (separator b.nextOut ++ streamItem p (b.items b.nextOut).result)
    rw [hn] at hw he' ⊢
    exact ⟨e',a',w,c,hw,fun h => he' (he h)⟩

theorem freed_frame {started : Bool}
    (h : (if started then b.giveSlot i .window else some b) = some b') :
    ∃ w c l, b' = { b with window := w, ceiling := c, log := l } := by
  split at h
  · exact giveSlot_frame h
  · cases h
    exact ⟨_,_,_,rfl⟩

-- What a step is, action by action; the slots it moved and the bytes it wrote are already in the
-- state after it.
inductive Acts (requestID : Bytes → Bytes) (b : Batch) : BatchAct → Batch → Prop
  | endParent (ended : ContextEnd) (hnone : b.parentErr = none) :
      Acts requestID b (.endParent ended) { b with parentErr := some ended }
  | propagate (ended : ContextEnd) (hnone : b.ctxErr = none) :
      Acts requestID b .propagate { b with ctxErr := some ended }
  | acquire (i : Nat) (st : Stage) (hd : b.dispatcher = .acquiring i st)
      (hnone : b.channel st = none) :
      Acts requestID b .check { b with dispatcher := .acquired i st }
  | refuse (i : Nat) (st : Stage) (hd : b.dispatcher = .acquiring i st)
      (hend : b.ctxErr.isSome = true) :
      Acts requestID b .check { b with dispatcher := .refused i st }
  | wait (i : Nat) (st : Stage) (hd : b.dispatcher = .acquiring i st)
      (hch : (b.channel st).isSome = true) :
      Acts requestID b .check { b with dispatcher := .waiting i st }
  | take (i : Nat) (st : Stage) (w c : Option Slots) (l : List (Move Token))
      (hd : b.dispatcher = .waiting i st)
      (htake : b.takeSlot i st = some { b with window := w, ceiling := c, log := l }) :
      Acts requestID b .take
        { b with window := w, ceiling := c, log := l, dispatcher := .acquired i st }
  | giveUp (i : Nat) (st : Stage) (hd : b.dispatcher = .waiting i st)
      (hend : b.ctxErr.isSome = true) :
      Acts requestID b .giveUp { b with dispatcher := .refused i st }
  | launch (i : Nat) (hd : b.dispatcher = .launching i) :
      Acts requestID b .launch { b with
        items := Function.update b.items i { b.items i with started := true, phase := .running },
        dispatcher := .following b.n i }
  | undo (i : Nat) (st : Stage) (d : Dispatcher) (w c : Option Slots) (l : List (Move Token))
      (hd : b.dispatcher = .undoing i st)
      (hgive : b.giveSlot i st = some { b with window := w, ceiling := c, log := l })
      (hnext : st = .window ∧ d = .failing i ∨ st = .ceiling ∧ d = .undoing i .window) :
      Acts requestID b .undo { b with window := w, ceiling := c, log := l, dispatcher := d }
  | fail (j : Nat) (ended : ContextEnd) (p : Payload) (hd : b.dispatcher = .failing j)
      (hj : j < b.n) (hp : b.request.payloads[j]? = some p) :
      Acts requestID b .fail { b with
        items := Function.update b.items j { b.items j with
          phase := .told, result := some ((Fate.notStarted ended).result requestID p),
          fate := some (.notStarted ended) },
        ready := b.ready ++ [j], dispatcher := .failing (j + 1) }
  | stop (j : Nat) (hd : b.dispatcher = .failing j) (hj : b.n ≤ j) :
      Acts requestID b .fail { b with dispatcher := .stopped }
  | reply (i : Nat) (s : SubRelay) (p : Payload) (hphase : (b.items i).phase = .running)
      (hp : b.request.payloads[i]? = some p) :
      Acts requestID b (.reply i s) { b with
        items := Function.update b.items i { b.items i with
          phase := .answered, result := some ((Fate.replied s).result requestID p),
          fate := some (.replied s) },
        degraded := b.degraded || s.degraded }
  | giveBudget (i : Nat) (w c : Option Slots) (l : List (Move Token))
      (hphase : (b.items i).phase = .answered)
      (hgive : b.giveSlot i .budget = some { b with window := w, ceiling := c, log := l }) :
      Acts requestID b (.giveBudget i)
        (setPhase { b with window := w, ceiling := c, log := l } i .gaveBudget)
  | giveCeiling (i : Nat) (w c : Option Slots) (l : List (Move Token))
      (hphase : (b.items i).phase = .gaveBudget)
      (hgive : b.giveSlot i .ceiling = some { b with window := w, ceiling := c, log := l }) :
      Acts requestID b (.giveCeiling i)
        (setPhase { b with window := w, ceiling := c, log := l } i .gaveCeiling)
  | tell (i : Nat) (hphase : (b.items i).phase = .gaveCeiling) :
      Acts requestID b (.tell i) { b.setPhase i .told with ready := b.ready ++ [i] }
  | openBody (ok : Bool) (e : Option ContextEnd) (a : Bool) (w : Bytes) (c : Bool)
      (hc : b.collector = .opening) (he : b.ctxErr.isSome = true → e.isSome = true) :
      Acts requestID b (.openBody ok)
        { b with ctxErr := e, abandoned := a, wire := w, cut := c, collector := .receiving }
  | receive (i : Nat) (rest : List Nat) (hc : b.collector = .receiving) (hr : b.ready = i :: rest)
      (hlt : b.received < b.n) :
      Acts requestID b .receive
        { b with done := Function.update b.done i true, received := b.received + 1,
                 ready := rest, collector := .flushing }
  | write (ok : Bool) (e : Option ContextEnd) (a : Bool) (w : Bytes) (c : Bool)
      (hc : b.collector = .flushing) (hlt : b.nextOut < b.n) (hdone : b.done b.nextOut = true)
      (hs : b.request.streaming = true)
      (hwrite : b.writeItem ok = some { b with ctxErr := e, abandoned := a, wire := w, cut := c })
      (he : b.ctxErr.isSome = true → e.isSome = true) :
      Acts requestID b (.flush ok)
        { b with ctxErr := e, abandoned := a, wire := w, cut := c, collector := .releasing }
  | pass (ok : Bool) (hc : b.collector = .flushing) (hlt : b.nextOut < b.n)
      (hdone : b.done b.nextOut = true) (hs : b.request.streaming = false) :
      Acts requestID b (.flush ok) { b with nextOut := b.nextOut + 1 }
  | flushed (ok : Bool) (hc : b.collector = .flushing)
      (hnot : ¬(b.nextOut < b.n ∧ b.done b.nextOut = true)) :
      Acts requestID b (.flush ok) { b with collector := .receiving }
  | release (w c : Option Slots) (l : List (Move Token)) (hc : b.collector = .releasing)
      (hfreed : (if (b.items b.nextOut).started then b.giveSlot b.nextOut .window else some b) =
        some { b with window := w, ceiling := c, log := l }) :
      Acts requestID b .release { b with
        window := w, ceiling := c, log := l,
        items := Function.update b.items b.nextOut { b.items b.nextOut with result := none },
        nextOut := b.nextOut + 1, collector := .flushing }
  | finish (ok : Bool) (e : Option ContextEnd) (w : Bytes) (c : Bool) (r : Response)
      (hc : b.collector = .receiving) (hn : b.n ≤ b.received)
      (he : b.ctxErr.isSome = true → e.isSome = true) :
      Acts requestID b (.finish ok)
        { b with ctxErr := e, wire := w, cut := c, collector := .returned r }

variable {requestID : Bytes → Bytes} {ok : Bool}

theorem check_acts (h : b.check = some b') : Acts requestID b .check b' := by
  unfold check at h
  split at h
  · next i st hd =>
    split at h
    · next hn =>
      cases h
      exact .acquire i st hd (isNone_iff_eq_none.mp hn)
    · next hs =>
      split at h
      · next he =>
        cases h
        exact .refuse i st hd he
      · cases h
        exact .wait i st hd (by simpa [isSome_iff_ne_none] using hs)
  · cases h

theorem undo_acts (h : b.undo = some b') : Acts requestID b .undo b' := by
  unfold undo at h
  split at h
  · next i hd =>
    obtain ⟨b₁,hb₁,rfl⟩ := map_eq_some_iff.mp h
    obtain ⟨w,c,l,rfl⟩ := giveSlot_frame hb₁
    exact .undo i .window _ w c l hd hb₁ (.inl ⟨rfl,rfl⟩)
  · next i hd =>
    obtain ⟨b₁,hb₁,rfl⟩ := map_eq_some_iff.mp h
    obtain ⟨w,c,l,rfl⟩ := giveSlot_frame hb₁
    exact .undo i .ceiling _ w c l hd hb₁ (.inr ⟨rfl,rfl⟩)
  · cases h

theorem fail_acts (h : b.fail requestID = some b') : Acts requestID b .fail b' := by
  unfold fail at h
  split at h
  · next j hd =>
    split at h
    · next hj =>
      obtain ⟨ended,-,h⟩ := bind_eq_some_iff.mp h
      obtain ⟨b₁,hb₁,rfl⟩ := map_eq_some_iff.mp h
      obtain ⟨p,hp,rfl⟩ := map_eq_some_iff.mp hb₁
      exact .fail j ended p hd hj hp
    · next hj =>
      cases h
      exact .stop j hd (Nat.not_lt.mp hj)
  · cases h

theorem openBody_acts (h : b.openBody ok = some b') : Acts requestID b (.openBody ok) b' := by
  unfold openBody at h
  split at h
  · next hc =>
    split at h
    · cases h
      obtain ⟨e,a,w,c,hw,he⟩ := writeStream_frame b ok [91]
      rw [hw]
      exact .openBody ok e a w c hc he
    · cases h
      exact .openBody ok _ _ _ _ hc id
  · cases h

theorem flush_acts (h : b.flush ok = some b') : Acts requestID b (.flush ok) b' := by
  unfold flush at h
  split at h
  · next hc =>
    split at h
    · next hd =>
      split at h
      · next hs =>
        obtain ⟨b₁,hb₁,rfl⟩ := map_eq_some_iff.mp h
        obtain ⟨e,a,w,c,rfl,he⟩ := writeItem_frame hb₁
        exact .write ok e a w c hc hd.1 hd.2 hs hb₁ he
      · next hs =>
        cases h
        exact .pass ok hc hd.1 hd.2 (Bool.eq_false_iff.mpr hs)
    · next hd =>
      cases h
      exact .flushed ok hc hd
  · cases h

theorem finish_acts (h : b.finish ok = some b') : Acts requestID b (.finish ok) b' := by
  unfold finish at h
  split at h
  · next hc =>
    split at h
    · cases h
    · next hn =>
      split at h
      · cases h
        split
        · exact .finish ok _ _ _ _ hc (Nat.not_lt.mp hn) fun _ => b.cancelBatch_ended
        · obtain ⟨e,a,w,c,hw,-⟩ := writeStream_frame b ok [93]
          rw [hw]
          exact .finish ok _ _ _ _ hc (Nat.not_lt.mp hn) fun _ => cancelBatch_ended _
      · cases h
        exact .finish ok _ _ _ _ hc (Nat.not_lt.mp hn) fun _ => b.cancelBatch_ended
  · cases h

theorem step_acts {a : BatchAct} (hs : b.step requestID a = some b') :
    Acts requestID b a b' := by
  cases a with
  | endParent ended =>
    obtain ⟨hn,rfl⟩ := Run.guard_pos hs
    exact .endParent ended (isNone_iff_eq_none.mp hn)
  | propagate =>
    obtain ⟨hn,hm⟩ := ite_none_right_eq_some.mp hs
    obtain ⟨e,-,rfl⟩ := map_eq_some_iff.mp hm
    exact .propagate e (isNone_iff_eq_none.mp hn)
  | check => exact check_acts hs
  | take =>
    simp [step,take] at hs
    split at hs
    · next i st hd =>
      obtain ⟨b₁,hb₁,rfl⟩ := map_eq_some_iff.mp hs
      obtain ⟨w,c,l,rfl⟩ := moveSlot_frame hb₁
      exact .take i st w c l hd hb₁
    · cases hs
  | giveUp =>
    simp [step,giveUp] at hs
    split at hs
    · next i st hd =>
      obtain ⟨he,rfl⟩ := Run.guard_pos hs
      exact .giveUp i st hd he
    · cases hs
  | launch =>
    simp [step,launch] at hs
    split at hs
    · next i hd =>
      cases hs
      exact .launch i hd
    · cases hs
  | undo => exact undo_acts hs
  | fail => exact fail_acts hs
  | reply i s =>
    obtain ⟨hru,h⟩ := ite_none_right_eq_some.mp hs
    obtain ⟨b₁,hb₁,rfl⟩ := map_eq_some_iff.mp h
    obtain ⟨p,hp,rfl⟩ := map_eq_some_iff.mp hb₁
    exact .reply i s p hru hp
  | giveBudget i =>
    obtain ⟨hph,h⟩ := ite_none_right_eq_some.mp hs
    obtain ⟨b₁,hb₁,rfl⟩ := map_eq_some_iff.mp h
    obtain ⟨w,c,l,rfl⟩ := giveSlot_frame hb₁
    exact .giveBudget i w c l hph hb₁
  | giveCeiling i =>
    obtain ⟨hph,h⟩ := ite_none_right_eq_some.mp hs
    obtain ⟨b₁,hb₁,rfl⟩ := map_eq_some_iff.mp h
    obtain ⟨w,c,l,rfl⟩ := giveSlot_frame hb₁
    exact .giveCeiling i w c l hph hb₁
  | tell i =>
    obtain ⟨hph,rfl⟩ := Run.guard_pos hs
    exact .tell i hph
  | openBody ok => exact openBody_acts hs
  | receive =>
    simp [step,receive] at hs
    split at hs
    · next i rest hc hr =>
      obtain ⟨hlt,rfl⟩ := Run.guard_pos hs
      exact .receive i rest hc hr hlt
    · cases hs
  | flush ok => exact flush_acts hs
  | release =>
    simp [step,release] at hs
    split at hs
    · next hc =>
      obtain ⟨b₁,hb₁,rfl⟩ := map_eq_some_iff.mp hs
      obtain ⟨w,c,l,rfl⟩ := freed_frame hb₁
      exact .release w c l hc hb₁
    · cases hs
  | finish ok => exact finish_acts hs

theorem step_frame {a : BatchAct} (hs : b.step requestID a = some b') :
    b'.request = b.request ∧ b'.sem = b.sem := by
  cases step_acts hs <;> exact ⟨rfl,rfl⟩

end Inversion

-- What holds of the item at `j` while the dispatcher is at `d`.
structure Placed (n : Nat) (d : Dispatcher) (j : Nat) (x : BatchItem) : Prop where
  idle : d.next n ≤ j → x = .initial
  begun : j < d.next n → x.phase ≠ .idle
  started : x.phase ≠ .idle → x.phase ≠ .told → x.started = true
  inOrder : d.live = true → j < d.next n → x.started = true
  settled : x.phase ≠ .idle → x.phase ≠ .running → x.fate.isSome = true

theorem Placed.leave {n i j : Nat} {d d' : Dispatcher} {x : BatchItem} (h : Placed n d j x)
    (hat : d.next n = i) (hn : d'.next n = i + 1) (hji : j ≠ i)
    (hli : d'.live = true → d.live = true) : Placed n d' j x where
  __ := h
  idle hle := h.idle (by omega)
  begun hlt := h.begun (by omega)
  inOrder hl hlt := h.inOrder (hli hl) (by omega)

structure Directed (b : Batch) (d : Dispatcher) : Prop where
  bound : d.next b.n ≤ b.n
  below : d.live = true → d.next b.n < b.n
  ended : d.aborted = true → b.ctxErr.isSome = true
  undone : ∀ i, d ≠ .undoing i .budget

structure Heard (done : Nat → Bool) (ready : List Nat) (items : Nat → BatchItem) : Prop where
  told : ∀ j, (items j).phase = .told ↔ done j = true ∨ j ∈ ready
  nodup : ready.Nodup
  fresh : ∀ j ∈ ready, done j = false

namespace Ordered

variable {b : Batch}

variable {x : BatchItem} {i j : Nat}

section

variable (h : b.Ordered)

include h

theorem lt_next (hj : (b.items j).phase ≠ .idle) : j < b.dispatcher.next b.n := by
  by_contra hge
  rw [h.idle j (Nat.not_lt.mp hge)] at hj
  exact hj rfl

theorem lt_n (hj : (b.items j).phase ≠ .idle) : j < b.n :=
  (h.lt_next hj).trans_le h.bound

theorem begun_of_told (hj : b.done j = true ∨ j ∈ b.ready) : (b.items j).phase ≠ .idle := by
  rw [(h.told j).mpr hj]
  decide

theorem placed (j : Nat) : Placed b.n b.dispatcher j (b.items j) :=
  ⟨h.idle j,h.begun j,h.started j,fun hl => h.inOrder hl j,h.settled j⟩

theorem directed : b.Directed b.dispatcher :=
  { h with }

theorem redirect {d : Dispatcher} (w c : Option Slots) (l : List (Move Token))
    (hn : d.next b.n = b.dispatcher.next b.n)
    (hli : d.live = true → b.dispatcher.live = true)
    (he : d.aborted = true → b.ctxErr.isSome = true) (hu : ∀ i, d ≠ .undoing i .budget) :
    Ordered { b with window := w, ceiling := c, log := l, dispatcher := d } :=
  { h with
    bound := (Nat.le_of_eq hn).trans h.bound
    below := fun hl => (Nat.le_of_eq hn).trans_lt (h.below (hli hl))
    idle := fun j hj => h.idle j ((Nat.le_of_eq hn.symm).trans hj)
    begun := fun j hj => h.begun j (hj.trans_le (Nat.le_of_eq hn))
    inOrder := fun hl j hj => h.inOrder (hli hl) j (hj.trans_le (Nat.le_of_eq hn))
    ended := he
    undone := hu }

theorem put {d : Dispatcher} {r : List Nat}
    (w c : Option Slots) (l : List (Move Token)) (g : Bool) (hd : b.Directed d)
    (hx : Placed b.n d i x) (hre : ∀ j, j ≠ i → Placed b.n d j (b.items j))
    (hr : Heard b.done r (Function.update b.items i x)) :
    Ordered { b with window := w, ceiling := c, log := l, degraded := g, ready := r,
                     dispatcher := d, items := Function.update b.items i x } := by
  have hp := (forall_update_iff b.items (Placed b.n d)).mpr ⟨hx,hre⟩
  exact { h with
    bound := hd.bound
    below := hd.below
    idle := fun j => (hp j).idle
    begun := fun j => (hp j).begun
    started := fun j => (hp j).started
    inOrder := fun hl j => (hp j).inOrder hl
    ended := hd.ended
    undone := hd.undone
    settled := fun j => (hp j).settled
    told := hr.told
    nodup := hr.nodup
    fresh := hr.fresh }

theorem heard_kept (hx : x.phase = .told ↔ (b.items i).phase = .told) :
    Heard b.done b.ready (Function.update b.items i x) where
  __ := h
  told := (forall_update_iff b.items
    fun j y => y.phase = .told ↔ b.done j = true ∨ j ∈ b.ready).mpr
      ⟨hx.trans (h.told i),fun j _ => h.told j⟩

theorem heard_more (hi : (b.items i).phase ≠ .told)
    (hx : x.phase = .told) : Heard b.done (b.ready ++ [i]) (Function.update b.items i x) := by
  have hn : ¬(b.done i = true ∨ i ∈ b.ready) := fun hc => hi ((h.told i).mpr hc)
  refine ⟨(forall_update_iff b.items
    fun j y => y.phase = .told ↔ b.done j = true ∨ j ∈ b.ready ++ [i]).mpr ⟨?_,?_⟩,?_,?_⟩
  · simp [hx]
  · intro j hji
    simp [h.told j,hji]
  · exact nodup_append.mpr ⟨h.nodup,nodup_singleton i,fun a ha c hc hac =>
      hn (.inr (mem_singleton.mp hc ▸ hac ▸ ha))⟩
  · intro j hj
    rcases mem_append.mp hj with hj | hj
    · exact h.fresh j hj
    · rw [mem_singleton.mp hj]
      exact Bool.eq_false_iff.mpr fun hc => hn (.inl hc)

theorem advance (w c : Option Slots) (l : List (Move Token)) (g : Bool)
    (hold : (b.items i).phase ≠ .idle ∧ (b.items i).phase ≠ .told)
    (hn : x.phase ≠ .idle ∧ x.phase ≠ .told) (hst : x.started = true)
    (hf : x.fate.isSome = true) :
    Ordered { b with window := w, ceiling := c, log := l, degraded := g,
                     items := Function.update b.items i x } := by
  refine h.put w c l g h.directed ⟨fun hle => ?_,fun _ => hn.1,fun _ _ => hst,fun _ _ => hst,
    fun _ _ => hf⟩ (fun j _ => h.placed j) (h.heard_kept (iff_of_false hn.2 hold.2))
  exact absurd hle (Nat.not_le.mpr (h.lt_next hold.1))

theorem launch (hd : b.dispatcher = .launching i) : Ordered { b with
      items := Function.update b.items i { b.items i with started := true, phase := .running },
      dispatcher := .following b.n i } := by
  have hat : b.dispatcher.next b.n = i := by simp [hd]
  have hli : b.dispatcher.live = true := by simp [hd]
  have hi : i < b.n := hat ▸ h.below hli
  have hid : b.items i = .initial := h.idle i (Nat.le_of_eq hat)
  obtain ⟨hn,hab,hlt⟩ := Dispatcher.next_following hi
  refine h.put b.window b.ceiling b.log b.degraded ⟨?_,?_,?_,?_⟩ ⟨?_,fun _ => Phase.noConfusion,
    fun _ _ => rfl,fun _ _ => rfl,fun _ hr => absurd rfl hr⟩
    (fun j hj => (h.placed j).leave hat hn hj fun _ => hli) (h.heard_kept ?_)
  · omega
  · exact fun hl => hn ▸ hlt hl
  · rw [hab]
    exact nofun
  · rintro k hk
    simp [hk] at hab
  · omega
  · simp [hid,BatchItem.initial]

theorem tells (hi : (b.items i).phase = .gaveCeiling) :
    Ordered { b.setPhase i .told with ready := b.ready ++ [i] } := by
  have hid : (b.items i).phase ≠ .idle := by simp [hi]
  have ht : (b.items i).phase ≠ .told := by simp [hi]
  have hst := h.started i hid ht
  refine h.put b.window b.ceiling b.log b.degraded h.directed ⟨fun hle => ?_,
    fun _ => Phase.noConfusion,fun _ _ => hst,fun _ _ => hst,
    fun _ _ => h.settled i hid (by simp [hi])⟩ (fun j _ => h.placed j) (h.heard_more ht rfl)
  exact absurd hle (Nat.not_le.mpr (h.lt_next hid))

theorem fails (hd : b.dispatcher = .failing j) (hj : j < b.n) {r : Option Bytes} {f : Fate} :
    Ordered { b with
      items := Function.update b.items j
        { b.items j with phase := .told, result := r, fate := some f },
      ready := b.ready ++ [j], dispatcher := .failing (j + 1) } := by
  have hat : b.dispatcher.next b.n = j := by simp [hd]
  have hid : b.items j = .initial := h.idle j (Nat.le_of_eq hat)
  refine h.put b.window b.ceiling b.log b.degraded ⟨hj,?_,?_,?_⟩ ⟨?_,fun _ => Phase.noConfusion,
    fun _ ht => absurd rfl ht,?_,fun _ _ => rfl⟩
    (fun k hk => (h.placed k).leave hat rfl hk (by simp)) (h.heard_more ?_ rfl)
  · simp
  · exact fun _ => h.ended (by simp [hd])
  · exact fun k => Dispatcher.noConfusion
  · simp
  · simp
  · simp [hid,BatchItem.initial]

theorem receive {rest : List Nat} (hr : b.ready = i :: rest) :
    Ordered { b with done := Function.update b.done i true, received := b.received + 1,
                     ready := rest, collector := .flushing } := by
  have hm : i ∈ b.ready := by simp [hr]
  obtain ⟨hn,hre⟩ := nodup_cons.mp (hr ▸ h.nodup)
  refine { h with told := ?_, nodup := hre, fresh := ?_, received := ?_, cursor := ?_,
                  stalled := False.elim, writing := nofun, returned := nofun }
  · refine (forall_update_iff b.done
      fun j q => (b.items j).phase = .told ↔ q = true ∨ j ∈ rest).mpr ⟨?_,fun j hji => ?_⟩
    · simp [(h.told i).mpr (.inr hm)]
    · simp [h.told j,hr,hji]
  · intro j hj
    have hji : j ≠ i := fun he => hn (he ▸ hj)
    exact (update_of_ne hji _ _).trans (h.fresh j (by simp [hr,hj]))
  · show b.received + 1 = Slots.held b.n (Function.update b.done i true)
    rw [Slots.held_insert (h.lt_n (h.begun_of_told (.inr hm))) (h.fresh i hm),← h.received]
  · exact (forall_update_iff b.done fun j q => j < b.nextOut → q = true).mpr
      ⟨fun _ => rfl,fun j _ => h.cursor j⟩

theorem written {e : Option ContextEnd} {a : Bool} {w : Bytes} {c : Bool}
    (he : b.ctxErr.isSome = true → e.isSome = true) :
    Ordered { b with ctxErr := e, abandoned := a, wire := w, cut := c } :=
  { h with ended := fun hd => he (h.ended hd) }

theorem pass (hlt : b.nextOut < b.n) (hd : b.done b.nextOut = true)
    (w c : Option Slots) (l : List (Move Token)) (r : Option Bytes) :
    Ordered { b with
      window := w, ceiling := c, log := l,
      items := Function.update b.items b.nextOut { b.items b.nextOut with result := r },
      nextOut := b.nextOut + 1, collector := .flushing } := by
  have hie := h.placed b.nextOut
  have hp := h.put (x := { b.items b.nextOut with result := r }) w c l b.degraded h.directed
    { hie with
      idle := fun hle => absurd hle (Nat.not_le.mpr (h.lt_next (h.begun_of_told (.inl hd)))) }
    (fun j _ => h.placed j) (h.heard_kept Iff.rfl)
  refine { hp with within := hlt, cursor := fun j hj => ?_, stalled := False.elim,
                     writing := nofun, returned := nofun }
  rcases Nat.lt_succ_iff_lt_or_eq.mp hj with hj | rfl
  · exact h.cursor j hj
  · exact hd

theorem collect {x : Collector} (hs : Flushed x → b.nextOut < b.n → b.done b.nextOut = false)
    (hw : x = .releasing →
      b.nextOut < b.n ∧ b.done b.nextOut = true ∧ b.request.streaming = true)
    (hr : ∀ r, x = .returned r → b.received = b.n) :
    Ordered { b with collector := x } :=
  { h with stalled := hs, writing := hw, returned := hr }

end

end Ordered

theorem ordered_step {requestID : Bytes → Bytes} {b b' : Batch} {a : BatchAct} (h : b.Ordered)
    (hst : b.step requestID a = some b') : b'.Ordered := by
  cases step_acts hst with
  | endParent ended hno => exact { h with }
  | propagate ended hno => exact { h with ended := fun _ => rfl }
  | acquire i st hd hno =>
    cases st <;> exact h.redirect _ _ _ (by simp [hd]) (by simp [hd]) (by simp) (by simp)
  | refuse i st hd hen | giveUp i st hd hen =>
    cases st <;> exact h.redirect _ _ _ (by simp [hd]) (by simp [hd]) (fun _ => hen) (by simp)
  | wait i st hd hch =>
    exact h.redirect _ _ _ (by simp [hd]) (by simp [hd]) (by simp) (by simp)
  | take i st w c l hd ht =>
    cases st <;> exact h.redirect w c l (by simp [hd]) (by simp [hd]) (by simp) (by simp)
  | launch i hd => exact h.launch hd
  | undo i st d w c l hd hg hne =>
    have hen : b.ctxErr.isSome = true := h.ended (by simp [hd])
    rcases hne with ⟨-,rfl⟩ | ⟨-,rfl⟩
    · exact h.redirect w c l (by simp [hd]) (by simp) (fun _ => hen) nofun
    · exact h.redirect w c l (by simp [hd]) (by simp [hd]) (fun _ => hen) nofun
  | fail j ended p hd hj hp => exact h.fails hd hj
  | stop j hd hj =>
    have hb := h.bound
    rw [hd] at hb
    have hn : b.n = j := Nat.le_antisymm hj hb
    exact h.redirect _ _ _ (by simp [hd,hn]) (by simp) (by simp) nofun
  | reply i s p hph hp =>
    have hm : (b.items i).phase ≠ .idle ∧ (b.items i).phase ≠ .told := by
      rw [hph]
      decide
    exact h.advance b.window b.ceiling b.log _ hm ⟨Phase.noConfusion,Phase.noConfusion⟩
      (h.started i hm.1 hm.2) rfl
  | giveBudget i w c l hph hg | giveCeiling i w c l hph hg =>
    have hm : (b.items i).phase ≠ .idle ∧ (b.items i).phase ≠ .told := by
      rw [hph]
      decide
    exact h.advance w c l b.degraded hm ⟨Phase.noConfusion,Phase.noConfusion⟩
      (h.started i hm.1 hm.2)
      (h.settled i hm.1 (by rw [hph]; exact Phase.noConfusion))
  | tell i hph => exact h.tells hph
  | openBody ok e a w c hc he =>
    exact (h.written he).collect (fun _ => h.stalled (by rw [hc]; trivial)) nofun nofun
  | receive i rest hc hr hlt => exact h.receive hr
  | write ok e a w c hc hlt hdo hs hw he =>
    exact (h.written he).collect False.elim (fun _ => ⟨hlt,hdo,hs⟩) nofun
  | pass ok hc hlt hdo hs =>
    have hpa := h.pass hlt hdo b.window b.ceiling b.log (b.items b.nextOut).result
    rw [update_eq_self] at hpa
    rwa [← hc] at hpa
  | flushed ok hc hnt =>
    refine h.collect (fun _ hlt => ?_) nofun nofun
    exact Bool.eq_false_iff.mpr fun hdo => hnt ⟨hlt,hdo⟩
  | release w c l hc hf =>
    obtain ⟨hlt,hdo,-⟩ := h.writing hc
    exact h.pass hlt hdo w c l none
  | finish ok e w c r hc hn he =>
    have hle : b.received ≤ b.n := by
      rw [h.received]
      exact Slots.held_le _ _
    exact (h.written he).collect (fun _ => h.stalled (by rw [hc]; trivial)) nofun
      fun _ _ => Nat.le_antisymm hle hn

end Batch

end SageGateway
