import Mathlib.Algebra.Order.Field.Rat
import Mathlib.Algebra.Order.Field.Basic
import SageGateway.Autodrain.Evidence

namespace SageGateway.Autodrain

open List Option GoMap

open TickRing (Ring)

namespace Slot

def count (field : OpCount → Nat) (op : GoString) (s : Slot) : Nat := (s.ops.get op).elim 0 field

variable {field : OpCount → Nat} {op name : GoString} {s : Slot}

theorem count_empty (field : OpCount → Nat) (op : GoString) : count field op .empty = 0 := by
  rw [count,empty,get_empty,elim_none]

theorem count_op {f : OpCount → OpCount} {w : Nat} (hzero : field .zero = 0)
    (hf : ∀ c, field (f c) = field c + w) :
    count field op (s.op name f) = count field op s + if op = name then w else 0 := by
  unfold count Slot.op
  rw [get_put]
  by_cases hop : op = name
  · subst hop
    rw [if_pos rfl,if_pos rfl,elim_some,hf]
    cases s.ops.get op with
    | none => rw [getD_none,hzero,elim_none]
    | some c => rfl
  · rw [if_neg hop,if_neg hop,Nat.add_zero]

-- How often one call counts an operator.
def picksIn : List GoString → List GoString → GoString → Nat
  | _,[],_ => 0
  | seen,op :: ops,name =>
      if seen.contains op then picksIn seen ops name
      else (if name = op then 1 else 0) +
        picksIn (if seen.length < 4 then seen ++ [op] else seen) ops name

theorem count_countPicks {d : Nat} (hzero : field .zero = 0)
    (hf : ∀ c : OpCount, field { c with picks := c.picks + 1 } = field c + d)
    (seen : List GoString) (s : Slot) (ops : List GoString) :
    count field op (countPicks seen s ops) = count field op s + d * picksIn seen ops op := by
  induction ops generalizing seen s with
  | nil => rfl
  | cons o ops ih =>
    rw [countPicks,picksIn]
    split
    · exact ih seen s
    · rw [ih,pick,count_op hzero hf]
      by_cases hop : op = o
      · rw [if_pos hop,if_pos hop,Nat.mul_add,Nat.mul_one,Nat.add_assoc]
      · rw [if_neg hop,if_neg hop,Nat.zero_add,Nat.add_zero]

theorem collapse_countPicks (seen : List GoString) (s : Slot) (ops : List GoString) :
    (countPicks seen s ops).collapse = s.collapse := by
  induction ops generalizing seen s with
  | nil => rfl
  | cons o ops ih =>
    rw [countPicks]
    split
    · exact ih seen s
    · rw [ih]
      rfl

-- Whatever is met after the buffer is full is not met again.
def Remembered : List GoString → List GoString → Prop
  | _,[] => True
  | seen,op :: ops =>
      if seen.contains op then Remembered seen ops
      else if seen.length < 4 then Remembered (seen ++ [op]) ops
      else op ∉ ops ∧ Remembered seen ops

theorem picksIn_remembered {seen ops : List GoString} (h : Remembered seen ops) (name : GoString) :
    picksIn seen ops name = if name ∈ ops ∧ name ∉ seen then 1 else 0 := by
  induction ops generalizing seen with
  | nil => simp [picksIn]
  | cons o ops ih =>
    unfold Remembered at h
    rw [picksIn]
    by_cases hin : seen.contains o = true
    · rw [if_pos hin] at h ⊢
      rw [ih h]
      have hm : o ∈ seen := contains_iff_mem.mp hin
      by_cases hn : name = o
      · simp [hn,hm]
      · simp [hn]
    · rw [if_neg hin] at h ⊢
      have hno : o ∉ seen := fun hm => hin (contains_iff_mem.mpr hm)
      split at h
      · next hr =>
        rw [if_pos hr,ih h]
        by_cases hn : name = o
        · simp [hn,hno]
        · simp [hn]
      · next hf =>
        rw [if_neg hf,ih h.2]
        by_cases hn : name = o
        · simp [hn,hno,h.1]
        · simp [hn]

end Slot

namespace Evidence

variable {field : OpCount → Nat}

section

variable (hzero : field .zero = 0) (hadd : ∀ t c, field (OpCount.add t c) = field t + field c)

include hzero hadd

theorem count_addOps
    (rows : List (GoString × OpCount)) (t : GoMap GoString OpCount) (op : GoString) :
    ((rows.foldl addOp t).get op).elim 0 field =
      (t.get op).elim 0 field +
        (rows.map fun row => if row.1 = op then field row.2 else 0).sum := by
  induction rows generalizing t with
  | nil => rfl
  | cons row rows ih =>
    rw [foldl_cons,ih,map_cons,sum_cons,addOp,get_put]
    by_cases hop : op = row.1
    · rw [if_pos hop,if_pos hop.symm,elim_some,hadd,hop]
      cases t.get row.1 with
      | none => rw [getD_none,hzero,elim_none,Nat.add_assoc]
      | some c => rw [getD_some,elim_some,Nat.add_assoc]
    · rw [if_neg hop,if_neg (Ne.symm hop),Nat.zero_add]

theorem count_addSlot (w : PoolWindow) (s : Slot)
    (op : GoString) : (addSlot w s).count field op = w.count field op + s.count field op := by
  unfold PoolWindow.count addSlot
  rw [count_addOps hzero hadd]
  have ht := (s.ops.iterates_toList).total fun j v => if j = op then field v else 0
  rw [total_single] at ht
  rw [← ht]
  rfl

theorem count_slots (slots : List Slot) (w : PoolWindow) (op : GoString) :
    (slots.foldl addSlot w).count field op =
      w.count field op + (slots.map (Slot.count field op)).sum := by
  induction slots generalizing w with
  | nil => rfl
  | cons s slots ih =>
    rw [foldl_cons,ih,count_addSlot hzero hadd,map_cons,sum_cons,Nat.add_assoc]

end

theorem collapse_slots (slots : List Slot) (w : PoolWindow) :
    (slots.foldl addSlot w).collapse = w.collapse + (slots.map Slot.collapse).sum := by
  induction slots generalizing w with
  | nil => rfl
  | cons s slots ih =>
    rw [foldl_cons,ih,map_cons,sum_cons,addSlot,Nat.add_assoc]

theorem window_collapse (e : Evidence) (k : PoolKey) (now : Nat) :
    (e.window k now).collapse = TickRing.total Slot.collapse (oldest now) (e.slotsOf k) := by
  rw [window,collapse_slots,Nat.zero_add]
  rfl

theorem window_count (hzero : field .zero = 0)
    (hadd : ∀ t c, field (OpCount.add t c) = field t + field c) (e : Evidence) (k : PoolKey)
    (now : Nat) (op : GoString) :
    (e.window k now).count field op =
      TickRing.total (Slot.count field op) (oldest now) (e.slotsOf k) := by
  rw [window,count_slots hzero hadd,PoolWindow.count,get_empty,elim_none,Nat.zero_add]
  rfl

end Evidence

structure Traced where
  evidence : Evidence
  clock : Nat
  -- History: every call with its time, newest first.
  log : List (Nat × Call)

namespace Traced

def new (clock : Nat) : Traced := ⟨.new,clock,[]⟩

def step (P : Platform) (t : Traced) (c : Nat × Call) : Option Traced :=
  if c.1 < t.clock then none else some ⟨t.evidence.call P c.1 c.2,c.1,c :: t.log⟩

-- How many calls of a kind were made from a minute on.
def made (t : Traced) (oldest : Nat) (p : Call → Bool) : Nat :=
  t.log.countP fun c => decide (oldest ≤ minuteOf c.1) && p c.2

end Traced

section Kinds

variable (P : Platform) (k : PoolKey) (op : GoString)

def Call.collapses : Call → Bool
  | .onCollapse k' _ => decide (k' = k)
  | _ => false

def Call.serves : Call → Bool
  | .onCollapse k' served => decide (k' = k ∧ op ∈ served.map (EndpointAddr.operator P))
  | _ => false

def Call.attempts : Call → Bool
  | .onSignal k' ep _ probe =>
      decide (k' = k ∧ probe = false ∧ k.rpc = .webSocket ∧ ep.operator P = op)
  | .onAttempt k' ep attribution _ _ _ =>
      decide (k' = k ∧ attribution ≠ some .client ∧ ep.operator P = op)
  | _ => false

def Call.succeeds : Call → Bool
  | .onSignal _ _ st _ => decide (st = .success)
  | .onAttempt _ _ attribution _ _ _ => !attemptFailed attribution
  | _ => false

def Call.answers (svc : GoString) : Call → Bool
  | .onClientResult svc' _ _ => decide (svc' = svc)
  | _ => false

def Call.fails : Call → Bool
  | .onClientResult _ status origin => decide (origin ≠ .chain) && clientFailed status
  | _ => false

end Kinds

-- A collapse serves someone, its buffer loses no repeat, and a client result is of a service that
-- has a pool.
def Exact (P : Platform) (t : Traced) (c : Nat × Call) : Prop :=
  match c.2 with
  | .onCollapse _ served => served ≠ [] ∧ Slot.Remembered [] (served.map (EndpointAddr.operator P))
  | .onClientResult svc _ _ => svc ≠ [] ∧ t.evidence.clients.has svc = true
  | _ => True

namespace Evidence

variable {P : Platform} {e : Evidence} {now : Nat}

theorem slotsOf_slot (e : Evidence) (k j : PoolKey) (now : Nat) (f : Slot → Slot) :
    (e.slot k now f).slotsOf j =
      if j = k then TickRing.modify .empty (minuteOf now) f (e.slotsOf k) else e.slotsOf j := by
  show ((e.pools.put k _).get j).getD _ = _
  rw [get_put]
  split
  · rfl
  · rfl

theorem clientSlots_slot (e : Evidence) (k : PoolKey) (now : Nat) (f : Slot → Slot)
    (svc : GoString) : (e.slot k now f).clientSlots svc = e.clientSlots svc := by
  unfold clientSlots slot
  split
  · next hne =>
    rw [get_put]
    split
    · next heq =>
      have hn : e.clients.get svc = none := by
        rw [heq]
        exact isNone_iff_eq_none.mp (isSome_eq_false_iff.mp hne.2)
      rw [hn]
      rfl
    · rfl
  · rfl

theorem slotsOf_countClient (e : Evidence) (svc : GoString) (now status : Nat)
    (origin : AnswerOrigin) (k : PoolKey) :
    (e.countClient svc now status origin).slotsOf k = e.slotsOf k := by
  unfold countClient
  split
  · rfl
  · split
    · rfl
    · rfl

theorem clientSlots_countClient {svc : GoString} (hs : svc ≠ [])
    (ho : e.clients.has svc = true) (now status : Nat) (origin : AnswerOrigin)
    (svc' : GoString) :
    (e.countClient svc now status origin).clientSlots svc' =
      if svc' = svc then
        TickRing.modify ⟨0,0⟩ (minuteOf now) (fun s => ⟨s.total + 1,
          if decide (origin ≠ .chain) && clientFailed status then s.failed + 1 else s.failed⟩)
          (e.clientSlots svc)
      else e.clientSlots svc' := by
  obtain ⟨w,hw⟩ := (has_iff _ _).mp ho
  unfold countClient
  rw [if_neg hs,hw]
  show ((e.clients.put svc _).get svc').getD _ = _
  rw [get_put]
  split
  · rw [clientSlots,hw]
    rfl
  · rfl

theorem counting_call (hc : e.counting = true) (now : Nat) (c : Call) :
    (e.call P now c).counting = true := by
  unfold call
  rw [if_neg (by rw [hc]; exact Bool.noConfusion)]
  split
  · unfold countClient
    split
    · exact hc
    · split
      · exact hc
      · exact hc
  · split
    · exact hc
    · exact hc

theorem slotsOf_call (hc : e.counting = true) (now : Nat) (c : Call) (k : PoolKey) :
    (∃ f, c.counts P = some (k,f) ∧
        (e.call P now c).slotsOf k = TickRing.modify .empty (minuteOf now) f (e.slotsOf k)) ∨
      (∀ f, c.counts P ≠ some (k,f)) ∧ (e.call P now c).slotsOf k = e.slotsOf k := by
  unfold call
  rw [if_neg (by rw [hc]; exact Bool.noConfusion)]
  split
  · exact .inr ⟨(fun _ hf => by cases hf),slotsOf_countClient ..⟩
  · split
    · next hn =>
      refine .inr ⟨fun f hf => ?_,rfl⟩
      cases hn.symm.trans hf
    · next k' f hs =>
      rw [hs,slotsOf_slot]
      by_cases hk : k = k'
      · subst hk
        exact .inl ⟨f,rfl,if_pos rfl⟩
      · refine .inr ⟨fun g hg => ?_,if_neg hk⟩
        cases hg
        exact hk rfl

end Evidence

namespace Traced

variable {P : Platform} {t t' : Traced} {c : Nat × Call} {k : PoolKey}

theorem step_some (h : t.step P c = some t') :
    t.clock ≤ c.1 ∧ t' = ⟨t.evidence.call P c.1 c.2,c.1,c :: t.log⟩ := by
  obtain ⟨hlt,rfl⟩ := Run.guard_neg h
  exact ⟨Nat.not_lt.mp hlt,rfl⟩

theorem minuteOf_le {a b : Nat} (h : a ≤ b) : minuteOf a ≤ minuteOf b :=
  Nat.div_le_div_right (Nat.div_le_div_right h)

-- An observation of one pool's slots that each call moves by what it weighs.
structure Weighs (P : Platform) (k : PoolKey) (obs : Slot → Nat) (p : Call → Bool) (c : Call) :
    Prop where
  counted : ∀ f, c.counts P = some (k,f) → ∀ s, obs (f s) = obs s + (p c).toNat
  ignored : (∀ f, c.counts P ≠ some (k,f)) → p c = false

def Counts (t : Traced) (k : PoolKey) (obs : Slot → Nat) (p : Call → Bool) : Prop :=
  TickRing.Counted obs (t.evidence.slotsOf k) (minuteOf t.clock)
    (t.log.map fun c => (minuteOf c.1,(p c.2).toNat))

theorem Counts.step {obs : Slot → Nat} {p : Call → Bool} (h : t.Counts k obs p)
    (hc : t.evidence.counting = true) (he : obs .empty = 0) (hw : Weighs P k obs p c.2)
    (hs : t.step P c = some t') : t'.Counts k obs p := by
  obtain ⟨hcl,rfl⟩ := step_some hs
  have hle := minuteOf_le hcl
  unfold Counts
  obtain ⟨f,hf,hr⟩ | ⟨hn,hr⟩ := Evidence.slotsOf_call (P := P) hc c.1 c.2 k
  · rw [hr]
    exact h.modify hle he (hw.counted f hf)
  · rw [hr,map_cons,hw.ignored hn]
    exact h.idle hle

theorem Counts.total {obs : Slot → Nat} {p : Call → Bool} (h : t.Counts k obs p) {now : Nat}
    (hn : t.clock ≤ now) :
    TickRing.total obs (Evidence.oldest now) (t.evidence.slotsOf k) =
      t.made (Evidence.oldest now) p :=
  (h.counts (minuteOf now) (minuteOf_le hn)).trans
    (TickRing.since_countP _ (fun c => minuteOf c.1) (fun c => p c.2) t.log)

end Traced

theorem OpCount.attempt_counts (c : OpCount) (attribution : Option ErrorAttribution)
    (kind : AttemptKind) (method : GoString) (retried : Bool) :
    (c.attempt attribution kind method retried).picks = c.picks ∧
      (c.attempt attribution kind method retried).attempts = c.attempts + 1 ∧
      (c.attempt attribution kind method retried).successes =
        c.successes + (!attemptFailed attribution).toNat := by
  unfold OpCount.attempt
  cases attemptFailed attribution with
  | true | false =>
    split
    · exact ⟨rfl,rfl,rfl⟩
    · exact ⟨rfl,rfl,rfl⟩

-- What the three kinds of calls add to one field of an operator's counts.
structure FieldMoves (field : OpCount → Nat) (picked : Nat)
    (signalled : Reputation.SignalType → Nat) (attempted : Option ErrorAttribution → Nat) :
    Prop where
  zero : field .zero = 0
  pick : ∀ c : OpCount, field { c with picks := c.picks + 1 } = field c + picked
  signal : ∀ c st, field (OpCount.signal c st) = field c + signalled st
  attempt : ∀ c a kind method retried,
    field (OpCount.attempt c a kind method retried) = field c + attempted a

theorem picks_moves : FieldMoves OpCount.picks 1 (fun _ => 0) (fun _ => 0) where
  zero := rfl
  pick _ := rfl
  signal _ _ := rfl
  attempt c a kind method retried := (c.attempt_counts a kind method retried).1

theorem attempts_moves : FieldMoves OpCount.attempts 0 (fun _ => 1) (fun _ => 1) where
  zero := rfl
  pick _ := rfl
  signal _ _ := rfl
  attempt c a kind method retried := (c.attempt_counts a kind method retried).2.1

theorem successes_moves :
    FieldMoves OpCount.successes 0 (fun st => (decide (st = .success)).toNat)
      (fun a => (!attemptFailed a).toNat) where
  zero := rfl
  pick _ := rfl
  signal c st := by
    unfold OpCount.signal
    by_cases hst : st = .success
    · simp [hst]
    · simp [hst]
  attempt c a kind method retried := (c.attempt_counts a kind method retried).2.2

namespace Traced

variable {P : Platform} {t t' : Traced} {c : Nat × Call} {k : PoolKey} {op : GoString}

def weight (P : Platform) (k : PoolKey) (op : GoString) (picked : Nat)
    (signalled : Reputation.SignalType → Nat) (attempted : Option ErrorAttribution → Nat) :
    Call → Nat
  | .onCollapse k' served =>
      if k' = k ∧ op ∈ served.map (EndpointAddr.operator P) then picked else 0
  | .onSignal k' ep st probe =>
      if k' = k ∧ probe = false ∧ k.rpc = .webSocket ∧ ep.operator P = op then signalled st else 0
  | .onAttempt k' ep a _ _ _ =>
      if k' = k ∧ a ≠ some .client ∧ ep.operator P = op then attempted a else 0
  | .onClientResult _ _ _ => 0

variable {p : Call → Bool} {clock now picked : Nat} {field : OpCount → Nat}
  {attempted : Option ErrorAttribution → Nat} {signalled : Reputation.SignalType → Nat}

theorem count_call (hm : FieldMoves field picked signalled attempted)
    (hok : Exact P t c) {f : Slot → Slot} (hf : c.2.counts P = some (k,f)) (s : Slot) :
    Slot.count field op (f s) =
      Slot.count field op s + weight P k op picked signalled attempted c.2 := by
  obtain ⟨time,call⟩ := c
  cases call with
  | onCollapse k' served =>
    obtain ⟨-,hr⟩ := hok
    obtain ⟨-,⟨⟩⟩ := Run.guard_neg hf
    rw [Slot.count_countPicks hm.zero hm.pick,Slot.picksIn_remembered hr,weight]
    by_cases hin : op ∈ served.map (EndpointAddr.operator P)
    · simp [hin,Slot.count]
    · simp [hin,Slot.count]
  | onSignal k' ep st probe =>
    obtain ⟨hco,⟨⟩⟩ := Run.guard_neg hf
    obtain ⟨hp,hrp⟩ := not_or.mp hco
    rw [Slot.count_op hm.zero fun c => hm.signal c st,weight]
    by_cases hop : op = ep.operator P
    · simp [hop,Bool.eq_false_iff.mpr hp,not_not.mp hrp]
    · simp [hop,Ne.symm hop]
  | onAttempt k' ep a kind method retried =>
    obtain ⟨hc,⟨⟩⟩ := Run.guard_neg hf
    rw [Slot.count_op hm.zero fun c => hm.attempt c a kind method retried,weight]
    by_cases hop : op = ep.operator P
    · simp [hop,hc]
    · simp [hop,Ne.symm hop]
  | onClientResult svc status origin => cases hf

theorem weight_ignored (hok : Exact P t c)
    (h : ∀ f, c.2.counts P ≠ some (k,f)) : weight P k op picked signalled attempted c.2 = 0 := by
  obtain ⟨time,call⟩ := c
  cases call with
  | onCollapse k' served =>
    refine if_neg fun hin => ?_
    obtain ⟨rfl,-⟩ := hin
    exact h _ (if_neg fun hl => hok.1 (length_eq_zero_iff.mp hl))
  | onSignal k' ep st probe =>
    refine if_neg fun hin => ?_
    obtain ⟨rfl,hp,hr,-⟩ := hin
    exact h _ (if_neg (by simp [hp,hr]))
  | onAttempt k' ep a kind method retried =>
    refine if_neg fun hin => ?_
    obtain ⟨rfl,hc,-⟩ := hin
    exact h _ (if_neg hc)
  | onClientResult svc status origin => rfl

theorem weighs_of_moves (hm : FieldMoves field picked signalled attempted)
    (hp : ∀ call, (p call).toNat = weight P k op picked signalled attempted call)
    (hok : Exact P t c) : Weighs P k (Slot.count field op) p c.2 where
  counted _ hf s := (count_call hm hok hf s).trans (congrArg _ (hp c.2).symm)
  ignored h := Bool.toNat_eq_zero.mp ((hp c.2).trans (weight_ignored hok h))

theorem toNat_decide_and (q : Prop) [Decidable q] (b : Bool) :
    (decide q && b).toNat = if q then b.toNat else 0 := by
  by_cases hq : q
  · rw [decide_eq_true hq,Bool.true_and,if_pos hq]
  · rw [decide_eq_false hq,if_neg hq]
    rfl

theorem toNat_decide (q : Prop) [Decidable q] : (decide q).toNat = if q then 1 else 0 := by
  have h := toNat_decide_and q true
  rwa [Bool.and_true] at h

theorem serves_weight (call : Call) :
    (call.serves P k op).toNat = weight P k op 1 (fun _ => 0) (fun _ => 0) call := by
  cases call with
  | onCollapse k' served => exact toNat_decide _
  | onSignal k' ep st probe | onAttempt k' ep a kind method retried => exact (ite_self 0).symm
  | onClientResult svc status origin => rfl

theorem attempts_weight (call : Call) :
    (call.attempts P k op).toNat = weight P k op 0 (fun _ => 1) (fun _ => 1) call := by
  cases call with
  | onCollapse k' served => exact (ite_self 0).symm
  | onSignal k' ep st probe | onAttempt k' ep a kind method retried => exact toNat_decide _
  | onClientResult svc status origin => rfl

theorem succeeds_weight (call : Call) :
    (call.attempts P k op && call.succeeds).toNat =
      weight P k op 0 (fun st => (decide (st = .success)).toNat) (fun a => (!attemptFailed a).toNat)
        call := by
  cases call with
  | onCollapse k' served => exact (ite_self 0).symm
  | onSignal k' ep st probe | onAttempt k' ep a kind method retried => exact toNat_decide_and _ _
  | onClientResult svc status origin => rfl

theorem weighs_collapse (hok : Exact P t c) : Weighs P k Slot.collapse (Call.collapses k) c.2 := by
  obtain ⟨time,call⟩ := c
  cases call with
  | onCollapse k' served =>
    refine ⟨fun f hf s => ?_,fun h => ?_⟩
    · obtain ⟨-,⟨⟩⟩ := Run.guard_neg hf
      rw [Slot.collapse_countPicks,Call.collapses,decide_eq_true rfl]
      rfl
    · refine decide_eq_false fun hk => ?_
      subst hk
      exact h _ (if_neg fun hl => hok.1 (length_eq_zero_iff.mp hl))
  | onSignal k' ep st probe | onAttempt k' ep a kind method retried =>
    refine ⟨fun f hf s => ?_,fun _ => rfl⟩
    obtain ⟨-,⟨⟩⟩ := Run.guard_neg hf
    rfl
  | onClientResult svc status origin => exact ⟨(fun _ hf => by cases hf),fun _ => rfl⟩

-- What a client slot counts of one service's results.
structure ClientWeighs (obs : ClientSlot → Nat) (p : Call → Bool) : Prop where
  zero : obs ⟨0,0⟩ = 0
  result : ∀ s svc status origin, obs ⟨s.total + 1,
    if decide (origin ≠ .chain) && clientFailed status then s.failed + 1 else s.failed⟩ =
      obs s + (p (.onClientResult svc status origin)).toNat

def ClientCounts (t : Traced) (svc : GoString) (obs : ClientSlot → Nat) (p : Call → Bool) : Prop :=
  TickRing.Counted obs (t.evidence.clientSlots svc) (minuteOf t.clock)
    (t.log.map fun c => (minuteOf c.1,(c.2.answers svc && p c.2).toNat))

theorem clientSlots_other {e : Evidence} (hc : e.counting = true) (now : Nat) (call : Call)
    (hno : ∀ svc status origin, call ≠ .onClientResult svc status origin) (svc : GoString) :
    (e.call P now call).clientSlots svc = e.clientSlots svc := by
  unfold Evidence.call
  rw [if_neg (by rw [hc]; exact Bool.noConfusion)]
  split
  · next svc' status origin => exact absurd rfl (hno svc' status origin)
  · split
    · rfl
    · exact Evidence.clientSlots_slot ..

theorem ClientCounts.step {svc : GoString} {obs : ClientSlot → Nat}
    (h : t.ClientCounts svc obs p) (hw : ClientWeighs obs p) (hc : t.evidence.counting = true)
    (hok : Exact P t c) (hst : t.step P c = some t') : t'.ClientCounts svc obs p := by
  obtain ⟨hcl,rfl⟩ := step_some hst
  have hle := minuteOf_le hcl
  unfold ClientCounts
  obtain ⟨time,call⟩ := c
  have ho : (∀ svc status origin, call ≠ .onClientResult svc status origin) →
      call.answers svc = false → TickRing.Counted obs
        ((t.evidence.call P time call).clientSlots svc) (minuteOf time)
        (((time,call) :: t.log).map fun c => (minuteOf c.1,(c.2.answers svc && p c.2).toNat)) := by
    intro hno ha
    rw [clientSlots_other hc time call hno,map_cons,ha]
    exact h.idle hle
  cases call with
  | onCollapse k' served | onSignal k' ep st probe | onAttempt k' ep a kind method retried =>
    exact ho (fun _ _ _ => Call.noConfusion) rfl
  | onClientResult svc' status origin =>
    have hca : t.evidence.call P time (.onClientResult svc' status origin) =
        t.evidence.countClient svc' time status origin := by
      unfold Evidence.call
      rw [if_neg (by rw [hc]; exact Bool.noConfusion)]
    rw [hca,Evidence.clientSlots_countClient hok.1 hok.2,map_cons]
    by_cases hs : svc = svc'
    · subst hs
      rw [if_pos rfl,Call.answers,decide_eq_true rfl]
      exact h.modify hle hw.zero fun s => hw.result s svc status origin
    · rw [if_neg hs,Call.answers,decide_eq_false (Ne.symm hs)]
      exact h.idle hle

theorem total_weighs : ClientWeighs ClientSlot.total fun _ => true where
  zero := rfl
  result _ _ _ _ := rfl

theorem failed_weighs : ClientWeighs ClientSlot.failed Call.fails where
  zero := rfl
  result s svc status origin := by
    rw [Call.fails]
    cases decide (origin ≠ .chain) && clientFailed status with
    | true | false => rfl

theorem counting_of_reaches
    (h : Run.Reaches (Traced.step P) (Exact P) (new clock) t) : t.evidence.counting = true := by
  refine h.invariant (fun t => t.evidence.counting = true) rfl fun s c s' hc _ hs => ?_
  obtain ⟨-,rfl⟩ := step_some hs
  exact Evidence.counting_call hc c.1 c.2

theorem counts_of_reaches {obs : Slot → Nat}
    (he : obs .empty = 0) (hw : ∀ t c, Exact P t c → Weighs P k obs p c.2)
    (h : Run.Reaches (Traced.step P) (Exact P) (new clock) t) : t.Counts k obs p := by
  induction h with
  | start => exact TickRing.Counted.new he _
  | next hr hok hs ih => exact ih.step (counting_of_reaches hr) he (hw _ _ hok) hs

theorem count_of_reaches (hm : FieldMoves field picked signalled attempted)
    (hp : ∀ call, (p call).toNat = weight P k op picked signalled attempted call)
    (hadd : ∀ t c, field (OpCount.add t c) = field t + field c)
    (h : Run.Reaches (Traced.step P) (Exact P) (new clock) t) (hn : t.clock ≤ now) :
    (t.evidence.window k now).count field op = t.made (Evidence.oldest now) p := by
  rw [Evidence.window_count hm.zero hadd]
  exact (counts_of_reaches (Slot.count_empty field op)
    (fun _ _ hok => weighs_of_moves hm hp hok) h).total hn

theorem collapse_of_reaches
    (h : Run.Reaches (Traced.step P) (Exact P) (new clock) t) (hn : t.clock ≤ now) :
    (t.evidence.window k now).collapse = t.made (Evidence.oldest now) (Call.collapses k) := by
  rw [Evidence.window_collapse]
  exact (counts_of_reaches rfl (fun _ _ => weighs_collapse) h).total hn

theorem client_of_reaches {obs : ClientSlot → Nat}
    (hw : ClientWeighs obs p) (h : Run.Reaches (Traced.step P) (Exact P) (new clock) t)
    (hn : t.clock ≤ now) (svc : GoString) :
    TickRing.total obs (Evidence.oldest now) (t.evidence.clientSlots svc) =
      t.made (Evidence.oldest now) fun c => c.answers svc && p c := by
  have hc : t.ClientCounts svc obs p := by
    clear hn
    induction h with
    | start => exact TickRing.Counted.new hw.zero _
    | next hr hok hs ih => exact ih.step hw (counting_of_reaches hr) hok hs
  exact (hc.counts (minuteOf now) (minuteOf_le hn)).trans
    (TickRing.since_countP _ (fun c => minuteOf c.1) (fun c => c.2.answers svc && p c.2) t.log)

-- A share of no requests is a quotient by zero, which is zero as the code's is.
theorem clientShare_of_reaches
    (h : Run.Reaches (Traced.step P) (Exact P) (new clock) t) (hn : t.clock ≤ now)
    (svc : GoString) :
    t.evidence.clientShare svc now =
      (((t.made (Evidence.oldest now) fun c => c.answers svc && c.fails : Nat) : ℚ) /
        t.made (Evidence.oldest now) (Call.answers svc),
        t.made (Evidence.oldest now) (Call.answers svc)) := by
  have ht := client_of_reaches total_weighs h hn svc
  have hf := client_of_reaches failed_weighs h hn svc
  simp at ht
  rw [TickRing.total] at ht hf
  unfold Evidence.clientShare
  dsimp only
  rw [ht,hf]
  split
  · next hzero => rw [hzero,Nat.cast_zero,div_zero]
  · rfl

theorem serves_le_collapses (t : Traced) (P : Platform) (k : PoolKey) (op : GoString)
    (oldest : Nat) : t.made oldest (Call.serves P k op) ≤ t.made oldest (Call.collapses k) := by
  refine countP_mono_left fun c _ hc => ?_
  rw [Bool.and_eq_true] at hc ⊢
  refine ⟨hc.1,?_⟩
  obtain ⟨time,call⟩ := c
  cases call with
  | onCollapse k' served => exact decide_eq_true (of_decide_eq_true hc.2).1
  | onSignal k' ep st probe | onAttempt k' ep a kind method retried
  | onClientResult svc status origin => exact Bool.noConfusion hc.2

theorem share_bounds {w : Evidence.PoolWindow} (h : w.count OpCount.picks op ≤ w.collapse) :
    0 ≤ w.share op ∧ w.share op ≤ 1 := by
  unfold Evidence.PoolWindow.share
  split
  · next hp =>
    have hc : (0 : ℚ) < w.collapse := Nat.cast_pos.mpr hp
    exact ⟨div_nonneg (Nat.cast_nonneg _) hc.le,
      (div_le_one hc).mpr (Nat.cast_le.mpr h)⟩
  · exact ⟨le_rfl,zero_le_one⟩

theorem evidence_counts_the_calls {clock now : Nat}
    (h : Run.Reaches (Traced.step P) (Exact P) (new clock) t) (hnow : t.clock ≤ now) :
    (∀ k, (t.evidence.window k now).collapse = t.made (Evidence.oldest now) (Call.collapses k)) ∧
      (∀ k op, (t.evidence.window k now).count OpCount.picks op =
        t.made (Evidence.oldest now) (Call.serves P k op)) ∧
      (∀ k op, 0 ≤ (t.evidence.window k now).share op ∧ (t.evidence.window k now).share op ≤ 1) ∧
      (∀ k op, (t.evidence.window k now).count OpCount.attempts op =
        t.made (Evidence.oldest now) (Call.attempts P k op)) ∧
      (∀ k op, (t.evidence.window k now).count OpCount.successes op =
        t.made (Evidence.oldest now) fun c => c.attempts P k op && c.succeeds) ∧
      ∀ svc, t.evidence.clientShare svc now =
        (((t.made (Evidence.oldest now) fun c => c.answers svc && c.fails : Nat) : ℚ) /
          t.made (Evidence.oldest now) (Call.answers svc),
          t.made (Evidence.oldest now) (Call.answers svc)) := by
  have hc : ∀ k, (t.evidence.window k now).collapse =
      t.made (Evidence.oldest now) (Call.collapses k) := fun k => collapse_of_reaches h hnow
  have hp : ∀ k op, (t.evidence.window k now).count OpCount.picks op =
      t.made (Evidence.oldest now) (Call.serves P k op) :=
    fun k op => count_of_reaches picks_moves serves_weight (fun _ _ => rfl) h hnow
  refine ⟨hc,hp,fun k op => share_bounds ?_,fun k op => ?_,fun k op => ?_,
    clientShare_of_reaches h hnow⟩
  · rw [hc,hp]
    exact serves_le_collapses t P k op _
  · exact count_of_reaches attempts_moves attempts_weight (fun _ _ => rfl) h hnow
  · exact count_of_reaches successes_moves succeeds_weight (fun _ _ => rfl) h hnow

def jsonRpcPool : PoolKey := ⟨"eth".toList,.jsonRPC⟩

def endpointAt (host : String) : EndpointAddr := ("supplier-https://rpc." ++ host).toList

-- Four operators fill the buffer, so the fifth's second endpoint is counted again.
def sixServed : List EndpointAddr :=
  ["a.net","b.net","c.net","d.net","e.net","e.net"].map endpointAt

theorem fifth_operator_picked_twice :
    ∃ t, Run.Reaches (Traced.step asciiPlatform) (fun _ _ => True) (new 0) t ∧
      (t.evidence.window jsonRpcPool t.clock).collapse = 1 ∧
      t.made (Evidence.oldest t.clock) (Call.serves asciiPlatform jsonRpcPool "e.net".toList) = 1 ∧
      (t.evidence.window jsonRpcPool t.clock).count OpCount.picks "e.net".toList = 2 ∧
      (t.evidence.window jsonRpcPool t.clock).share "e.net".toList = 2 := by
  refine ⟨_,.next (a := (0,.onCollapse jsonRpcPool sixServed)) .start trivial rfl,?_,?_,?_,?_⟩
  · decide +kernel
  · decide +kernel
  · decide +kernel
  · decide +kernel

instance decidableRemembered : ∀ seen ops : List GoString, Decidable (Slot.Remembered seen ops)
  | _,[] => .isTrue trivial
  | seen,op :: ops =>
    have := decidableRemembered seen ops
    have := decidableRemembered (seen ++ [op]) ops
    inferInstanceAs (Decidable (if seen.contains op then Slot.Remembered seen ops
      else if seen.length < 4 then Slot.Remembered (seen ++ [op]) ops
      else op ∉ ops ∧ Slot.Remembered seen ops))

instance (P : Platform) (t : Traced) : (c : Nat × Call) → Decidable (Exact P t c)
  | (_,.onCollapse _ _) => inferInstanceAs (Decidable (_ ∧ _))
  | (_,.onSignal _ _ _ _) => .isTrue trivial
  | (_,.onAttempt _ _ _ _ _ _) => .isTrue trivial
  | (_,.onClientResult _ _ _) => inferInstanceAs (Decidable (_ ∧ _))

-- Ten minutes after the first collapse its slot is read no more, and a minute later it is reused.
def twoWindows : List (Nat × Call) :=
  [(0,.onCollapse jsonRpcPool (["a.net","a.net","b.net"].map endpointAt)),
    (540000000000,.onAttempt jsonRpcPool (endpointAt "a.net") (some .supplier) .first
      "eth_call".toList false),
    (540000000000,.onClientResult "eth".toList 502 .gateway),
    (600000000000,.onCollapse jsonRpcPool [endpointAt "b.net"]),
    (600000000000,.onClientResult "eth".toList 200 .chain)]

theorem second_window_counted :
    ∃ t, Run.Reaches (Traced.step asciiPlatform) (Exact asciiPlatform) (new 0) t ∧
      t.log.length = 5 ∧ (t.evidence.window jsonRpcPool 600000000000).collapse =
        t.made (Evidence.oldest 600000000000) (Call.collapses jsonRpcPool) ∧
      t.made (Evidence.oldest 600000000000) (Call.collapses jsonRpcPool) = 1 ∧
      t.evidence.clientShare "eth".toList 600000000000 = (1 / 2,2) := by
  obtain ⟨t,hr,hcl,hl,hm,ha,hf⟩ :
      ∃ t, Run.Reaches (Traced.step asciiPlatform) (Exact asciiPlatform) (new 0) t ∧
        t.clock = 600000000000 ∧ t.log.length = 5 ∧
        t.made (Evidence.oldest 600000000000) (Call.collapses jsonRpcPool) = 1 ∧
        t.made (Evidence.oldest 600000000000) (Call.answers "eth".toList) = 2 ∧
        (t.made (Evidence.oldest 600000000000) fun c => c.answers "eth".toList && c.fails) = 1 :=
    Run.reaches twoWindows (by decide +kernel)
  have hc := evidence_counts_the_calls hr hcl.le
  refine ⟨t,hr,hl,hc.1 jsonRpcPool,hm,?_⟩
  rw [hc.2.2.2.2.2 "eth".toList,ha,hf]
  rfl

end Traced

end SageGateway.Autodrain
