import SageGateway.Reputation

namespace SageGateway.ScoreSink

open List GoMap
open Reputation (SignalType Signal)

abbrev SinkKey := EndpointAddr × RPCType

def severityRank : SignalType → Nat
  | .fatalError => 4
  | .criticalError => 3
  | .majorError => 2
  | .minorError => 1
  | .success => 0

def merge (cur sig : Signal) : Signal :=
  if severityRank cur.type < severityRank sig.type then
    { sig with latency := max sig.latency cur.latency }
  else if cur.latency < sig.latency then { cur with latency := sig.latency }
  else cur

-- A call of Add or Flush past its critical section: what it has passed to the flush function, and
-- what it has still to pass on, outside the lock, before it returns.
structure Caller where
  made : List (SinkKey × Signal)
  left : List (SinkKey × Signal)

structure Sink where
  worst : GoMap SinkKey Signal
  closed : Bool
  callers : List Caller
  passed : List (SinkKey × Signal)

def newScoreSink : Sink := ⟨∅,false,[],[]⟩

inductive Event where
  | add (k : SinkKey) (sig : Signal)
  | flush
  | call (i : Nat)
  deriving DecidableEq

def Sink.add (s : Sink) (k : SinkKey) (sig : Signal) : Sink :=
  if s.closed then { s with callers := s.callers ++ [⟨[],[(k,sig)]⟩] }
  else
    match s.worst.get k with
    | none => { s with worst := s.worst.put k sig }
    | some cur => { s with worst := s.worst.put k (merge cur sig) }

variable (range : GoMap SinkKey Signal → List (SinkKey × Signal))

def Sink.flush (s : Sink) : Sink :=
  { s with worst := ∅,closed := true,callers := s.callers ++ [⟨[],range s.worst⟩] }

def Sink.call (s : Sink) (i : Nat) : Option Sink :=
  match s.callers[i]? with
  | some ⟨made,c :: left⟩ =>
      some { s with callers := s.callers.set i ⟨made ++ [c],left⟩,passed := s.passed ++ [c] }
  | _ => none

def Sink.step (s : Sink) : Event → Option Sink
  | .add k sig => some (s.add k sig)
  | .flush => some (s.flush range)
  | .call i => s.call i

def Event.adds : Event → List (SinkKey × Signal)
  | .add k sig => [(k,sig)]
  | .flush | .call _ => []

def addsOf (k : SinkKey) (es : List Event) : List Signal :=
  ((es.flatMap Event.adds).filter (·.1 = k)).map Prod.snd

def Collapsed (l : List Signal) (r : Signal) : Prop :=
  ∃ pre first post, l = pre ++ first :: post ∧
    (∀ x ∈ pre, severityRank x.type < severityRank first.type) ∧
    (∀ x ∈ post, severityRank x.type ≤ severityRank first.type) ∧
    r = { first with latency := r.latency } ∧
    (∀ x ∈ l, x.latency ≤ r.latency) ∧ ∃ x ∈ l, x.latency = r.latency

theorem Collapsed.single (sig : Signal) : Collapsed [sig] sig :=
  ⟨[],sig,[],rfl,nofun,nofun,rfl,by simp,by simp⟩

theorem merge_latency (cur sig : Signal) :
    (merge cur sig).latency = max cur.latency sig.latency := by
  unfold merge
  split_ifs with hr hl
  · exact max_comm _ _
  · exact (max_eq_right hl.le).symm
  · exact (max_eq_left (not_lt.mp hl)).symm

theorem Collapsed.merge {l : List Signal} {cur : Signal} (h : Collapsed l cur) (sig : Signal) :
    Collapsed (l ++ [sig]) (merge cur sig) := by
  obtain ⟨pre,first,post,hl,hpre,hpost,hcur,hmax,x,hx,hxl⟩ := h
  have ht : cur.type = first.type := by rw [hcur]
  have hsig : sig ∈ l ++ [sig] := by simp
  have hlat : (∀ y ∈ l ++ [sig], y.latency ≤ (ScoreSink.merge cur sig).latency) ∧
      ∃ y ∈ l ++ [sig], y.latency = (ScoreSink.merge cur sig).latency := by
    rw [merge_latency]
    refine ⟨forall_mem_append.mpr ⟨fun y hy => (hmax y hy).trans (le_max_left _ _),by simp⟩,?_⟩
    rcases max_choice cur.latency sig.latency with h | h <;> rw [h]
    · exact ⟨x,mem_append_left _ hx,hxl⟩
    · exact ⟨sig,hsig,rfl⟩
  rcases lt_or_ge (severityRank first.type) (severityRank sig.type) with hr | hr
  · refine ⟨l,sig,[],rfl,fun y hy => ?_,nofun,by simp [ScoreSink.merge,ht,hr],hlat⟩
    rw [hl,mem_append,mem_cons] at hy
    rcases hy with hy | rfl | hy
    · exact (hpre y hy).trans hr
    · exact hr
    · exact (hpost y hy).trans_lt hr
  · refine ⟨pre,first,post ++ [sig],by simp [hl],hpre,
      forall_mem_append.mpr ⟨hpost,by simpa using hr⟩,?_,hlat⟩
    rw [ScoreSink.merge,ht,if_neg hr.not_gt]
    split_ifs
    · rw [hcur]
    · exact hcur

structure Open (s : Sink) (es : List Event) : Prop where
  isOpen : s.closed = false
  callers : s.callers = []
  passed : s.passed = []
  worst : ∀ k, match s.worst.get k with
    | none => addsOf k es = []
    | some r => Collapsed (addsOf k es) r

theorem addsOf_append (k : SinkKey) (es : List Event) (e : Event) :
    addsOf k (es ++ [e]) = addsOf k es ++ (e.adds.filter (·.1 = k)).map Prod.snd := by
  simp [addsOf]

variable {range} {s s' : Sink} {es : List Event} {e : Event}

theorem Open.step (h : Open s es) (he : e ≠ .flush) (hs : s.step range e = some s') :
    Open s' (es ++ [e]) := by
  cases e with
  | flush => exact absurd rfl he
  | call i => simp [Sink.step,Sink.call,h.callers] at hs
  | add k sig =>
    have hw : ∃ r, s' = { s with worst := s.worst.put k r } ∧
        Collapsed (addsOf k es ++ [sig]) r := by
      have hk := h.worst k
      rw [Sink.step,Sink.add,if_neg (by simp [h.isOpen])] at hs
      cases hg : s.worst.get k with
      | none =>
        rw [hg] at hk hs
        exact ⟨sig,(Option.some.inj hs).symm,by rw [hk]; exact .single sig⟩
      | some cur =>
        rw [hg] at hk hs
        exact ⟨_,(Option.some.inj hs).symm,hk.merge sig⟩
    obtain ⟨r,rfl,hr⟩ := hw
    refine { h with worst := fun j => ?_ }
    rw [addsOf_append]
    rcases eq_or_ne j k with rfl | hj
    · simpa [Event.adds] using hr
    · simpa [Event.adds,get_put_ne _ _ hj,hj.symm] using h.worst j

theorem open_run (he : .flush ∉ es) (hs : es.foldlM (Sink.step range) newScoreSink = some s) :
    Open s es := by
  induction es using reverseRecOn generalizing s with
  | nil =>
    cases hs
    exact ⟨rfl,rfl,rfl,fun k => by simp [newScoreSink,addsOf]⟩
  | append_singleton es e ih =>
    simp at he
    rw [foldlM_append] at hs
    obtain ⟨t,ht,hs⟩ := Option.bind_eq_some_iff.mp hs
    exact (ih he.1 ht).step (fun h => he.2 h.symm) (by simpa using hs)

structure Closed (s : Sink) (begun : List (List (SinkKey × Signal))) : Prop where
  isClosed : s.closed = true
  callers : s.callers.map (fun c => c.made ++ c.left) = begun
  passed : s.passed.Perm (s.callers.flatMap Caller.made)

theorem Closed.step {begun : List (List (SinkKey × Signal))} (h : Closed s begun)
    (he : e ≠ .flush) (hs : s.step range e = some s') :
    Closed s' (begun ++ e.adds.map ([·])) := by
  cases e with
  | flush => exact absurd rfl he
  | add k sig =>
    rw [Sink.step,Sink.add,if_pos h.isClosed] at hs
    cases hs
    exact ⟨h.isClosed,by simp [h.callers,Event.adds],by simpa using h.passed⟩
  | call i =>
    simp only [Sink.step,Sink.call] at hs
    split at hs
    · next made c left hi =>
      cases hs
      obtain ⟨hl,hc⟩ := List.getElem?_eq_some_iff.mp hi
      have hm := h.callers
      have hp := h.passed
      rw [← take_append_drop i s.callers,drop_eq_getElem_cons hl,hc] at hm hp
      refine ⟨h.isClosed,?_,?_⟩ <;> dsimp only <;> rw [set_eq_take_append_cons_drop,if_pos hl]
      · simpa [Event.adds] using hm
      · refine (hp.append_right [c]).trans ?_
        simp
        exact (perm_append_singleton c _).append_left made |>.append_left _ |>.trans (by simp)
    · cases hs

theorem closed_run {begun : List (List (SinkKey × Signal))} (h : Closed s begun)
    (he : .flush ∉ es) (hs : es.foldlM (Sink.step range) s = some s') :
    Closed s' (begun ++ (es.flatMap Event.adds).map ([·])) := by
  induction es generalizing s begun with
  | nil =>
    cases hs
    simpa using h
  | cons e es ih =>
    simp at he
    rw [foldlM_cons] at hs
    obtain ⟨t,ht,hs⟩ := Option.bind_eq_some_iff.mp hs
    have hr := ih (h.step (fun h => he.1 h.symm) ht) he.2 hs
    simpa using hr

theorem one_signal_per_endpoint (hrange : ∀ m, Iterates m (range m)) (pre post : List Event)
    (hpre : .flush ∉ pre) (hpost : .flush ∉ post)
    (h : (pre ++ .flush :: post).foldlM (Sink.step range) newScoreSink = some s) :
    ∃ flushed, (flushed.map Prod.fst).Nodup ∧
      (∀ k, k ∈ flushed.map Prod.fst ↔ addsOf k pre ≠ []) ∧
      (∀ k r, (k,r) ∈ flushed → Collapsed (addsOf k pre) r) ∧
      s.callers.map (fun c => c.made ++ c.left) =
        flushed :: (post.flatMap Event.adds).map ([·]) ∧
      s.passed.Perm (s.callers.flatMap Caller.made) ∧
      ((∀ c ∈ s.callers, c.left = []) → s.passed.Perm (flushed ++ post.flatMap Event.adds)) ∧
      ∀ i made c left, s.callers[i]? = some ⟨made,c :: left⟩ → ∃ s',
        s.step range (.call i) = some s' ∧ s'.callers[i]? = some ⟨made ++ [c],left⟩ ∧
        s'.passed = s.passed ++ [c] := by
  rw [foldlM_append] at h
  obtain ⟨t,ht,h⟩ := Option.bind_eq_some_iff.mp h
  have ho := open_run hpre ht
  have hf : Closed (t.flush range) [range t.worst] :=
    ⟨rfl,by simp [Sink.flush,ho.callers],by simp [Sink.flush,ho.callers,ho.passed]⟩
  have hc := closed_run hf hpost h
  refine ⟨range t.worst,(hrange _).nodup,fun k => ?_,fun k r hk => ?_,hc.callers,hc.passed,
    fun hret => ?_,fun i made c left hi => ?_⟩
  · have hk := ho.worst k
    simp [Prod.exists,(hrange t.worst).mem_iff]
    cases hg : t.worst.get k with
    | none => simp_all
    | some r =>
      rw [hg] at hk
      obtain ⟨p,f,q,hl,_⟩ := hk
      simp [hl]
  · have hw := ho.worst k
    rwa [((hrange t.worst).mem_iff k r).mp hk] at hw
  · have hm : s.callers.flatMap Caller.made =
        (s.callers.map fun c => c.made ++ c.left).flatten := by
      rw [← flatMap_def]
      exact flatMap_congr fun c hc => by rw [hret c hc,append_nil]
    have hp := hc.passed
    rw [hm,hc.callers] at hp
    simpa [← flatMap_def] using hp
  · obtain ⟨hl,-⟩ := List.getElem?_eq_some_iff.mp hi
    exact ⟨_,by simp [Sink.step,Sink.call,hi]; rfl,by simp [hl],rfl⟩

def graded (type : SignalType) (latency : Int) : Event :=
  .add ([],.jsonRPC) ⟨type,none,latency,[],false,false,0⟩

theorem late_arm_passed_on :
    ∃ s flushed, ([graded .minorError 9,graded .fatalError 3] ++ .flush ::
        [.call 0,graded .success 1,.call 1]).foldlM (Sink.step toList) newScoreSink = some s ∧
      s.passed.Perm (flushed ++ (graded .success 1).adds) ∧ (flushed.map Prod.fst).Nodup := by
  have hr : ∃ s, ([graded .minorError 9,graded .fatalError 3] ++ .flush ::
      [.call 0,graded .success 1,.call 1]).foldlM (Sink.step toList) newScoreSink = some s ∧
        ∀ c ∈ s.callers, c.left = [] := ⟨_,rfl,by decide⟩
  obtain ⟨s,hs,hret⟩ := hr
  obtain ⟨flushed,hn,-,-,-,-,hp,-⟩ := one_signal_per_endpoint iterates_toList
    [graded .minorError 9,graded .fatalError 3] [.call 0,graded .success 1,.call 1]
    (by decide) (by decide) hs
  exact ⟨s,flushed,hs,hp hret,hn⟩

end SageGateway.ScoreSink
