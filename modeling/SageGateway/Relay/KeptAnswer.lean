import SageGateway.Relay.Retry

namespace SageGateway

open List

variable {R : Type}

theorem fresherStale_iff {v w : Option AnalysisResult} : fresherStale v w = true ↔
    isStale v = true ∧ isStale w = true ∧ headLag v < headLag w := by
  rw [fresherStale,Bool.and_eq_true,Bool.and_eq_true,decide_eq_true_eq,and_assoc]

theorem kept_is_fresher {v w : Option AnalysisResult}
    (h : (!isStale v || !isStale w || fresherStale v w) = false) :
    isStale w = true ∧ headLag w ≤ headLag v := by
  obtain ⟨hvw,hf⟩ := Bool.or_eq_false_iff.mp h
  obtain ⟨hv,hw⟩ := Bool.or_eq_false_iff.mp hvw
  rw [Bool.not_eq_false'] at hv hw
  refine ⟨hw,Nat.le_of_not_lt fun hlt => ?_⟩
  exact absurd (hf.symm.trans (fresherStale_iff.mpr ⟨hv,hw,hlt⟩)) nofun

namespace RelayAnswer

variable {b k : RelayAnswer R}

theorem own_iff : b.own = true ↔
    b.response.isSome = true ∧ b.underRetryVerdict = true ∧ nodeVerdict b.heuristicResult =
    true := by
  rw [own,Bool.and_eq_true,Bool.and_eq_true,and_assoc]

theorem not_supplierPage_of_own (h : b.own = true) : b.supplierPage = false := by
  rw [supplierPage,(own_iff.mp h).2.2,Bool.not_true,Bool.and_false]

theorem some_of_stands (h : k.stands b = true) : k.response.isSome = true := by
  simp [stands] at h
  exact h.1.1.2

def delivered (k b : RelayAnswer R) : RelayAnswer R := if k.stands b then k else b

theorem delivered_of_none (h : k.response = none) : k.delivered b = b := by
  refine if_neg fun hk => ?_
  have hs := some_of_stands hk
  rw [h] at hs
  cases hs

theorem not_fresher_of_stands (h : k.stands b = true) (hb : b.response.isSome = true) :
    fresherStale b.heuristicResult k.heuristicResult = false := by
  simp [stands,Option.isNone_eq_false_iff.mpr hb] at h
  exact h.2

theorem answered_of_not_stands (h : k.stands b = false) (he : b.err.isSome = true)
    (hk : k.response.isSome = true) : b.response.isSome = true ∧
      (supplierAttributed b.heuristicResult = false ∨
        fresherStale b.heuristicResult k.heuristicResult = true) := by
  cases hb : b.response with
  | none =>
    rw [stands,he,hk,hb] at h
    cases h
  | some r =>
    refine ⟨rfl,?_⟩
    rw [stands,he,hk,hb] at h
    rcases Bool.and_eq_false_iff.mp h with h | h
    · exact .inl h
    · rw [Option.isNone_some,Bool.false_or,Bool.not_eq_false'] at h
      exact .inr h

end RelayAnswer

namespace Attempt

variable {a : Attempt R}

theorem stale_of_graded (h : isStale a.answer.heuristicResult = true) : a.answer.stale = true := by
  rw [RelayAnswer.stale,(a.graded h).1,h]
  rfl

theorem graded_of_stale (h : a.answer.stale = true) : isStale a.answer.heuristicResult = true :=
  ((Bool.and_eq_true _ _).mp h).2

theorem own_of_answered (hr : a.answer.response.isSome = true) (he : a.answer.err.isSome = true)
    (hv : nodeVerdict a.answer.heuristicResult = true) : a.answer.own = true :=
  RelayAnswer.own_iff.mpr ⟨hr,a.answered hr he,hv⟩

theorem own_of_stale (h : a.answer.stale = true) : a.answer.own = true := by
  have hs := graded_of_stale h
  obtain ⟨hr,he⟩ := a.graded hs
  exact own_of_answered hr he (nodeVerdict_of_stale hs)

end Attempt

-- The attempt x, then a node's own answer that is not stale, then the answer k.
def Before (l : List (Attempt R)) (x : Attempt R) (k : RelayAnswer R) : Prop :=
  ∃ b c, [x,b,c].Sublist l ∧ b.answer.own = true ∧ b.answer.stale = false ∧ c.answer = k

theorem Before.sublist {l l' : List (Attempt R)} {x : Attempt R} {k : RelayAnswer R}
    (h : Before l x k) (hs : l.Sublist l') : Before l' x k := by
  obtain ⟨b,c,hx,hb⟩ := h
  exact ⟨b,c,hx.trans hs,hb⟩

theorem lag_le_of_pairwise {l : List (Attempt R)} {k : RelayAnswer R} (hk : k.stale = true)
    (h : l.Pairwise fun a c => a.answer.stale = true → c.answer.stale = true →
      c.answer.lag ≤ a.answer.lag) {x : Attempt R} (hx : x.answer.stale = true)
    (hb : Before l x k) : k.lag ≤ x.answer.lag := by
  obtain ⟨b,c,hs,-,-,rfl⟩ := hb
  exact (pairwise_cons.mp (h.sublist hs)).1 c (mem_cons_of_mem b (.head _)) hx hk

structure KeptFrom (l : List (Attempt R)) (k : RelayAnswer R) : Prop where
  blank : k.response = none → k.heuristicResult = none ∧ ∀ a ∈ l, a.answer.own = false
  given : k.response.isSome = true → ∃ a ∈ l, a.answer.own = true ∧ k = a.answer
  freshest : isStale k.heuristicResult = true →
    ∀ a ∈ l, a.answer.stale = true → k.lag ≤ a.answer.lag ∨ Before l a k
  passed : isStale k.heuristicResult = false → ∀ a ∈ l, a.answer.stale = true →
    ∃ b, b.answer.own = true ∧ b.answer.stale = false ∧ [a,b].Sublist l

namespace KeptFrom

variable {l : List (Attempt R)} {k : RelayAnswer R} {a : Attempt R}

theorem nil {k : RelayAnswer R} (hr : k.response = none) (hv : k.heuristicResult = none) :
    KeptFrom [] k where
  blank _ := ⟨hv,fun _ h => by cases h⟩
  given h := by rw [hr] at h; cases h
  freshest _ _ h := by cases h
  passed _ _ h := by cases h

theorem stays (h : KeptFrom l k) (ho : a.answer.own = true → k.response.isSome = true)
    (hs : a.answer.stale = true → isStale k.heuristicResult = true ∧ k.lag ≤ a.answer.lag) :
    KeptFrom (l ++ [a]) k where
  blank hk := by
    refine ⟨(h.blank hk).1,fun x hx => ?_⟩
    rcases mem_append.mp hx with hx | hx
    · exact (h.blank hk).2 x hx
    · rw [mem_singleton.mp hx]
      refine Bool.eq_false_iff.mpr fun hx => ?_
      have hso := ho hx
      rw [hk] at hso
      cases hso
  given hk := by
    obtain ⟨x,hx,hxk⟩ := h.given hk
    exact ⟨x,mem_append_left [a] hx,hxk⟩
  freshest hk x hx hxs := by
    rcases mem_append.mp hx with hx | hx
    · exact (h.freshest hk x hx hxs).imp_right fun hb => hb.sublist (sublist_append_left l [a])
    · rw [mem_singleton.mp hx] at hxs ⊢
      exact .inl (hs hxs).2
  passed hk x hx hxs := by
    rcases mem_append.mp hx with hx | hx
    · obtain ⟨b,hb,hbs,hsu⟩ := h.passed hk x hx hxs
      exact ⟨b,hb,hbs,hsu.trans (sublist_append_left l [a])⟩
    · rw [mem_singleton.mp hx] at hxs
      exact absurd ((hs hxs).1.symm.trans hk) nofun

theorem replaced (h : KeptFrom l k) (ho : a.answer.own = true)
    (hf : isStale a.answer.heuristicResult = true → isStale k.heuristicResult = true →
      a.answer.lag ≤ k.lag) : KeptFrom (l ++ [a]) a.answer where
  blank hr := by
    have hso := (RelayAnswer.own_iff.mp ho).1
    rw [hr] at hso
    cases hso
  given _ := ⟨a,mem_append_right l (mem_singleton.mpr rfl),ho,rfl⟩
  freshest hs x hx hxs := by
    rcases mem_append.mp hx with hx | hx
    · cases hk : isStale k.heuristicResult with
      | true =>
        refine (h.freshest hk x hx hxs).imp (hf hs hk).trans ?_
        rintro ⟨b,c,hsu,hb,hbs,-⟩
        have hxb : [x,b].Sublist l := ((sublist_append_left [x,b] [c]).trans hsu)
        exact ⟨b,a,hxb.append (List.Sublist.refl [a]),hb,hbs,rfl⟩
      | false =>
        -- a node's own answer displaced the stale ones before it
        obtain ⟨b,hb,hbs,hsu⟩ := h.passed hk x hx hxs
        exact .inr ⟨b,a,hsu.append (List.Sublist.refl [a]),hb,hbs,rfl⟩
    · rw [mem_singleton.mp hx]
      exact .inl (Nat.le_refl _)
  passed hs x hx hxs := by
    have hn : a.answer.stale = false := by rw [RelayAnswer.stale,hs,Bool.and_false]
    rcases mem_append.mp hx with hx | hx
    · exact ⟨a,ho,hn,(singleton_sublist.mpr hx).append (List.Sublist.refl [a])⟩
    · rw [mem_singleton.mp hx] at hxs
      exact absurd (hxs.symm.trans hn) nofun

theorem some_of_stale (h : KeptFrom l k) (hk : isStale k.heuristicResult = true) :
    k.response.isSome = true := by
  cases hr : k.response with
  | some r => rfl
  | none =>
    rw [(h.blank hr).1] at hk
    cases hk

theorem keep (h : KeptFrom l k) (a : Attempt R) : KeptFrom (l ++ [a]) (k.keep a.answer) := by
  unfold RelayAnswer.keep
  split
  · rename_i hke
    obtain ⟨ho,hr⟩ := (Bool.and_eq_true _ _).mp hke
    refine h.replaced ho fun hs hk => ?_
    rw [hs,hk] at hr
    exact Nat.le_of_lt (fresherStale_iff.mp hr).2.2
  · rename_i hke
    have hr (ho : a.answer.own = true) : isStale k.heuristicResult = true ∧
        k.lag ≤ a.answer.lag := by
      rw [ho] at hke
      exact kept_is_fresher (Bool.of_not_eq_true hke)
    exact h.stays (fun ho => h.some_of_stale (hr ho).1) fun hs => hr (a.own_of_stale hs)

theorem none_stale (h : KeptFrom l k) (hk : k.response = none) {x : Attempt R} (hx : x ∈ l) :
    x.answer.stale = false :=
  Bool.eq_false_iff.mpr fun hs => Bool.eq_false_iff.mp ((h.blank hk).2 x hx) (x.own_of_stale hs)

end KeptFrom

theorem keep_not_fresher (k : RelayAnswer R) (a : Attempt R) :
    fresherStale a.answer.heuristicResult (k.keep a.answer).heuristicResult = false := by
  refine Bool.eq_false_iff.mpr fun hf => ?_
  unfold RelayAnswer.keep at hf
  split at hf
  · exact absurd (fresherStale_iff.mp hf).2.2 (Nat.lt_irrefl _)
  · rename_i hke
    have ho := a.own_of_stale (a.stale_of_graded (fresherStale_iff.mp hf).1)
    rw [ho,hf] at hke
    simp at hke

-- The last attempt is not yet in the slot's account, or it is and the slot is no staler.
structure Ends (made l : List (Attempt R)) (a : Attempt R) (k : RelayAnswer R) : Prop where
  kept : KeptFrom l k
  last : a ∈ made
  shape : made = l ++ [a] ∨ made = l ∧
    fresherStale a.answer.heuristicResult k.heuristicResult = false

namespace Ends

variable {made l : List (Attempt R)} {a : Attempt R} {k : RelayAnswer R}

theorem sub (h : Ends made l a k) : l.Sublist made := by
  rcases h.shape with hm | ⟨hm,-⟩
  · exact hm ▸ sublist_append_left l [a]
  · exact hm ▸ List.Sublist.refl l

theorem all (h : Ends made l a k) : ∀ x ∈ made, x ∈ l ∨ x = a := by
  intro x hx
  rcases h.shape with hm | ⟨hm,-⟩
  · exact (mem_append.mp (hm ▸ hx)).imp_right mem_singleton.mp
  · exact .inl (hm ▸ hx)

theorem own (h : Ends made l a k) (he : a.answer.err.isSome = true)
    (ho : ∃ x ∈ made, x.answer.own = true) :
    ∃ x ∈ made, x.answer.own = true ∧ k.delivered a.answer = x.answer := by
  cases hk : k.stands a.answer with
  | true =>
    obtain ⟨x,hx,hxk⟩ := h.kept.given (RelayAnswer.some_of_stands hk)
    exact ⟨x,h.sub.subset hx,hxk.1,(if_pos hk).trans hxk.2⟩
  | false =>
    refine ⟨a,h.last,?_,if_neg (Bool.eq_false_iff.mp hk)⟩
    cases hr : k.response with
    | none =>
      obtain ⟨x,hx,hxo⟩ := ho
      rcases h.all x hx with hx | rfl
      · exact absurd hxo (Bool.eq_false_iff.mp ((h.kept.blank hr).2 x hx))
      · exact hxo
    | some r =>
      obtain ⟨hb,hv⟩ := RelayAnswer.answered_of_not_stands hk he (by rw [hr]; rfl)
      refine a.own_of_answered hb he ?_
      rcases hv with hv | hf
      · exact nodeVerdict_of_not_supplier hv
      · exact nodeVerdict_of_stale (fresherStale_iff.mp hf).1

theorem freshest (h : Ends made l a k) (hs : (k.delivered a.answer).stale = true) :
    ∀ x ∈ made, x.answer.stale = true → (k.delivered a.answer).lag ≤ x.answer.lag ∨
      Before made x (k.delivered a.answer) := by
  intro x hx hxs
  cases hk : k.stands a.answer with
  | true =>
    rw [RelayAnswer.delivered,if_pos hk] at hs ⊢
    have hst : isStale k.heuristicResult = true := ((Bool.and_eq_true _ _).mp hs).2
    rcases h.all x hx with hx | rfl
    · exact (h.kept.freshest hst x hx hxs).imp_right fun hb => hb.sublist h.sub
    · have hf := RelayAnswer.not_fresher_of_stands hk ((Bool.and_eq_true _ _).mp hxs).1
      refine .inl (Nat.le_of_not_lt fun hlt => ?_)
      exact Bool.eq_false_iff.mp hf (fresherStale_iff.mpr ⟨x.graded_of_stale hxs,hst,hlt⟩)
  | false =>
    rw [RelayAnswer.delivered,if_neg (Bool.eq_false_iff.mp hk)] at hs ⊢
    rcases h.all x hx with hx | rfl
    · have hst := a.graded_of_stale hs
      cases hr : k.response with
      | none => exact absurd hxs (Bool.eq_false_iff.mp (h.kept.none_stale hr hx))
      | some r =>
        have hv := RelayAnswer.answered_of_not_stands hk (a.graded hst).2 (by rw [hr]; rfl)
        rcases hv.2 with hv | hf
        · exact absurd (supplierAttributed_of_stale hst) (Bool.eq_false_iff.mp hv)
        · obtain ⟨-,hks,hlt⟩ := fresherStale_iff.mp hf
          refine (h.kept.freshest hks x hx hxs).imp (Nat.le_of_lt hlt).trans ?_
          rintro ⟨b,c,hsu,hb,hbs,-⟩
          have hxb : [x,b].Sublist l := ((sublist_append_left [x,b] [c]).trans hsu)
          rcases h.shape with hm | ⟨-,hn⟩
          · exact ⟨b,a,hm ▸ hxb.append (List.Sublist.refl [a]),hb,hbs,rfl⟩
          · exact absurd hf (Bool.eq_false_iff.mp hn)
    · exact .inl (Nat.le_refl _)

end Ends

namespace RetryState

variable {s s' : RetryState R}

def Ended (s : RetryState R) (retErr : Option GoError) : Prop :=
  ∃ l a, Ends s.made l a s.kept ∧ s.current retErr = a.answer

def Failed (s : RetryState R) : Prop :=
  ∃ l a, s.made = l ++ [a] ∧ s.current s.lastErr = a.answer ∧ KeptFrom l s.kept

def Turned (s : RetryState R) : Flow → Prop
  | .again => Failed s
  | .returns retErr => Ended s retErr

theorem Failed.ended (h : Failed s) : Ended s s.lastErr := by
  obtain ⟨l,a,hm,hc,hk⟩ := h
  exact ⟨l,a,⟨hk,hm ▸ mem_append_right l (mem_singleton.mpr rfl),.inl hm⟩,hc⟩

theorem ended_of_kept {a : Attempt R} {retErr : Option GoError} (hl : a ∈ s.made)
    (hc : s.current retErr = a.answer) (hk : KeptFrom s.made s.kept)
    (hf : fresherStale a.answer.heuristicResult s.kept.heuristicResult = false) :
    Ended s retErr :=
  ⟨s.made,a,⟨hk,hl,.inr ⟨rfl,hf⟩⟩,hc⟩

theorem attempt_turned {C : RetryConfig} {start : Int} {T : RetryTurn R} {left : Nat} {flow : Flow}
    (hk : KeptFrom s.made s.kept) (h : s.attempt C start T left = (s',flow)) :
    Turned s' flow := by
  obtain ⟨a,rfl,hf⟩ := attempt_eq h
  rcases hf with rfl | ⟨rfl,he⟩
  · exact ⟨s.made,a,⟨hk,mem_append_right s.made (mem_singleton.mpr rfl),.inl rfl⟩,rfl⟩
  · obtain ⟨err,he⟩ := Option.isSome_iff_exists.mp he
    have hl : (s.ranAttempt T a).lastErr = a.answer.err := by
      rw [ranAttempt,he]
      rfl
    refine ⟨s.made,a,rfl,?_,hk⟩
    rw [hl]
    rfl

theorem Failed.beforeRetry (h : Failed s) (recorder : Bool) (err : GoError) :
    KeptFrom (s.beforeRetry recorder err).made (s.beforeRetry recorder err).kept := by
  obtain ⟨l,a,hm,hc,hk⟩ := h
  have hn := hk.keep a
  rwa [← hm,← hc] at hn

theorem Failed.last (h : Failed s) : ∃ a ∈ s.made, s.current s.lastErr = a.answer := by
  obtain ⟨l,a,hm,hc,-⟩ := h
  exact ⟨a,hm ▸ mem_append_right l (mem_singleton.mpr rfl),hc⟩

theorem deliver_answer (s : RetryState R) (retErr : Option GoError) :
    (⟨(s.deliver retErr).1.response,(s.deliver retErr).1.endpoint,
      (s.deliver retErr).1.heuristicResult,(s.deliver retErr).2⟩ : RelayAnswer R) =
      s.kept.delivered (s.current retErr) := by
  unfold deliver RelayAnswer.delivered
  dsimp only
  split
  · rfl
  · rfl

end RetryState

namespace RetryRequest

variable {P : Platform} {C : RetryConfig} {q : RetryRequest R} {s s' : RetryState R}

open RetryState

theorem retryAfter_turned {T : RetryTurn R} {left : Nat} {err : GoError} {flow : Flow}
    (h : Failed s) (hl : s.lastErr = some err)
    (ht : q.retryAfter P C T left err s = (s',flow)) : Turned s' flow := by
  have hke := h.beforeRetry q.recorder err
  unfold retryAfter at ht
  split at ht
  · cases ht
    exact hl ▸ h.ended
  · dsimp only at ht
    split at ht
    · exact attempt_turned (s := (s.beforeRetry q.recorder err).rollover) hke ht
    · split at ht
      · rename_i hp
        cases ht
        obtain ⟨hct,-,hk,hm⟩ := nextPool_eq hp
        obtain ⟨a,ha,hc⟩ := h.last
        refine ended_of_kept (hm ▸ ha) ?_ (hm ▸ hk ▸ hke) ?_
        · rw [← hc,hl,current,hct]
          rfl
        · rw [hk,beforeRetry,hc]
          exact keep_not_fresher _ a
      · rename_i hp
        obtain ⟨-,-,hk,hm⟩ := nextPool_eq hp
        exact attempt_turned (hm ▸ hk ▸ hke) ht

theorem retryTurn_turned {attempt left : Nat} {flow : Flow} (h : Failed s)
    (ht : q.retryTurn P C (attempt + 1) left s = (s',flow)) : Turned s' flow := by
  unfold retryTurn at ht
  split at ht
  · rename_i hz
    cases hz
  · exact retryAfter_turned h ‹_› ht
  · rename_i hl
    cases ht
    exact hl ▸ h.ended

theorem loop_ended {left attempt : Nat} {retErr : Option GoError} (h : Failed s)
    (hl : q.loop P C left (attempt + 1) s = (s',retErr)) : Ended s' retErr := by
  induction left generalizing attempt s with
  | zero =>
    cases hl
    exact h.ended
  | succ left ih =>
    rw [loop] at hl
    split at hl
    · rename_i ht
      cases hl
      exact retryTurn_turned h ht
    · rename_i ht
      exact ih (retryTurn_turned h ht) hl

theorem loop_start_ended {left : Nat} {retErr : Option GoError} {ctx : RelayContext R}
    (hr : ctx.response = none) (hv : ctx.heuristicResult = none)
    (hl : q.loop P C left 0 (.start ctx) = (s',retErr)) :
    (left = 0 ∧ s' = .start ctx ∧ retErr = none) ∨ Ended s' retErr := by
  have hk : KeptFrom (start ctx).made (start ctx).kept := KeptFrom.nil hr hv
  cases left with
  | zero =>
    cases hl
    exact .inl ⟨rfl,rfl,rfl⟩
  | succ left =>
    rw [loop] at hl
    split at hl
    · rename_i ht
      cases hl
      exact .inr (attempt_turned hk ht)
    · rename_i ht
      exact .inr (loop_ended (attempt_turned hk ht) hl)

theorem fillEndpoints_context : (q.fillEndpoints q.context).response = none ∧
    (q.fillEndpoints q.context).heuristicResult = none := by
  unfold fillEndpoints
  split
  · exact ⟨rfl,rfl⟩
  · exact ⟨rfl,rfl⟩

theorem retry_ends : (q.retry P C).made = [] ∧ (q.retry P C).answer.stale = false ∨
    ∃ l a k, Ends (q.retry P C).made l a k ∧
      (q.retry P C).answer = k.delivered a.answer := by
  unfold retry
  split
  · refine .inr ⟨[],(q.turn 0).handleRelay q.context,⟨none,[],none,none⟩,?_,?_⟩
    · exact ⟨KeptFrom.nil rfl rfl,mem_singleton.mpr rfl,.inl rfl⟩
    · rw [RelayAnswer.delivered_of_none rfl]
      rfl
  · obtain ⟨hr,hv⟩ := fillEndpoints_context (q := q)
    cases hl : q.loop P C (C.maxRetries + 1).toNat 0 (.start (q.fillEndpoints q.context)) with
    | mk s retErr =>
      rcases loop_start_ended hr hv hl with ⟨-,rfl,rfl⟩ | ⟨l,a,he,hc⟩
      · have ha := ((start (q.fillEndpoints q.context)).deliver_answer none).trans
          (RelayAnswer.delivered_of_none hr)
        refine .inl ⟨rfl,?_⟩
        refine (congrArg RelayAnswer.stale ha).trans ?_
        rw [current,start,hr]
        rfl
      · refine .inr ⟨l,a,s.kept,he,?_⟩
        rw [← hc]
        exact s.deliver_answer retErr

theorem retry_delivers_the_freshest_own_answer (q : RetryRequest R) :
    ((∀ a ∈ (q.retry P C).made, a.answer.err.isSome = true) →
      (∃ a ∈ (q.retry P C).made, a.answer.own = true) →
      (q.retry P C).answer.own = true ∧ (q.retry P C).answer.supplierPage = false ∧
        ∃ a ∈ (q.retry P C).made, (q.retry P C).answer = a.answer) ∧
    ((q.retry P C).answer.stale = true →
      ((∀ a ∈ (q.retry P C).made, a.answer.stale = true →
          (q.retry P C).answer.lag ≤ a.answer.lag) ↔
        ∀ a, Before (q.retry P C).made a (q.retry P C).answer → a.answer.stale = true →
          (q.retry P C).answer.lag ≤ a.answer.lag)) := by
  rcases retry_ends (P := P) (C := C) (q := q) with ⟨hm,hf⟩ | ⟨l,a,k,he,han⟩
  · refine ⟨fun _ ho => ?_,fun hs => ?_⟩
    · obtain ⟨a,ha,-⟩ := ho
      rw [hm] at ha
      cases ha
    · exact absurd hs (Bool.eq_false_iff.mp hf)
  · refine ⟨fun hfa ho => ?_,fun hs => ⟨fun hle x ⟨b,c,hsu,_⟩ => ?_,fun hb x hx hxs => ?_⟩⟩
    · obtain ⟨x,hx,hxo,hd⟩ := he.own (hfa a he.last) ho
      have heq := han.trans hd
      have hao : (q.retry P C).answer.own = true := heq ▸ hxo
      exact ⟨hao,RelayAnswer.not_supplierPage_of_own hao,x,hx,heq⟩
    · exact hle x (hsu.subset (.head _))
    · rw [han] at hs hb ⊢
      exact (he.freshest hs x hx hxs).elim id fun h => hb x h hxs

def nodes : List EndpointAddr :=
  ["supplierA-https://nodeA.example.com".toList,"supplierB-https://nodeB.example.com".toList,
    "supplierC-https://nodeC.example.com".toList,"supplierD-https://nodeD.example.com".toList]

def blockNotFound : AnalysisResult := ⟨.blockchain,"blockchain_error".toList,0,nofun⟩

def minerTimeout : GoError :=
  .newRelayError .endpoint "relay send failed".toList
    (some ⟨.text "relay miner answered HTTP 408".toList,[]⟩) true

def askNode (i : Nat) (verdict : Option AnalysisResult) (ctx : RelayContext Nat) : Attempt Nat :=
  match verdict with
  | some v => .judged i (nodes.getD i []) ctx.endpoints v
  | none => .unanswered (nodes.getD i []) ctx.endpoints minerTimeout

def requestGraded (verdicts : List (Option AnalysisResult)) : RetryRequest Nat where
  quorumArm := false
  retryFlag := true
  operatorAware := false
  recorder := false
  deadline := none
  endpoints := nodes
  availableEndpoints := none
  started := 0
  turn i :=
    { now := 0, ended := false, owners := .new, vouched := none, allStale := none
      archivalRetry := false, retainingEndpoints := none, onProbation := fun _ => false
      handleRelay := askNode i (verdicts.getD i none), finished := 0 }

def lagging : RetryReturn Nat :=
  (requestGraded [some (staleResponse 5),some blockNotFound,some (staleResponse 100),none]).retry
    asciiPlatform ⟨3,0⟩

theorem own_answer_makes_retry_forget_the_fresher_stale_one :
    (∀ a ∈ lagging.made, a.answer.err.isSome = true) ∧ lagging.answer.stale = true ∧
      ∃ a ∈ lagging.made, a.answer.stale = true ∧ a.answer.lag < lagging.answer.lag := by
  decide +kernel

def catchingUp : RetryReturn Nat :=
  (requestGraded [some (staleResponse 9),some blockNotFound,some (staleResponse 4),none]).retry
    asciiPlatform ⟨3,0⟩

theorem fresher_stale_answer_is_delivered :
    catchingUp.made.length = 4 ∧ catchingUp.answer.stale = true ∧
      (catchingUp.answer.own = true ∧ catchingUp.answer.supplierPage = false ∧
        ∃ a ∈ catchingUp.made, catchingUp.answer = a.answer) ∧
      ∀ a ∈ catchingUp.made, a.answer.stale = true → catchingUp.answer.lag ≤ a.answer.lag := by
  have hr : catchingUp.made.length = 4 ∧ (∀ a ∈ catchingUp.made, a.answer.err.isSome = true) ∧
      (∃ a ∈ catchingUp.made, a.answer.own = true) ∧ catchingUp.answer.stale = true ∧
      catchingUp.made.Pairwise fun a c => a.answer.stale = true → c.answer.stale = true →
        c.answer.lag ≤ a.answer.lag := by decide +kernel
  obtain ⟨hl,hf,ho,hs,hp⟩ := hr
  have hd := retry_delivers_the_freshest_own_answer (P := asciiPlatform) (C := ⟨3,0⟩)
    (requestGraded [some (staleResponse 9),some blockNotFound,some (staleResponse 4),none])
  exact ⟨hl,hs,hd.1 hf ho,
    (hd.2 hs).mpr fun x hb hx => lag_le_of_pairwise hs hp hx hb⟩

end RetryRequest

end SageGateway
