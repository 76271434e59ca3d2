import SageGateway.Relay.Hedge.Picks

namespace SageGateway

open List Option

deriving instance DecidableEq for AnalysisResult

deriving instance DecidableEq for RelayContext

def retainingEndpoints (applies : Bool) (retains : Bool → EndpointAddr → Bool)
    (eps : List EndpointAddr) : Option (List EndpointAddr) :=
  if applies then [true,false].findSome? fun served =>
    let kept := eps.filter (retains served)
    if kept = [] then none else some kept
  else none

theorem retainingEndpoints_some {applies : Bool} {retains : Bool → EndpointAddr → Bool}
    {eps kept : List EndpointAddr} (h : retainingEndpoints applies retains eps = some kept) :
    kept ≠ [] ∧ kept ⊆ eps := by
  obtain ⟨-,h⟩ := ite_none_right_eq_some.mp h
  obtain ⟨served,-,hs⟩ := List.exists_of_findSome?_eq_some h
  obtain ⟨hne,rfl⟩ := Run.guard_neg hs
  exact ⟨hne,filter_subset_self eps⟩

namespace RetryTurn

variable {R : Type} {T : RetryTurn R} {P : Platform} {available : List EndpointAddr}

def Retains (T : RetryTurn R) : Prop :=
  ∀ f ∈ T.retainingEndpoints, ∃ applies retains, f = SageGateway.retainingEndpoints applies retains

theorem avoidAffiliates_kept (operatorAware : Bool) (tried : Affiliates) (h : available ≠ []) :
    T.avoidAffiliates P operatorAware available tried ≠ [] ∧
      T.avoidAffiliates P operatorAware available tried ⊆ available := by
  unfold avoidAffiliates
  dsimp only
  split
  · exact ⟨EndpointAddr.excludeAffiliates_ne h,EndpointAddr.excludeAffiliates_subset⟩
  · exact ⟨h,List.Subset.refl _⟩

theorem keepHistory_kept (hT : T.Retains) (cause : GoString) (h : available ≠ []) :
    T.keepHistory cause available ≠ [] ∧ T.keepHistory cause available ⊆ available := by
  unfold keepHistory
  split
  · split
    · next kept hk =>
      obtain ⟨f,hf,hfk⟩ := bind_eq_some_iff.mp hk
      obtain ⟨applies,retains,rfl⟩ := hT f hf
      split
      · exact retainingEndpoints_some hfk
      · exact ⟨h,List.Subset.refl _⟩
    · exact ⟨h,List.Subset.refl _⟩
  · exact ⟨h,List.Subset.refl _⟩

end RetryTurn

namespace RetryState

variable {R : Type} {s s' : RetryState R} {P : Platform} {T : RetryTurn R}

def Excludes (s : RetryState R) (ep : EndpointAddr) : Prop :=
  ep = s.ctx.endpoint ∨ ∃ tried, s.tried = some tried ∧ tried.endpoints.has ep = true

theorem exclude_has {ep : EndpointAddr} (h : s.Excludes ep) :
    (s.exclude P T).endpoints.has ep = true := by
  unfold exclude Tried.add
  by_cases hep : ep = s.ctx.endpoint
  · rw [hep,GoMap.has,GoMap.get_put_self]
    rfl
  · rw [GoMap.has,GoMap.get_put_ne _ _ hep]
    rcases h with heq | ⟨tried,ht,hh⟩
    · exact absurd heq hep
    · rwa [ht]

theorem nextPool_some {operatorAware : Bool} {available : List EndpointAddr} (hT : T.Retains)
    (h : s.nextPool P operatorAware T = (s',some available)) :
    s' = { s with tried := some (s.exclude P T) } ∧ available ≠ [] ∧
      ∀ ep ∈ available, (s.exclude P T).endpoints.has ep = false := by
  unfold nextPool at h
  dsimp only at h
  split at h
  · cases h
  · next hne =>
    have ha := T.avoidAffiliates_kept (P := P) operatorAware (s.exclude P T).affiliates hne
    have hf : ∀ l, l ≠ [] → l ⊆ T.avoidAffiliates P operatorAware
        (EndpointAddr.exclude (s.exclude P T).pool (s.exclude P T).endpoints)
        (s.exclude P T).affiliates → T.keepHistory s.pendingCause l ≠ [] ∧
          ∀ ep ∈ T.keepHistory s.pendingCause l, (s.exclude P T).endpoints.has ep = false := by
      intro l hl hs
      obtain ⟨hkn,hk⟩ := RetryTurn.keepHistory_kept hT s.pendingCause hl
      exact ⟨hkn,fun ep hep => (EndpointAddr.mem_exclude (ha.2 (hs (hk hep)))).2⟩
    split at h
    · split at h
      · cases h
      · next ho =>
        cases h
        have hon : ¬ otherOperators P (s.exclude P T) (T.avoidAffiliates P operatorAware
            (EndpointAddr.exclude (s.exclude P T).pool (s.exclude P T).endpoints)
            (s.exclude P T).affiliates) = [] := fun hn => ho (.inl hn)
        exact ⟨rfl,hf _ hon (filter_subset_self _)⟩
    · cases h
      exact ⟨rfl,hf _ ha.1 (List.Subset.refl _)⟩

def callContext (T : RetryTurn R) (attemptsLeft : Nat) (s : RetryState R) : RelayContext R :=
  { s.ctx with
    deadline := perAttemptDeadline s.ctx.deadline T.now attemptsLeft
    attemptKind := if s.made = [] then [] else attemptRetry }

end RetryState

structure RaceTrace (R : Type) where
  wait : HedgeWait
  ctx : RelayContext R
  primary : List EndpointAddr
  others : List EndpointAddr
  lost : List EndpointAddr
  deriving DecidableEq

structure Trip (R : Type) where
  attempt : Attempt R
  primary : List EndpointAddr
  others : List EndpointAddr
  lost : List EndpointAddr

namespace Trip

variable {R : Type}

def sent (t : Trip R) : List EndpointAddr := t.primary ++ t.others

def spent (t : Trip R) : List EndpointAddr := t.primary ++ t.lost

def Direct (ctx : RelayContext R) (v : SelectView) (t : Trip R) : Prop :=
  t.others = [] ∧ t.lost = [] ∧
    match (v.narrow ctx.attemptKind ctx.endpoints).2 with
    | .ok ep => t.attempt.answer.endpoint = ep ∧ t.primary = [ep].filter fun p => decide (p ≠ [])
    | .error err => t.attempt.answer.endpoint = ctx.endpoint ∧ t.attempt.answer.err = some err ∧
        t.primary = []

inductive Made (P : Platform) (ok : HedgeRace R → HedgeAct R → Prop) (ctx : RelayContext R)
    (t : Trip R) : Prop
  | direct (v : SelectView) (hdirect : t.Direct ctx v)
      (hlist : t.attempt.endpoints = (v.narrow ctx.attemptKind ctx.endpoints).1)
  | raced (g : HedgeGate) (s : HedgeRace R) (hgate : g.races = true)
      (hrun : Run.Reaches (HedgeRace.step P) ok (HedgeRace.start g ctx) s)
      (hwait : s.wait = .returned t.attempt.answer.err)
      (hctx : s.ctx = (HedgeRace.start g ctx).ctx.land t.attempt)
      (hprimary : t.primary = s.sentTo .primary)
      (hothers : t.others = s.sentTo .hedge ++ s.sentTo .rehedge) (hlost : t.lost = s.lost)

variable {P : Platform} {ctx : RelayContext R} {t : Trip R}

theorem Made.sent_mem (h : t.Made P (HedgeRace.Orderly P) ctx)
    (hk : ctx.attemptKind = attemptRetry) (hne : ctx.endpoints ≠ []) :
    ∀ ep ∈ t.sent, ep ∈ ctx.endpoints := by
  intro ep hep
  cases h with
  | direct v hd hl =>
    obtain ⟨ho,-,hp⟩ := hd
    rw [sent,ho,append_nil] at hep
    split at hp
    · next pick hok =>
      rw [hp.2] at hep
      obtain ⟨hm,-⟩ := mem_filter.mp hep
      cases mem_singleton.mp hm
      exact (SelectView.narrow_kept (v := v) ctx.attemptKind hne).2.2 ep hok
    · rw [hp.2.2] at hep
      cases hep
  | raced g s hg hr hw hc hpr ho hlo =>
    rw [sent,hpr,ho] at hep
    exact HedgeRace.sent_within hk hne hr hep

theorem Made.spent_eq (h : t.Made P (HedgeRace.Orderly P) ctx) (hc : ctx.endpoint = [])
    (he : t.attempt.answer.err.isSome = true) (hl : t.lost = []) :
    ∀ ep ∈ t.spent, ep = t.attempt.answer.endpoint := by
  intro ep hep
  rw [spent,hl,append_nil] at hep
  cases h with
  | direct v hd hli =>
    obtain ⟨-,-,hp⟩ := hd
    split at hp
    · rw [hp.2] at hep
      obtain ⟨hm,-⟩ := mem_filter.mp hep
      exact (mem_singleton.mp hm).trans hp.1.symm
    · rw [hp.2.2] at hep
      cases hep
  | raced g s hg hr hw hla hpr ho hl =>
    rw [hpr] at hep
    obtain ⟨err,hs⟩ := isSome_iff_exists.mp he
    rw [hs] at hw
    rw [HedgeRace.primary_left hc hr hw hep,hla]
    rfl

def trace (s : HedgeRace R) : RaceTrace R :=
  ⟨s.wait,s.ctx,s.sentTo .primary,s.sentTo .hedge ++ s.sentTo .rehedge,s.lost⟩

theorem made_of_run {ok : HedgeRace R → HedgeAct R → Prop} [∀ s a, Decidable (ok s a)]
    (g : HedgeGate) (acts : List (HedgeAct R)) (hg : g.races = true)
    (h : (Run.run (HedgeRace.step P) ok (HedgeRace.start g ctx) acts).map trace =
      some ⟨.returned t.attempt.answer.err,(HedgeRace.start g ctx).ctx.land t.attempt,t.primary,
        t.others,t.lost⟩) : t.Made P ok ctx := by
  obtain ⟨s,hs,ht⟩ := map_eq_some_iff.mp h
  obtain ⟨hw,hc,hp,ho,hl⟩ := RaceTrace.mk.inj ht
  exact .raced g s hg (Run.Reaches.start.run hs) hw hc hp.symm ho.symm hl.symm

end Trip

namespace RetryRequest

variable {R : Type} (P : Platform) (C : RetryConfig) (q : RetryRequest R)

def readied (T : RetryTurn R) (err : GoError) (s : RetryState R) : Option (RetryState R) :=
  if T.ended || !budgetForRetry s.ctx.deadline q.started T.now then none
  else
    let s := s.beforeRetry q.recorder err
    if err.errorsIs .endpointsStale then some s.rollover
    else match s.nextPool P q.operatorAware T with
      | (_,none) => none
      | (s,some available) => some { s with ctx := s.ctx.cleared available }

def ready (attempt : Nat) (s : RetryState R) : Option (RetryState R) :=
  match attempt with
  | 0 => some s
  | n + 1 => s.lastErr.bind fun err => q.readied P (q.turn (n + 1)) err s

def callsFrom : Nat → Nat → RetryState R → List (Nat × RelayContext R)
  | 0,_,_ => []
  | left + 1,attempt,s =>
      match q.ready P attempt s with
      | none => []
      | some s =>
          (attempt,s.callContext (q.turn attempt) (left + 1)) ::
            match s.attempt C q.started (q.turn attempt) (left + 1) with
            | (_,.returns _) => []
            | (s,.again) => callsFrom left (attempt + 1) s

def calls : List (Nat × RelayContext R) :=
  if q.quorumArm || !q.retryFlag || decide (C.maxRetries = 0) then [(0,q.context)]
  else q.callsFrom P C (C.maxRetries + 1).toNat 0 (.start (q.fillEndpoints q.context))

def answered (c : Nat × RelayContext R) : Attempt R := (q.turn c.1).handleRelay c.2

variable {P C q}

section

variable {T : RetryTurn R} {left attempt : Nat} {err : GoError} {s s' : RetryState R}

theorem retryAfter_of_some (h : q.readied P T err s = some s') :
    q.retryAfter P C T left err s = s'.attempt C q.started T left := by
  obtain ⟨hgo,h⟩ := ite_none_left_eq_some.mp h
  unfold retryAfter
  rw [if_neg hgo]
  dsimp only at h ⊢
  split at h
  · next hs =>
    cases h
    rw [if_pos hs]
  · next hs =>
    rw [if_neg hs]
    rcases hp : (s.beforeRetry q.recorder err).nextPool P q.operatorAware T with ⟨s₁,pool⟩
    rw [hp] at h
    cases pool with
    | none => cases h
    | some available =>
      cases h
      rfl

theorem retryAfter_of_none (C : RetryConfig) (left : Nat) (h : q.readied P T err s = none) :
    ∃ s', q.retryAfter P C T left err s = (s',.returns (some err)) ∧ s'.made = s.made := by
  unfold readied at h
  unfold retryAfter
  split
  · exact ⟨s,rfl,rfl⟩
  · next hgo =>
    rw [if_neg hgo] at h
    dsimp only at h ⊢
    split at h
    · cases h
    · next hs =>
      rw [if_neg hs]
      rcases hp : (s.beforeRetry q.recorder err).nextPool P q.operatorAware T with ⟨s₁,pool⟩
      rw [hp] at h
      cases pool with
      | none => exact ⟨s₁,rfl,(RetryState.nextPool_eq hp).2.2.2⟩
      | some available => cases h

theorem retryTurn_of_some (h : q.ready P attempt s = some s') :
    q.retryTurn P C attempt left s = s'.attempt C q.started (q.turn attempt) left := by
  cases attempt with
  | zero =>
    cases h
    rfl
  | succ n =>
    obtain ⟨err,hl,h⟩ := bind_eq_some_iff.mp h
    unfold retryTurn
    rw [hl]
    exact retryAfter_of_some h

theorem retryTurn_of_none (C : RetryConfig) (left : Nat) (h : q.ready P attempt s = none) :
    ∃ s' e, q.retryTurn P C attempt left s = (s',.returns e) ∧ s'.made = s.made := by
  cases attempt with
  | zero => cases h
  | succ n =>
    unfold retryTurn
    cases hl : s.lastErr with
    | none => exact ⟨s,none,rfl,rfl⟩
    | some err =>
      unfold ready at h
      rw [hl] at h
      obtain ⟨s',heq,hm⟩ := retryAfter_of_none C left h
      exact ⟨s',some err,heq,hm⟩

theorem readied_made (h : q.readied P T err s = some s') : s'.made = s.made := by
  obtain ⟨-,h⟩ := ite_none_left_eq_some.mp h
  dsimp only at h
  split at h
  · cases h
    rfl
  · split at h
    · cases h
    · next hp =>
      cases h
      exact (RetryState.nextPool_eq hp).2.2.2

theorem ready_made (h : q.ready P attempt s = some s') : s'.made = s.made := by
  cases attempt with
  | zero =>
    cases h
    rfl
  | succ n =>
    obtain ⟨err,-,h⟩ := bind_eq_some_iff.mp h
    exact readied_made h

theorem loop_calls (left attempt : Nat) (s : RetryState R) :
    (q.loop P C left attempt s).1.made =
      s.made ++ (q.callsFrom P C left attempt s).map q.answered := by
  induction left generalizing attempt s with
  | zero => exact (append_nil s.made).symm
  | succ left ih =>
    unfold loop callsFrom
    cases hr : q.ready P attempt s with
    | none =>
      obtain ⟨s',e,ht,hm⟩ := retryTurn_of_none C (left + 1) hr
      rw [ht]
      exact hm.trans (append_nil s.made).symm
    | some s' =>
      rw [retryTurn_of_some hr]
      have hra : (s'.attempt C q.started (q.turn attempt) (left + 1)).1.made =
          s.made ++ [q.answered (attempt,s'.callContext (q.turn attempt) (left + 1))] :=
        congrArg (· ++ _) (ready_made hr)
      dsimp only
      cases ha : s'.attempt C q.started (q.turn attempt) (left + 1) with
      | mk s'' flow =>
        rw [ha] at hra
        cases flow with
        | returns e => exact hra
        | again =>
          rw [ih,hra,append_assoc]
          rfl

theorem calls_made : (q.retry P C).made = (q.calls P C).map q.answered := by
  unfold retry calls
  split
  · rfl
  · exact loop_calls _ 0 _

theorem readied_pool (hT : T.Retains) (hst : err.errorsIs .endpointsStale = false)
    (h : q.readied P T err s = some s') :
    s'.ctx.endpoint = [] ∧ s'.ctx.endpoints ≠ [] ∧
      (∀ ep ∈ s'.ctx.endpoints, ¬ s.Excludes ep) ∧
      ∀ ep, s.Excludes ep → ∃ tried, s'.tried = some tried ∧ tried.endpoints.has ep = true := by
  obtain ⟨-,h⟩ := ite_none_left_eq_some.mp h
  rw [if_neg (Bool.eq_false_iff.mp hst)] at h
  split at h
  · cases h
  · next available hp =>
    cases h
    obtain ⟨rfl,hne,hf⟩ := RetryState.nextPool_some hT hp
    have hs : ∀ ep, s.Excludes ep → (s.beforeRetry q.recorder err).Excludes ep := fun _ => id
    refine ⟨rfl,hne,?_,?_⟩
    · intro ep hep he
      cases (hf ep hep).symm.trans (RetryState.exclude_has (hs ep he))
    · exact fun ep he => ⟨_,rfl,RetryState.exclude_has (hs ep he)⟩

def Follows (P : Platform) (ok : HedgeRace R → HedgeAct R → Prop) (q : RetryRequest R)
    (c : Nat × RelayContext R) (t : Trip R) : Prop :=
  t.Made P ok c.2 ∧ t.attempt = q.answered c

theorem attempt_again {s'' : RetryState R}
    (h : s'.attempt C q.started T left = (s'',.again)) :
    s'' = s'.ranAttempt T (s'.runAttempt T left) ∧
      (s'.runAttempt T left).answer.err.isSome = true := by
  obtain ⟨rfl,hf⟩ := Prod.mk.inj h
  refine ⟨rfl,?_⟩
  cases he : (s'.runAttempt T left).answer.err with
  | none =>
    rw [he] at hf
    cases hf
  | some e => rfl

theorem ranAttempt_lastErr {a : Attempt R} (hf : a.answer.err.isSome = true)
    (hr : ∀ e ∈ a.answer.err, e.errorsIs .endpointsStale = false) :
    ∀ e ∈ (s.ranAttempt T a).lastErr, e.errorsIs .endpointsStale = false := by
  intro e he
  obtain ⟨e',he'⟩ := isSome_iff_exists.mp hf
  have hor : (some e').or s.lastErr = some e := by
    rwa [← he']
  cases hor
  exact hr _ he'

theorem spent_excluded {t : Trip R}
    (ht : t.Made P (HedgeRace.Orderly P) (s.callContext T left)) (he : s.ctx.endpoint = [])
    (hf : t.attempt.answer.err.isSome = true) (hl : t.lost = []) :
    ∀ ep ∈ t.spent, (s.ranAttempt T t.attempt).Excludes ep :=
  fun ep hep => .inl (ht.spent_eq he hf hl ep hep)

theorem ranAttempt_made {a : Attempt R} : (s.ranAttempt T a).made ≠ [] :=
  append_ne_nil_of_right_ne_nil _ (cons_ne_nil a [])

theorem mem_dropLast_cons {t u : Trip R} {ts : List (Trip R)} (h : u ∈ ts.dropLast) :
    u ∈ (t :: ts).dropLast := by
  cases ts with
  | nil => cases h
  | cons v ts => exact mem_cons_of_mem t h

theorem mem_dropLast_of_tail {t u : Trip R} {ts : List (Trip R)} (h : u ∈ ts) :
    t ∈ (t :: ts).dropLast := by
  cases ts with
  | nil => cases h
  | cons v ts => exact .head _

theorem callsFrom_pairwise (hT : ∀ i, (q.turn i).Retains) (left n : Nat) (s : RetryState R)
    (trips : List (Trip R)) (hm : s.made ≠ [])
    (hla : ∀ err ∈ s.lastErr, err.errorsIs .endpointsStale = false)
    (hr : List.Forall₂ (q.Follows P (HedgeRace.Orderly P)) (q.callsFrom P C left (n + 1) s) trips)
    (hro : ∀ t ∈ trips, ∀ err ∈ t.attempt.answer.err, err.errorsIs .endpointsStale = false)
    (hlo : ∀ t ∈ trips.dropLast, t.lost = []) :
    (∀ t ∈ trips, ∀ ep ∈ t.sent, ¬ s.Excludes ep) ∧
      trips.Pairwise fun t u => ∀ ep ∈ u.sent, ep ∉ t.spent := by
  induction left generalizing n s trips with
  | zero =>
    cases hr
    exact ⟨forall_mem_nil _,.nil⟩
  | succ left ih =>
    unfold callsFrom at hr
    split at hr
    · cases hr
      exact ⟨forall_mem_nil _,.nil⟩
    · next s' hrd =>
      obtain ⟨err,her,hra⟩ := bind_eq_some_iff.mp hrd
      obtain ⟨he,hne,hfr,hk⟩ := readied_pool (hT (n + 1)) (hla err her) hra
      have hki : (s'.callContext (q.turn (n + 1)) (left + 1)).attemptKind = attemptRetry :=
        if_neg (fun hni => hm ((readied_made hra).symm.trans hni))
      cases hr with
      | @cons _ t _ ts hfo hre =>
        obtain ⟨ht,ha⟩ := hfo
        have hs : ∀ ep ∈ t.sent, ¬ s.Excludes ep := fun ep hep =>
          hfr ep (ht.sent_mem hki hne ep hep)
        split at hre
        · cases hre
          exact ⟨fun u hu => mem_singleton.mp hu ▸ hs,pairwise_singleton _ _⟩
        · next s'' hag =>
          obtain ⟨hs'',hf⟩ := attempt_again hag
          rw [show s'.runAttempt (q.turn (n + 1)) (left + 1) = t.attempt from ha.symm]
            at hs'' hf
          subst hs''
          obtain ⟨hro,hrl⟩ := forall_mem_cons.mp hro
          obtain ⟨hl,hp⟩ := ih (n + 1) _ ts ranAttempt_made
            (ranAttempt_lastErr hf hro) hre hrl
            (fun u hu => hlo u (mem_dropLast_cons hu))
          refine ⟨?_,pairwise_cons.mpr ⟨?_,hp⟩⟩
          · refine forall_mem_cons.mpr ⟨hs,fun u hu ep hep hec => ?_⟩
            exact hl u hu ep hep (.inr (hk ep hec))
          · intro u hu ep hep hsp
            have hn := hlo t (mem_dropLast_of_tail hu)
            exact hl u hu ep hep (spent_excluded ht he hf hn ep hsp)

theorem context_endpoint : (q.fillEndpoints q.context).endpoint = [] := by
  unfold fillEndpoints
  split
  · rfl
  · rfl

theorem retry_keeps_off_spent_endpoints (q : RetryRequest R) (hT : ∀ i, (q.turn i).Retains)
    (trips : List (Trip R))
    (hrun : List.Forall₂ (q.Follows P (HedgeRace.Orderly P)) (q.calls P C) trips)
    (hroll : ∀ t ∈ trips, ∀ err ∈ t.attempt.answer.err, err.errorsIs .endpointsStale = false)
    (hlost : ∀ t ∈ trips.dropLast, t.lost = []) :
    trips.Pairwise fun t u => ∀ ep ∈ u.sent, ep ∉ t.spent := by
  unfold calls at hrun
  split at hrun
  · cases hrun with
    | cons _ hr =>
      cases hr
      exact pairwise_singleton _ _
  · cases hl : (C.maxRetries + 1).toNat with
    | zero =>
      rw [hl] at hrun
      cases hrun
      exact .nil
    | succ left =>
      rw [hl] at hrun
      cases hrun with
      | @cons _ t _ ts hfo hr =>
        obtain ⟨ht,ha⟩ := hfo
        split at hr
        · cases hr
          exact pairwise_singleton _ _
        · next s hag =>
          obtain ⟨hs,hf⟩ := attempt_again hag
          rw [show RetryState.runAttempt (q.turn 0) (left + 1) _ = t.attempt from ha.symm]
            at hs hf
          subst hs
          obtain ⟨hroll,hro⟩ := forall_mem_cons.mp hroll
          obtain ⟨hla,hp⟩ := callsFrom_pairwise hT left 0 _ ts ranAttempt_made
            (ranAttempt_lastErr hf hroll) hr hro
            (fun u hu => hlost u (mem_dropLast_cons hu))
          refine pairwise_cons.mpr ⟨fun u hu ep hep hsp => ?_,hp⟩
          have hn := hlost t (mem_dropLast_of_tail hu)
          exact hla u hu ep hep
            (spent_excluded ht context_endpoint hf hn ep hsp)

end

section

open HedgeRace

def alpha : EndpointAddr := "supplierA-https://rpc.alpha.net".toList

def beta : EndpointAddr := "supplierB-https://rpc.beta.net".toList

def refetching (pool : List EndpointAddr) : SelectView :=
  { firstOf with provider := some (.ok pool) }

def hedging : HedgeView := ⟨500,.new,false,false,none⟩

def hedgedRequest (pool : List EndpointAddr) (first second : Attempt Nat) : RetryRequest Nat where
  quorumArm := false
  retryFlag := true
  operatorAware := false
  recorder := false
  deadline := none
  endpoints := pool
  availableEndpoints := none
  started := 0
  turn i :=
    { now := 0, ended := false, owners := .new, vouched := none, allStale := none
      archivalRetry := false, retainingEndpoints := none, onProbation := fun _ => false
      handleRelay := fun _ => if i = 0 then first else second, finished := 0 }

theorem hedgedRequest_retains (pool : List EndpointAddr) (first second : Attempt Nat) (i : Nat) :
    ((hedgedRequest pool first second).turn i).Retains := by
  nofun

def retryContext (pool : List EndpointAddr) : RelayContext Nat :=
  ⟨none,[],pool,none,none,none,attemptRetry,[]⟩

def bothArmsFail : List (HedgeAct Nat) :=
  [.select .primary (refetching [alpha,beta]),.delayElapses hedging,
      .select .hedge (refetching [alpha,beta])] ++
    fails .hedge refused ++ [.receiveHedge hedging] ++ fails .primary timedOut ++ [.receivePrimary]

def lostOnBoth : Trip Nat := ⟨.unanswered alpha [alpha,beta] timedOut,[alpha],[beta],[beta]⟩

def lostAgain : Trip Nat := ⟨.unanswered beta [beta] timedOut,[beta],[alpha],[alpha]⟩

def twoHosts : RetryRequest Nat :=
  hedgedRequest [alpha,beta] lostOnBoth.attempt lostAgain.attempt

theorem retry_returns_to_the_failed_hedge :
    (∀ i, (twoHosts.turn i).Retains) ∧
      List.Forall₂ (twoHosts.Follows asciiPlatform fun _ _ => True)
        (twoHosts.calls asciiPlatform ⟨1,0⟩) [lostOnBoth,lostAgain] ∧
      (∀ t ∈ [lostOnBoth,lostAgain], ∀ err ∈ t.attempt.answer.err,
        err.errorsIs .endpointsStale = false) ∧
      beta ∈ lostAgain.primary ∧ beta ∈ lostOnBoth.lost ∧
      alpha ∈ lostAgain.sent ∧ alpha ∈ lostOnBoth.primary := by
  refine ⟨hedgedRequest_retains _ _ _,?_,by decide +kernel,by decide,by decide,by decide,by decide⟩
  refine .cons ⟨?_,rfl⟩ (.cons ⟨?_,rfl⟩ .nil)
  · exact Trip.made_of_run openGate bothArmsFail rfl (by decide +kernel)
  · exact Trip.made_of_run openGate bothArmsFail rfl (by decide +kernel)

def gamma : EndpointAddr := "supplierC-https://rpc.gamma.net".toList

def deadlinePasses : List (HedgeAct Nat) :=
  [.select .primary firstOf,.delayElapses hedging,.select .hedge firstOf,
    .contextEnds .deadlineExceeded,.seeDone]

def inFlight : GoError :=
  .newRelayError .transport ("hedge: attempt deadline exceeded with rpc.alpha.net, " ++
    "rpc.beta.net in flight").toList (some ContextEnd.deadlineExceeded.err) true

def cutShort : Trip Nat where
  attempt :=
    { answer := ⟨none,alpha,none,some inFlight⟩
      endpoints := [alpha,beta,gamma]
      ctxErr := none
      answered := fun h => by cases h
      graded := fun h => by cases h }
  primary := [alpha]
  others := [beta]
  lost := []

def answeredByBeta : Trip Nat where
  attempt :=
    { answer := ⟨some 7,beta,none,none⟩
      endpoints := [beta,gamma]
      ctxErr := none
      answered := fun _ h => by cases h
      graded := fun h => by cases h }
  primary := [beta]
  others := []
  lost := []

def threeHosts : RetryRequest Nat :=
  hedgedRequest [alpha,beta,gamma] cutShort.attempt answeredByBeta.attempt

theorem retry_moves_on_after_the_deadline :
    threeHosts.calls asciiPlatform ⟨1,0⟩ =
        [(0,threeHosts.context),(1,retryContext [beta,gamma])] ∧
      [cutShort,answeredByBeta].Pairwise fun t u => ∀ ep ∈ u.sent, ep ∉ t.spent := by
  have hc : threeHosts.calls asciiPlatform ⟨1,0⟩ =
      [(0,threeHosts.context),(1,retryContext [beta,gamma])] := by decide +kernel
  refine ⟨hc,retry_keeps_off_spent_endpoints (P := asciiPlatform) (C := ⟨1,0⟩) threeHosts
    (hedgedRequest_retains _ _ _) _ ?_ (by decide +kernel) (by decide)⟩
  refine .cons ⟨?_,rfl⟩ (.cons ⟨?_,rfl⟩ .nil)
  · exact Trip.made_of_run openGate deadlinePasses rfl (by decide +kernel)
  · exact .direct firstOf ⟨rfl,rfl,rfl,rfl⟩ rfl

end

end RetryRequest

end SageGateway
