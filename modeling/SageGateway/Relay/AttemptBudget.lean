import SageGateway.Relay.RetriedEndpoints

namespace GoTime

def wrap (d : Int) : Int := Int.bmod d 18446744073709551616

theorem wrap_of_le {d : Int} (h0 : 0 ≤ d) (h : d ≤ maxDuration) : wrap d = d := by
  unfold maxDuration at h
  exact Int.bmod_eq_of_le (by omega) (by omega)

theorem sub_of_le {t u : Int} (h0 : u ≤ t) (h : t - u ≤ maxDuration) : sub t u = t - u := by
  unfold sub
  unfold minDuration
  split_ifs <;> omega

end GoTime

namespace SageGateway

def attemptScaledTimeout (perAttempt : Int) (maxRetries : Option Int) : Int :=
  match maxRetries with
  | none => perAttempt
  | some n => if 0 < perAttempt ∧ 0 < n then GoTime.wrap (perAttempt * (n + 1)) else perAttempt

def timeoutDeadline (parent : Option Int) (now d : Int) : Option Int :=
  if d = 0 then parent else some ((parent.map fun p => min p (now + d)).getD (now + d))

theorem attemptScaledTimeout_eq {t n : Int} (ht : 0 < t) (hn : 0 ≤ n)
    (hm : t * (n + 1) ≤ GoTime.maxDuration) :
    attemptScaledTimeout t (some n) = t * (n + 1) := by
  unfold attemptScaledTimeout
  dsimp only
  split
  · exact GoTime.wrap_of_le (Int.mul_nonneg (by omega) (by omega)) hm
  · have hz : n = 0 := by omega
    rw [hz]
    omega

theorem timeoutDeadline_scaled {t : Int} {n : Nat} (ht : 0 < t)
    (hm : t * ((n : Int) + 1) ≤ GoTime.maxDuration) (start : Int) :
    timeoutDeadline none start (attemptScaledTimeout t (some n)) =
      some (start + t * ((n : Int) + 1)) := by
  have hp : 0 < t * ((n : Int) + 1) := Int.mul_pos ht (by omega)
  rw [attemptScaledTimeout_eq ht (by omega) hm,timeoutDeadline,if_neg (by omega)]
  rfl

theorem share_le {t r : Int} {left : Nat} (h : t * ((left : Int) + 1) ≤ r) :
    t ≤ r / ((left : Int) + 1) := by
  rwa [Int.le_ediv_iff_mul_le (by omega)]

theorem remaining_after {t r : Int} {left : Nat} (h : t * ((left : Int) + 1) ≤ r) :
    t * left ≤ r - r / ((left : Int) + 1) := by
  have hr : r / ((left : Int) + 1) * ((left : Int) + 1) ≤ r := Int.ediv_mul_le r (by omega)
  have hm : t * left ≤ r / ((left : Int) + 1) * left :=
    Int.mul_le_mul_of_nonneg_right (share_le h) (by omega)
  rw [Int.mul_add] at hr
  omega

theorem perAttemptDeadline_share {deadline now t : Int} {left : Nat} (ht : 0 < t)
    (hm : deadline - now ≤ GoTime.maxDuration) (h : t * ((left : Int) + 1) ≤ deadline - now) :
    ∃ d, perAttemptDeadline (some deadline) now (left + 1) = some d ∧ t ≤ d - now ∧
      d ≤ deadline ∧ t * left ≤ deadline - d := by
  have hp : 0 < t * ((left : Int) + 1) := Int.mul_pos ht (by omega)
  have hs : GoTime.sub deadline now = deadline - now := GoTime.sub_of_le (by omega) hm
  unfold perAttemptDeadline
  dsimp only
  rw [hs]
  split
  · next hl =>
    have hz : left = 0 := by omega
    subst hz
    refine ⟨deadline,rfl,?_,Int.le_refl _,?_⟩
    · simpa using h
    · simp
  · have hd : (deadline - now).tdiv ((left + 1 : Nat) : Int) =
        (deadline - now) / ((left : Int) + 1) := by
      rw [Int.tdiv_eq_ediv_of_nonneg (by omega)]
      rfl
    have hsh := share_le h
    have hr := remaining_after h
    have hle : (deadline - now) / ((left : Int) + 1) ≤ deadline - now :=
      Int.ediv_le_self _ (by omega)
    refine ⟨_,rfl,?_,Int.min_le_left _ _,?_⟩
    · omega
    · omega

theorem RetryState.excludes_of_has {R : Type} {P : Platform} {T : RetryTurn R} {s : RetryState R}
    {ep : EndpointAddr} (h : (s.exclude P T).endpoints.has ep = true) : s.Excludes ep := by
  unfold exclude Tried.add at h
  by_cases hep : ep = s.ctx.endpoint
  · exact .inl hep
  · rw [GoMap.has,GoMap.get_put_ne _ _ hep] at h
    cases ht : s.tried with
    | none =>
      rw [ht] at h
      cases h
    | some tried =>
      rw [ht] at h
      exact .inr ⟨tried,ht,h⟩

theorem RetryState.nextPool_unlimited {R : Type} {P : Platform} {T : RetryTurn R}
    {s : RetryState R} {operatorAware : Bool} (hc : limiterVerdict s.pendingCause = false)
    (hn : EndpointAddr.exclude (s.exclude P T).pool (s.exclude P T).endpoints ≠ []) :
    ∃ available, s.nextPool P operatorAware T =
      ({ s with tried := some (s.exclude P T) },some available) := by
  unfold nextPool
  dsimp only
  rw [if_neg hn,hc,if_neg (by decide)]
  exact ⟨_,rfl⟩

namespace RetryRequest

variable {R : Type} (P : Platform) (C : RetryConfig) (q : RetryRequest R)

def headsFrom : Nat → Nat → RetryState R → List (Nat × RetryState R)
  | 0,_,_ => []
  | left + 1,attempt,s =>
      (attempt,s) :: match q.retryTurn P C attempt (left + 1) s with
        | (_,.returns _) => []
        | (s,.again) => headsFrom left (attempt + 1) s

def heads : List (Nat × RetryState R) :=
  q.headsFrom P C (C.maxRetries + 1).toNat 0 (.start (q.fillEndpoints q.context))

def FailsRetryably (c : Nat × RelayContext R) : Prop :=
  ∃ err ∈ (q.answered c).answer.err, err.isRetryable = true

def OnTime (c : Nat × RelayContext R) : Prop :=
  (q.turn c.1).now ≤ (q.turn c.1).finished ∧ ∀ d ∈ c.2.deadline, (q.turn c.1).finished ≤ d

def PoolLeft (h : Nat × RetryState R) : Prop :=
  h.1 = 0 ∨ ∀ err ∈ h.2.lastErr, err.errorsIs .endpointsStale = true ∨
    ((h.2.beforeRetry q.recorder err).nextPool P q.operatorAware (q.turn h.1)).2.isSome = true

structure Clocked : Prop where
  start : (q.turn 0).now = q.started
  next : ∀ i, (q.turn (i + 1)).now = (q.turn i).finished
  ended : ∀ i, ∀ d ∈ q.deadline, (q.turn i).ended = decide (d ≤ (q.turn i).now)

variable {P C q} {T : RetryTurn R} {left attempt : Nat} {err : GoError} {s s' : RetryState R}

theorem readied_some (he : T.ended = false)
    (hb : budgetForRetry s.ctx.deadline q.started T.now = true)
    (hp : err.errorsIs .endpointsStale = true ∨
      ((s.beforeRetry q.recorder err).nextPool P q.operatorAware T).2.isSome = true) :
    ∃ s', q.readied P T err s = some s' ∧ s'.ctx.deadline = s.ctx.deadline := by
  unfold readied
  rw [he,hb,if_neg (by decide)]
  dsimp only
  split
  · exact ⟨_,rfl,rfl⟩
  · next hst =>
    have hs := hp.resolve_left hst
    split
    · next hn =>
      rw [hn] at hs
      cases hs
    · next s'' available hp =>
      refine ⟨_,rfl,?_⟩
      rw [(RetryState.nextPool_eq hp).1]
      rfl

theorem readied_none (hb : budgetForRetry s.ctx.deadline q.started T.now = false) :
    q.readied P T err s = none := by
  unfold readied
  rw [hb]
  exact if_pos (Bool.or_true _)

theorem attempt_fails (hC : C.maxLatency = 0)
    (hf : ∃ err ∈ (s.runAttempt T left).answer.err, err.isRetryable = true) :
    s.attempt C q.started T left = (s.ranAttempt T (s.runAttempt T left),.again) ∧
      (s.ranAttempt T (s.runAttempt T left)).lastErr.isSome = true := by
  obtain ⟨err,he,hr⟩ := hf
  unfold RetryState.attempt
  dsimp only
  rw [he]
  dsimp only
  rw [hr,if_neg (by simp),if_neg (by rw [hC]; simp)]
  refine ⟨rfl,?_⟩
  unfold RetryState.ranAttempt
  rw [he]
  rfl

theorem mem_callsFrom (h : q.ready P attempt s = some s') :
    (attempt,s'.callContext (q.turn attempt) (left + 1)) ∈
      q.callsFrom P C (left + 1) attempt s := by
  rw [callsFrom,h]
  exact List.mem_cons_self

theorem callsFrom_again {s'' : RetryState R} (h : q.ready P attempt s = some s')
    (ha : s'.attempt C q.started (q.turn attempt) (left + 1) = (s'',.again)) :
    q.callsFrom P C (left + 1) attempt s =
      (attempt,s'.callContext (q.turn attempt) (left + 1)) ::
        q.callsFrom P C left (attempt + 1) s'' := by
  rw [callsFrom,h]
  dsimp only
  rw [ha]

theorem budget_of_remaining {deadline started now t : Int}
    (hm : deadline - started ≤ GoTime.maxDuration) (hs : started ≤ now)
    (hf : (deadline - started) / 5 ≤ t) (h : t ≤ deadline - now) (hp : 0 ≤ t) :
    budgetForRetry (some deadline) started now = true := by
  unfold budgetForRetry
  dsimp only
  rw [GoTime.sub_of_le (by omega) hm,GoTime.sub_of_le (by omega) (by omega),retryBudgetFraction,
    Int.tdiv_eq_ediv_of_nonneg (by omega)]
  exact decide_eq_true (by omega)

structure Budget (q : RetryRequest R) (deadline t : Int) : Prop where
  set : q.deadline = some deadline
  pos : 0 < t
  bounded : deadline - q.started ≤ GoTime.maxDuration
  fifth : (deadline - q.started) / retryBudgetFraction ≤ t

theorem ready_some {deadline t : Int} (hq : q.Budget deadline t) (hc : q.Clocked)
    (hct : s.ctx.deadline = some deadline) (hl : attempt ≠ 0 → s.lastErr.isSome = true)
    (hs : q.started ≤ (q.turn attempt).now) (hr : t ≤ deadline - (q.turn attempt).now)
    (hp : q.PoolLeft P (attempt,s)) :
    ∃ s', q.ready P attempt s = some s' ∧ s'.ctx.deadline = some deadline := by
  cases attempt with
  | zero => exact ⟨s,rfl,hct⟩
  | succ n =>
    obtain ⟨err,her⟩ := Option.isSome_iff_exists.mp (hl (by omega))
    have hpo := hq.pos
    have he : (q.turn (n + 1)).ended = false := by
      rw [hc.ended (n + 1) deadline hq.set]
      exact decide_eq_false (by omega)
    have hb : budgetForRetry s.ctx.deadline q.started (q.turn (n + 1)).now = true := by
      rw [hct]
      exact budget_of_remaining hq.bounded hs hq.fifth hr (by omega)
    obtain ⟨s',hs',hd⟩ := readied_some he hb
      (hp.resolve_left (by simp) err her)
    refine ⟨s',?_,hd.trans hct⟩
    unfold ready
    rw [her]
    exact hs'

theorem callsFrom_budget {deadline t : Int} (hC : C.maxLatency = 0) (hq : q.Budget deadline t)
    (hcl : q.Clocked) (left attempt : Nat) (s : RetryState R)
    (hct : s.ctx.deadline = some deadline) (hla : attempt ≠ 0 → s.lastErr.isSome = true)
    (hs : q.started ≤ (q.turn attempt).now)
    (hre : t * left ≤ deadline - (q.turn attempt).now)
    (hf : ∀ c ∈ q.callsFrom P C left attempt s, q.FailsRetryably c)
    (ho : ∀ c ∈ q.callsFrom P C left attempt s, q.OnTime c)
    (hp : ∀ h ∈ q.headsFrom P C left attempt s, q.PoolLeft P h) :
    (q.callsFrom P C left attempt s).length = left ∧
      ∀ c ∈ q.callsFrom P C left attempt s, ∃ d, c.2.deadline = some d ∧
        t ≤ d - (q.turn c.1).now ∧ (q.turn c.1).finished ≤ deadline := by
  induction left generalizing attempt s with
  | zero => exact ⟨rfl,fun c hc => absurd hc List.not_mem_nil⟩
  | succ left ih =>
    have hpo := hq.pos
    have hr' : t * ((left : Int) + 1) ≤ deadline - (q.turn attempt).now := by exact_mod_cast hre
    have hm : 0 ≤ t * (left : Int) := Int.mul_nonneg (by omega) (by omega)
    have hon : t ≤ deadline - (q.turn attempt).now := by
      rw [Int.mul_add] at hr'
      omega
    obtain ⟨hhe,hh⟩ := List.forall_mem_cons.mp hp
    obtain ⟨s',hr,hc'⟩ := ready_some hq hcl hct hla hs hon hhe
    obtain ⟨d,hd,hsh,hle,haf⟩ := perAttemptDeadline_share hpo
      (by have := hq.bounded; omega) hr'
    have hca : (s'.callContext (q.turn attempt) (left + 1)).deadline = some d := by
      rw [← hd,← hc']
      rfl
    have hfa := hf _ (mem_callsFrom hr)
    obtain ⟨hsp,ht⟩ := ho _ (mem_callsFrom hr)
    have ht := ht d hca
    obtain ⟨ha,hl'⟩ := attempt_fails (q := q) (s := s') (T := q.turn attempt) hC hfa
    rw [callsFrom_again hr ha] at hf ho ⊢
    rw [retryTurn_of_some hr,ha] at hh
    have hn := hcl.next attempt
    dsimp only at hsp ht
    obtain ⟨hl,hal⟩ := ih (attempt + 1)
      (s'.ranAttempt (q.turn attempt) (s'.runAttempt (q.turn attempt) (left + 1)))
      hc' (fun _ => hl') (by omega) (by omega) (List.forall_mem_cons.mp hf).2
      (List.forall_mem_cons.mp ho).2 hh
    refine ⟨congrArg (· + 1) hl,List.forall_mem_cons.mpr ⟨⟨d,hca,hsh,?_⟩,hal⟩⟩
    dsimp only
    omega

theorem context_deadline : (q.fillEndpoints q.context).deadline = q.deadline := by
  unfold fillEndpoints
  split
  · rfl
  · rfl

theorem every_attempt_gets_its_timeout (q : RetryRequest R) (t : Int) (n : Nat) (ht : 0 < t)
    (hmax : t * ((n : Int) + 1) ≤ GoTime.maxDuration) (harm : q.quorumArm = false)
    (hflag : q.retryFlag = true)
    (hdeadline : q.deadline = timeoutDeadline none q.started (attemptScaledTimeout t (some n)))
    (hclock : q.Clocked) (hfails : ∀ c ∈ q.calls P ⟨n,0⟩, q.FailsRetryably c)
    (honTime : ∀ c ∈ q.calls P ⟨n,0⟩, q.OnTime c)
    (hpool : ∀ h ∈ q.heads P ⟨n,0⟩, q.PoolLeft P h)
    (hfifth : t * ((n : Int) + 1) / retryBudgetFraction ≤ t) :
    (q.calls P ⟨n,0⟩).length = n + 1 ∧
      ∀ c ∈ q.calls P ⟨n,0⟩, ∃ d, c.2.deadline = some d ∧ t ≤ d - (q.turn c.1).now ∧
        (q.turn c.1).finished ≤ q.started + t * ((n : Int) + 1) := by
  have hm : 0 < t * ((n : Int) + 1) := Int.mul_pos ht (by omega)
  have hset : q.deadline = some (q.started + t * ((n : Int) + 1)) :=
    hdeadline.trans (timeoutDeadline_scaled ht hmax q.started)
  have hs : q.started + t * ((n : Int) + 1) - q.started = t * ((n : Int) + 1) := by omega
  have hb : q.Budget (q.started + t * ((n : Int) + 1)) t := by
    refine ⟨hset,ht,?_,?_⟩
    · rwa [hs]
    · rwa [hs]
  unfold calls at hfails honTime ⊢
  rw [harm,hflag] at hfails honTime ⊢
  cases n with
  | zero =>
    obtain ⟨⟨-,hti⟩,-⟩ := List.forall_mem_cons.mp honTime
    refine ⟨rfl,List.forall_mem_cons.mpr ⟨⟨_,hset,?_,hti _ hset⟩,List.forall_mem_nil _⟩⟩
    rw [show (q.turn (0,q.context).1).now = q.started from hclock.start]
    omega
  | succ n =>
    refine callsFrom_budget rfl hb hclock (n + 1 + 1) 0 _ ?_ (by simp) ?_ ?_ hfails honTime hpool
    · exact context_deadline.trans hset
    · exact Int.le_of_eq hclock.start.symm
    · rw [hclock.start,hs]
      exact_mod_cast Int.le_refl _

def steadyEndpoint (i : Nat) : EndpointAddr := List.replicate (i + 1) 'a'

def steadyRequest (t : Int) (n : Nat) : RetryRequest Nat where
  quorumArm := false
  retryFlag := true
  operatorAware := false
  recorder := false
  deadline := timeoutDeadline none 0 (attemptScaledTimeout t (some n))
  endpoints := steadyEndpoint (n + 1) :: (List.range (n + 1)).map steadyEndpoint
  availableEndpoints := none
  started := 0
  turn i :=
    { now := i * t
      ended := (timeoutDeadline none 0 (attemptScaledTimeout t (some n))).any
        fun d => decide (d ≤ i * t)
      owners := .new, vouched := none, allStale := none
      archivalRetry := false, retainingEndpoints := none, onProbation := fun _ => false
      handleRelay := fun ctx => .unanswered (steadyEndpoint i) ctx.endpoints HedgeRace.timedOut
      finished := (i + 1) * t }

theorem steadyRequest_clocked (t : Int) (n : Nat) : (steadyRequest t n).Clocked := by
  refine ⟨Int.zero_mul t,fun i => ?_,fun i d hd => ?_⟩
  · rfl
  · change (timeoutDeadline none 0 (attemptScaledTimeout t (some n))).any _ = _
    rw [show timeoutDeadline none 0 (attemptScaledTimeout t (some n)) = some d from hd]
    rfl

theorem steadyRequest_fails (t : Int) (n : Nat) (c : Nat × RelayContext Nat) :
    (steadyRequest t n).FailsRetryably c := ⟨HedgeRace.timedOut,rfl,rfl⟩

theorem steadyRequest_deadline {t : Int} {n : Nat} (ht : 0 < t)
    (hm : t * ((n : Int) + 1) ≤ GoTime.maxDuration) :
    (steadyRequest t n).deadline = some (t * ((n : Int) + 1)) :=
  (timeoutDeadline_scaled ht hm 0).trans (congrArg some (Int.zero_add _))

theorem steadyEndpoint_inj {i j : Nat} (h : steadyEndpoint i = steadyEndpoint j) : i = j := by
  have hl := congrArg List.length h
  unfold steadyEndpoint at hl
  rw [List.length_replicate,List.length_replicate] at hl
  omega

-- Every attempt takes an endpoint of its own and the pool holds one more than the attempts need.
structure Steady (t : Int) (n : Nat) (s : RetryState Nat) : Prop where
  deadline : s.ctx.deadline = (steadyRequest t n).deadline
  failed : ∀ err ∈ s.lastErr, err = HedgeRace.timedOut
  ungraded : s.ctx.heuristicResult = none
  untried : ¬ s.Excludes (steadyEndpoint (n + 1))
  pooled : steadyEndpoint (n + 1) ∈ (s.tried.map (·.pool)).getD s.ctx.endpoints

namespace Steady

variable {t : Int} {n i : Nat} {s s' : RetryState Nat} {T : RetryTurn Nat}

theorem start (t : Int) (n : Nat) : Steady t n (.start (steadyRequest t n).context) where
  deadline := rfl
  failed err he := by cases he
  ungraded := rfl
  untried h := by
    rcases h with he | ⟨tried,ht,-⟩
    · cases he
    · cases ht
  pooled := List.mem_cons_self

theorem exclude_pool (h : Steady t n s) : steadyEndpoint (n + 1) ∈ (s.exclude P T).pool := by
  have hp := h.pooled
  unfold RetryState.exclude
  cases ht : s.tried with
  | none => rwa [ht] at hp
  | some tried => rwa [ht] at hp

theorem available (h : Steady t n s) : steadyEndpoint (n + 1) ∈
    EndpointAddr.exclude (s.exclude P T).pool (s.exclude P T).endpoints := by
  unfold EndpointAddr.exclude
  split
  · exact h.exclude_pool
  · refine List.mem_filter.mpr ⟨h.exclude_pool,?_⟩
    rw [Bool.not_eq_true',Bool.eq_false_iff]
    exact fun hh => h.untried (RetryState.excludes_of_has hh)

theorem nextPool (h : Steady t n s) : ∃ available,
    (s.beforeRetry false HedgeRace.timedOut).nextPool P false ((steadyRequest t n).turn i) =
      ({ s.beforeRetry false HedgeRace.timedOut with
          tried := some (s.exclude P ((steadyRequest t n).turn i)) },some available) := by
  have hc : limiterVerdict (retryCause s.ctx.heuristicResult HedgeRace.timedOut) = false := by
    rw [h.ungraded]
    decide
  exact RetryState.nextPool_unlimited hc (List.ne_nil_of_mem h.available)

theorem poolLeft (h : Steady t n s) : (steadyRequest t n).PoolLeft P (i,s) := by
  refine .inr fun err he => .inr ?_
  obtain ⟨available,hp⟩ := h.nextPool (P := P) (i := i)
  rw [h.failed err he]
  exact congrArg (fun p => p.2.isSome) hp

theorem ready (h : Steady t n s) (hr : (steadyRequest t n).ready P i s = some s') :
    Steady t n s' := by
  cases i with
  | zero =>
    cases hr
    exact h
  | succ i =>
    obtain ⟨err,he,hr⟩ := Option.bind_eq_some_iff.mp hr
    obtain rfl := h.failed err he
    obtain ⟨available,hp⟩ := h.nextPool (P := P) (i := i + 1)
    obtain ⟨-,hr⟩ := Option.ite_none_left_eq_some.mp hr
    dsimp only at hr
    rw [if_neg (by decide),show (steadyRequest t n).recorder = false from rfl,
      show (steadyRequest t n).operatorAware = false from rfl,hp] at hr
    cases hr
    refine ⟨h.deadline,h.failed,rfl,?_,?_⟩
    · rintro (hs | ⟨tried,ht,hh⟩)
      · cases hs
      · cases ht
        exact h.untried (RetryState.excludes_of_has hh)
    · exact h.exclude_pool

theorem ranAttempt (h : Steady t n s) (hi : i ≤ n) (left : Nat) :
    let T := (steadyRequest t n).turn i
    Steady t n (s.ranAttempt T (s.runAttempt T left)) where
  deadline := h.deadline
  failed err he := (Option.some.inj he).symm
  ungraded := rfl
  untried hs := by
    rcases hs with he | hs
    · have := steadyEndpoint_inj he
      omega
    · exact h.untried (.inr hs)
  pooled := h.pooled

theorem onTime (h : Steady t n s) (ht : 0 < t) (hm : t * ((n : Int) + 1) ≤ GoTime.maxDuration)
    {left : Nat} (hi : i + left = n) :
    (steadyRequest t n).OnTime (i,s.callContext ((steadyRequest t n).turn i) (left + 1)) := by
  have hr : t * ((n : Int) + 1) - i * t = t * ((left : Int) + 1) := by
    subst hi
    push_cast
    grind
  have hp : 0 ≤ (i : Int) * t := Int.mul_nonneg (by omega) (by omega)
  have hb : t * ((n : Int) + 1) - i * t ≤ GoTime.maxDuration := by omega
  obtain ⟨d,hd,hle,-⟩ := perAttemptDeadline_share ht hb (Int.le_of_eq hr.symm)
  have hf : ((i : Int) + 1) * t = i * t + t := by grind
  refine ⟨?_,fun d' hd' => ?_⟩
  · change (i : Int) * t ≤ (i + 1) * t
    omega
  · obtain rfl : d = d' := by
      refine Option.some.inj (hd.symm.trans (Eq.trans ?_ hd'))
      rw [← steadyRequest_deadline ht hm,← h.deadline]
      rfl
    change ((i : Int) + 1) * t ≤ d
    omega

theorem attempt_again (hC : C.maxLatency = 0) (i left : Nat) (s : RetryState Nat) :
    let T := (steadyRequest t n).turn i
    s.attempt C (steadyRequest t n).started T left =
      (s.ranAttempt T (s.runAttempt T left),.again) :=
  (attempt_fails (q := steadyRequest t n) hC ⟨HedgeRace.timedOut,rfl,rfl⟩).1

theorem run (hC : C.maxLatency = 0) (ht : 0 < t)
    (hm : t * ((n : Int) + 1) ≤ GoTime.maxDuration) (left i : Nat)
    (s : RetryState Nat) (h : Steady t n s) (hi : i + left = n + 1) :
    (∀ c ∈ (steadyRequest t n).callsFrom P C left i s, (steadyRequest t n).OnTime c) ∧
      ∀ h ∈ (steadyRequest t n).headsFrom P C left i s, (steadyRequest t n).PoolLeft P h := by
  induction left generalizing i s with
  | zero => exact ⟨List.forall_mem_nil _,List.forall_mem_nil _⟩
  | succ left ih =>
    cases hr : (steadyRequest t n).ready P i s with
    | none =>
      obtain ⟨s',e,he,-⟩ := retryTurn_of_none C (left + 1) hr
      unfold callsFrom headsFrom
      rw [hr,he]
      exact ⟨List.forall_mem_nil _,List.forall_mem_cons.mpr ⟨h.poolLeft,List.forall_mem_nil _⟩⟩
    | some s' =>
      have hs := h.ready hr
      have ha := attempt_again (t := t) (n := n) hC i (left + 1) s'
      have hl : i + left = n := by omega
      obtain ⟨hcs,hps⟩ := ih (i + 1) _ (hs.ranAttempt (i := i) (by omega) (left + 1)) (by omega)
      rw [callsFrom_again hr ha]
      unfold headsFrom
      rw [retryTurn_of_some hr,ha]
      exact ⟨List.forall_mem_cons.mpr ⟨hs.onTime ht hm hl,hcs⟩,
        List.forall_mem_cons.mpr ⟨h.poolLeft,hps⟩⟩

theorem last_unready (h : Steady t n s) (ht : 0 < t)
    (hm : t * ((n : Int) + 1) ≤ GoTime.maxDuration)
    (hf : t < t * ((n : Int) + 1) / retryBudgetFraction) :
    (steadyRequest t n).ready P n s = none := by
  unfold retryBudgetFraction at hf
  have hb : budgetForRetry (some (t * ((n : Int) + 1))) 0 (n * t) = false := by
    have hr : t * ((n : Int) + 1) - n * t = t := by grind
    have hp : 0 < t * ((n : Int) + 1) := Int.mul_pos ht (by omega)
    have hq : 0 ≤ (n : Int) * t := Int.mul_nonneg (by omega) (by omega)
    unfold budgetForRetry retryBudgetFraction
    dsimp only
    rw [GoTime.sub_of_le (by omega) (by omega),GoTime.sub_of_le (by omega) (by omega),hr,
      Int.sub_zero,Int.tdiv_eq_ediv_of_nonneg (by omega)]
    exact decide_eq_false (by omega)
  cases n with
  | zero => omega
  | succ n =>
    unfold RetryRequest.ready
    cases s.lastErr with
    | none => rfl
    | some err =>
      refine readied_none ?_
      rw [h.deadline,steadyRequest_deadline ht hm]
      exact hb

theorem callsFrom_length (hC : C.maxLatency = 0) (ht : 0 < t)
    (hm : t * ((n : Int) + 1) ≤ GoTime.maxDuration)
    (hf : t < t * ((n : Int) + 1) / retryBudgetFraction) (left i : Nat) (s : RetryState Nat)
    (h : Steady t n s) (hi : i + left = n) :
    ((steadyRequest t n).callsFrom P C (left + 1) i s).length ≤ left := by
  induction left generalizing i s with
  | zero =>
    obtain rfl : i = n := hi
    unfold callsFrom
    rw [h.last_unready ht hm hf]
    exact Nat.le_refl 0
  | succ left ih =>
    cases hr : (steadyRequest t n).ready P i s with
    | none =>
      unfold callsFrom
      rw [hr]
      exact Nat.zero_le _
    | some s' =>
      have hn := (h.ready hr).ranAttempt (i := i) (by omega) (left + 1 + 1)
      rw [callsFrom_again hr (attempt_again hC i (left + 1 + 1) s')]
      exact Nat.succ_le_succ (ih (i + 1) _ hn (by omega))

end Steady

theorem steadyRequest_calls (P : Platform) (t : Int) {n : Nat} (hn : 0 < n) :
    (steadyRequest t n).calls P ⟨n,0⟩ =
      (steadyRequest t n).callsFrom P ⟨n,0⟩ (n + 1) 0 (.start (steadyRequest t n).context) := by
  unfold calls
  exact if_neg (by simp [steadyRequest]; omega)

theorem last_attempt_is_refused (P : Platform) (t : Int) (n : Nat) (ht : 0 < t)
    (hmax : t * ((n : Int) + 1) ≤ GoTime.maxDuration)
    (hfifth : t < t * ((n : Int) + 1) / retryBudgetFraction) :
    (steadyRequest t n).Clocked ∧
      (∀ c ∈ (steadyRequest t n).calls P ⟨n,0⟩,
        (steadyRequest t n).FailsRetryably c ∧ (steadyRequest t n).OnTime c) ∧
      (∀ h ∈ (steadyRequest t n).heads P ⟨n,0⟩, (steadyRequest t n).PoolLeft P h) ∧
      ((steadyRequest t n).calls P ⟨n,0⟩).length ≤ n := by
  have hn : 0 < n := by
    unfold retryBudgetFraction at hfifth
    rcases Nat.eq_zero_or_pos n with rfl | hp
    · omega
    · exact hp
  have hc := steadyRequest_calls P t hn
  obtain ⟨ho,hp⟩ := Steady.run (P := P) (C := ⟨n,0⟩) rfl ht hmax (n + 1) 0 _ (.start t n) (by omega)
  refine ⟨steadyRequest_clocked t n,fun c h => ⟨steadyRequest_fails t n c,?_⟩,?_,?_⟩
  · exact ho c (hc ▸ h)
  · exact hp
  · rw [hc]
    exact Steady.callsFrom_length rfl ht hmax hfifth n 0 _ (.start t n) (by omega)

theorem sixth_attempt_is_refused :
    (steadyRequest GoTime.second 5).Clocked ∧
      (∀ c ∈ (steadyRequest GoTime.second 5).calls asciiPlatform ⟨5,0⟩,
        (steadyRequest GoTime.second 5).FailsRetryably c ∧
        (steadyRequest GoTime.second 5).OnTime c) ∧
      (∀ h ∈ (steadyRequest GoTime.second 5).heads asciiPlatform ⟨5,0⟩,
        (steadyRequest GoTime.second 5).PoolLeft asciiPlatform h) ∧
      (steadyRequest GoTime.second 5).deadline = some (6 * GoTime.second) ∧
      ((steadyRequest GoTime.second 5).calls asciiPlatform ⟨5,0⟩).length = 5 := by
  obtain ⟨hc,ho,hp,-⟩ := last_attempt_is_refused asciiPlatform GoTime.second 5 (by decide)
    (by decide) (by decide)
  exact ⟨hc,ho,hp,by decide +kernel,by decide +kernel⟩

theorem four_retries_get_a_second_each :
    ((steadyRequest GoTime.second 4).calls asciiPlatform ⟨4,0⟩).length = 5 ∧
      ∀ c ∈ (steadyRequest GoTime.second 4).calls asciiPlatform ⟨4,0⟩,
        ∃ d, c.2.deadline = some d ∧
          GoTime.second ≤ d - ((steadyRequest GoTime.second 4).turn c.1).now ∧
          ((steadyRequest GoTime.second 4).turn c.1).finished ≤ 0 + GoTime.second * (4 + 1) := by
  obtain ⟨ho,hp⟩ := Steady.run (P := asciiPlatform) (C := ⟨4,0⟩) rfl (by decide) (by decide) (4 + 1)
    0 _ (.start GoTime.second 4) (by decide)
  refine every_attempt_gets_its_timeout (P := asciiPlatform) (steadyRequest GoTime.second 4)
    GoTime.second 4 (by decide) (by decide) rfl rfl rfl (steadyRequest_clocked _ _)
    (fun c _ => steadyRequest_fails _ _ c) ?_ ?_ (by decide)
  · exact steadyRequest_calls asciiPlatform GoTime.second (n := 4) (by decide) ▸ ho
  · exact hp

end RetryRequest

end SageGateway
