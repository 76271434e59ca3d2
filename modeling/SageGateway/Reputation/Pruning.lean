import SageGateway.Reputation.Live

namespace SageGateway.Reputation

variable {F : Type} [Field F] [LinearOrder F]

structure ChargedView.SeedsBelow (initial : F) (v : ChargedView F) : Prop where
  operator : ∀ id seed, v.opSeed.get id = some seed → seed < initial
  party : ∀ id seed, v.partySeed.get id = some seed → seed < initial

omit [Field F] in
theorem ChargedView.lowerSeed_cases {op party : Option F} {seed : F}
    (h : lowerSeed op party = some seed) : op = some seed ∨ party = some seed := by
  unfold lowerSeed at h
  split at h
  · split_ifs at h
    · exact .inr h
    · exact .inl h
  · exact .inl h
  · exact .inr h

theorem ChargedView.SeedsBelow.seedFor {initial : F} {v : ChargedView F} (h : v.SeedsBelow initial)
    {o : Owners} {svc op rpc : GoString} {seed : F} (hs : v.seedFor o svc op rpc = some seed) :
    seed < initial := by
  rcases lowerSeed_cases (Option.eq_some_of_filter_eq_some hs) with hop | hp
  · exact h.operator _ _ hop
  · exact h.party _ _ hp

namespace Live

variable {E : Env F} {s s' : Live F}

structure Seeded (E : Env F) (s : Live F) : Prop where
  below : ∀ v, s.chronic = some v → v.SeedsBelow E.cfg.initialScore

theorem Seeded.seed_lt (h : s.Seeded E) {svc key : GoString} {seed : F}
    (hs : s.seedFor E svc key = some seed) : seed < E.cfg.initialScore := by
  unfold seedFor at hs
  split at hs
  · cases hs
  · next v hv => exact (h.below v hv).seedFor hs

section Frames

theorem chronic_loadState (id : Id) (st : State F) : (s.loadState E id st).chronic = s.chronic := by
  unfold loadState room
  dsimp only
  split_ifs <;> rfl

theorem chronic_adopt (now : Int) (e : GoString × State F) :
    (s.adopt E now e).chronic = s.chronic := by
  unfold adopt
  split
  · split_ifs
    · exact chronic_loadState _ _
    · rfl
  · rfl

theorem chronic_hydrate (now : Int) (order : List (GoString × State F)) :
    (order.foldl (adopt E now) s).chronic = s.chronic := by
  induction order generalizing s with
  | nil => rfl
  | cons e order ih => exact ih.trans (chronic_adopt now e)

end Frames

theorem seeded_refresh (now : Int) (gates : Gates) (prices : Prices F)
    (stats : GoMap OpID (OperatorStat F)) {s' : Live F}
    (h : s.step E (.refresh now gates prices stats) = some s') : s'.Seeded E := by
  cases h
  refine ⟨fun v hv => ?_⟩
  cases hv
  exact ⟨fun _ _ => seedsOf_lt,fun _ _ => seedsOf_lt⟩

theorem seeded_step {a : Act F} (hs : s.Seeded E) (h : s.step E a = some s') : s'.Seeded E := by
  cases a with
  | record now svc endpoint t signal | rebase svc endpoints t =>
    cases h
    exact ⟨hs.below⟩
  | reset now order svc target | flush now order =>
    obtain ⟨-,rfl⟩ := Run.guard_pos h
    exact ⟨hs.below⟩
  | hydrate now order =>
    obtain ⟨-,rfl⟩ := Run.guard_pos h
    exact ⟨fun v hv => hs.below v ((chronic_hydrate now order).symm.trans hv)⟩
  | refresh now gates prices stats => exact seeded_refresh now gates prices stats h
  | retune impact rate selector | own supplier owner operator =>
    cases h
    exact ⟨hs.below⟩

theorem seeded_reaches {ok : Live F → Act F → Prop} {s₀ : Live F} (h₀ : s₀.chronic = none)
    (h : Run.Reaches (step E) ok s₀ s) : s.Seeded E := by
  refine h.invariant (Seeded E) ⟨fun v hv => ?_⟩ fun _ _ _ hs _ hst => seeded_step hs hst
  cases h₀.symm.trans hv

structure Drops (E : Env F) (s : Live F) (svc : ServiceName) (key : GoString) (id : Id)
    (st : State F) : Prop where
  cached : s.store.cache.get id = some st
  shard : inShard E.cfg svc key id = true
  initial : st.score = E.cfg.initialScore
  free : s.penalty E st.rate = 0

section Evictions

variable {svc : ServiceName} {key : GoString} {id : Id} {st : State F}

theorem get_prune_of_drops (h : s.Drops E svc key id st) :
    (s.prune E svc key).store.cache.get id = none := by
  refine (GoMap.get_filter _ _ _).trans ?_
  rw [h.cached,Option.filter_some]
  simp [h.shard,h.initial,scoring,h.free]

theorem get_prune_of_keeps (h : ∀ st, ¬s.Drops E svc key id st) :
    (s.prune E svc key).store.cache.get id = s.store.cache.get id := by
  refine (GoMap.get_filter _ _ _).trans ?_
  cases hst : s.store.cache.get id with
  | none => rfl
  | some st =>
    by_contra hd
    simp at hd
    exact h st ⟨hst,hd.1.1,hd.1.2,hd.2⟩

theorem stateFor_of_drops (h : s.Drops E svc key id st) : s.stateFor E id.1 id.2 = st := by
  show (s.store.cache.get id).getD _ = st
  rw [h.cached]
  rfl

theorem stateFor_prune_of_drops (h : s.Drops E svc key id st) :
    (s.prune E svc key).stateFor E id.1 id.2 = .start (s.initialScore E id.1 id.2) := by
  show ((s.prune E svc key).store.cache.get id).getD _ = _
  rw [get_prune_of_drops h]
  rfl

theorem stateFor_prune_of_keeps (h : ∀ st, ¬s.Drops E svc key id st) :
    (s.prune E svc key).stateFor E id.1 id.2 = s.stateFor E id.1 id.2 := by
  show ((s.prune E svc key).store.cache.get id).getD _ = (s.store.cache.get id).getD _
  rw [get_prune_of_keeps h]
  rfl

end Evictions

-- Two rates of the key's own can only differ where no operator's rate overrides them.
theorem rateFor_cases (svc key : GoString) (rate rate' : F) :
    s.rateFor svc key rate = s.rateFor svc key rate' ∨
      s.rateFor svc key rate = rate ∧ s.rateFor svc key rate' = rate' := by
  unfold rateFor
  cases s.chronic with
  | none => exact .inr ⟨rfl,rfl⟩
  | some v =>
    cases hop : (v.opOn.get svc).getD false with
    | false => exact .inr ⟨by simp [hop],by simp [hop]⟩
    | true =>
      cases hby : v.byKey.get (svc,key) with
      | none => exact .inr ⟨by simp [hby],by simp [hby]⟩
      | some r => exact .inl (by simp [hop,hby])

theorem penaltyFor_of_free {svc key : GoString} {rate rate' : F} (h : s.penalty E rate = 0)
    (h' : s.penalty E rate' = 0) : s.penaltyFor E svc key rate = s.penaltyFor E svc key rate' := by
  unfold penaltyFor
  rcases s.rateFor_cases svc key rate rate' with hs | ⟨ho,ho'⟩
  · rw [hs]
  · rw [ho,ho',h,h']

theorem scoreWith_of_free {svc key : GoString} {st st' : State F} (hs : st.score = st'.score)
    (h : s.penalty E st.rate = 0) (h' : s.penalty E st'.rate = 0) (party : F) :
    s.scoreWith E svc key st party = s.scoreWith E svc key st' party := by
  rw [scoreWith,scoreWith,penaltyFor_of_free h h',hs]

structure Agree (E : Env F) (s s' : Live F) : Prop where
  selector : ∀ svc ep t methodClass,
    s'.scoreForSelector E svc ep t methodClass = s.scoreForSelector E svc ep t methodClass
  score : ∀ svc ep t, s'.getScore E svc ep t = s.getScore E svc ep t
  next : ∀ svc key, (s'.stateFor E svc key).score = (s.stateFor E svc key).score

section Unseeded

variable {svc : ServiceName} {key : GoString}

theorem initialScore_of_unseeded {svc : ServiceName} {key : GoString}
    (h : s.seedFor E svc.1 key = none) : s.initialScore E svc key = E.cfg.initialScore := by
  rw [initialScore,h]
  rfl

def Unseeded (E : Env F) (s : Live F) (svc : ServiceName) (key : GoString) : Prop :=
  ∀ id st, s.Drops E svc key id st → s.seedFor E id.1.1 id.2 = none

theorem unseeded_of_ungated (h : ∀ v, s.chronic = some v → v.seedOn.len = 0 ∧ v.seedGate = none) :
    s.Unseeded E svc key := by
  intro id st _
  unfold seedFor
  cases hv : s.chronic with
  | none => rfl
  | some v =>
    obtain ⟨hon,hg⟩ := h v hv
    have hc : ChargedView.gateAt id.1.1 v.seedOn v.seedGate = false := by
      rw [ChargedView.gateAt,GoMap.get_of_len_zero hon,hg]
      rfl
    rw [Option.eq_none_iff_forall_ne_some]
    intro seed hs
    have ho := (Option.filter_eq_some_iff.mp hs).2
    cases hc.symm.trans ho

theorem score_prune (h : s.Unseeded E svc key) (id : Id) :
    ((s.prune E svc key).stateFor E id.1 id.2).score = (s.stateFor E id.1 id.2).score := by
  by_cases hd : ∃ st, s.Drops E svc key id st
  · obtain ⟨st,hst⟩ := hd
    rw [stateFor_prune_of_drops hst,stateFor_of_drops hst,hst.initial]
    exact initialScore_of_unseeded (h id st hst)
  · rw [stateFor_prune_of_keeps (not_exists.mp hd)]

theorem Agree.unseeded (hs : s.Seeded E) (h : Agree E s (s.prune E svc key)) :
    s.Unseeded E svc key := by
  intro id st hst
  cases hse : s.seedFor E id.1.1 id.2 with
  | none => rfl
  | some seed =>
    have hn := h.next id.1 id.2
    rw [stateFor_prune_of_drops hst,stateFor_of_drops hst,hst.initial] at hn
    have hsa : s.initialScore E id.1 id.2 = seed := by
      rw [initialScore,hse]
      rfl
    exact absurd (hsa.symm.trans hn) (ne_of_lt (hs.seed_lt hse))

variable [IsStrictOrderedRing F]

theorem penalty_zero : s.penalty E 0 = 0 := s.rate.normalized_ordered.penalty_zero

theorem scoreWith_prune (h : s.Unseeded E svc key) (id : Id) (party : F) :
    s.scoreWith E id.1.1 id.2 ((s.prune E svc key).stateFor E id.1 id.2) party =
      s.scoreWith E id.1.1 id.2 (s.stateFor E id.1 id.2) party := by
  by_cases hd : ∃ st, s.Drops E svc key id st
  · obtain ⟨st,hst⟩ := hd
    refine scoreWith_of_free (score_prune h id) ?_ ?_ party
    · rw [stateFor_prune_of_drops hst]
      exact penalty_zero
    · rw [stateFor_of_drops hst]
      exact hst.free
  · rw [stateFor_prune_of_keeps (not_exists.mp hd)]

theorem agree_of_unseeded (h : s.Unseeded E svc key) : Agree E s (s.prune E svc key) where
  selector svc' ep t methodClass := by
    have hw := scoreWith_prune h (svc',E.cfg.keyOf ep t)
    by_cases hc : s.classesCharged = true
    · exact (if_pos hc).trans ((hw _).trans (if_pos hc).symm)
    · exact (if_neg hc).trans ((hw _).trans (if_neg hc).symm)
  score svc' ep t := scoreWith_prune h (svc',E.cfg.keyOf ep t) _
  next svc' key' := score_prune h (svc',key')

end Unseeded

variable [IsStrictOrderedRing F]

theorem pruning_is_invisible_iff_no_dropped_key_is_seeded {ok : Live F → Act F → Prop}
    {storage : GoMap GoString (State F)} {impact : SignalType → F} {rate : RateConfig F}
    {selector : SelectorConfig F} {owners : Owners}
    (h : Run.Reaches (step E) ok (start storage impact rate selector owners) s)
    (svc : ServiceName) (key : GoString) :
    Agree E s (s.prune E svc key) ↔ s.Unseeded E svc key :=
  ⟨Agree.unseeded (seeded_reaches rfl h),agree_of_unseeded⟩

section Rollout

def urlKey (ep : EndpointAddr) (t : RPCType) : GoString := (EndpointAddr.url ep).getD
    [] ++ '|' :: t.text

def rolloutEnv : Env ℚ where
  cfg := ⟨100,100,1 / 2,fun b n => Nat.repeat (b * ·) n.toNat 1,fun _ => 1,
    fun n => n / 1000000,1 / 20,urlKey,intConfig.shardOf,true,true⟩
  maxScore_eq := rfl
  platform := asciiPlatform
  log10 := ⟨fun x => x - 1,fun _ h => sub_pos.mpr h⟩
  ln2 := 7 / 10
  opMath := ⟨fun _ _ => 1,100⟩
  stateIdleTTL := 3600000000000

def rolloutImpact : SignalType → ℚ
  | .success => 1
  | .minorError => -1
  | .majorError => -5
  | .criticalError => -25
  | .fatalError => -50

def rolloutStart : Live ℚ :=
  start ∅ rolloutImpact ⟨0,0,0⟩ ⟨80,50,10,30,10,5⟩ .new

def hostOne : EndpointAddr := "s1-https://r1.a.io".toList

def hostTwo : EndpointAddr := "s2-https://r2.a.io".toList

def hostThree : EndpointAddr := "s3-https://r3.a.io".toList

def attempt (ep : EndpointAddr) (type : SignalType) : Act ℚ :=
  .record 1000000000000 ethService ep .jsonRPC ⟨type,none,0,[],false,false,1⟩

def refreshed (seed : ServiceGate) : Act ℚ :=
  .refresh 1000000000000 ⟨none,none,none,none,none,seed⟩ ⟨[],[],[],[],[],[]⟩ ∅

-- One host of the operator answers, the two others are down.
def rollout (seed : ServiceGate) : List (Act ℚ) :=
  [attempt hostOne .success,attempt hostTwo .fatalError,attempt hostTwo .fatalError,
    attempt hostThree .fatalError,attempt hostThree .fatalError,refreshed seed]

def scoresOf (s : Live ℚ) : ℚ × ℚ × ℚ :=
  (s.scoreForSelector rolloutEnv ethService hostOne .jsonRPC [],
    s.getScore rolloutEnv ethService hostOne .jsonRPC,
    (s.stateFor rolloutEnv ethService (urlKey hostOne .jsonRPC)).score)

theorem pruned_host_falls_to_its_operators_seed :
    ∃ s, Run.Reaches (step rolloutEnv) (fun _ _ => True) rolloutStart s ∧
      scoresOf s = (100,100,100) ∧
      scoresOf (s.prune rolloutEnv ethService (urlKey hostOne .jsonRPC)) = (0,0,0) :=
  Run.reaches (rollout (some fun _ => true)) (by decide +kernel)

def seedGateOf (s : Live ℚ) : Option (Nat × Bool) :=
  s.chronic.map fun v => (v.seedOn.len,v.seedGate.isNone)

theorem pruning_an_unseeded_host_is_invisible :
    ∃ s, Run.Reaches (step rolloutEnv) (fun _ _ => True) rolloutStart s ∧
      (s.prune rolloutEnv ethService (urlKey hostOne .jsonRPC)).store.cache.get
        (ethService,urlKey hostOne .jsonRPC) = none ∧
      Agree rolloutEnv s (s.prune rolloutEnv ethService (urlKey hostOne .jsonRPC)) := by
  obtain ⟨s,hr,hgo,hg⟩ : ∃ s, Run.Reaches (step rolloutEnv) (fun _ _ => True)
      rolloutStart s ∧ (s.prune rolloutEnv ethService (urlKey hostOne .jsonRPC)).store.cache.get
        (ethService,urlKey hostOne .jsonRPC) = none ∧ s.seedGateOf = some (0,true) :=
    Run.reaches (rollout none) (by decide +kernel)
  refine ⟨s,hr,hgo,(pruning_is_invisible_iff_no_dropped_key_is_seeded hr _ _).mpr ?_⟩
  refine unseeded_of_ungated fun v hv => ?_
  rw [seedGateOf,hv] at hg
  obtain ⟨hon,hn⟩ := Prod.mk.inj (Option.some.inj hg)
  exact ⟨hon,Option.isNone_iff_eq_none.mp hn⟩

end Rollout

end Live

end SageGateway.Reputation
