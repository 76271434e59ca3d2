import SageGateway.Reputation.Pruning
import Mathlib.Analysis.SpecialFunctions.Log.Base

namespace SageGateway.Reputation

noncomputable def Log10.real : Log10 ℝ where
  of := Real.logb 10
  pos _ h := Real.logb_pos (by norm_num) h

variable {F : Type} [Field F] [LinearOrder F]

section Bounds

variable {a b x : F} {cfg : Config F}

omit [Field F] in
theorem least_le_left (a b : F) : least a b ≤ a := by
  unfold least
  split_ifs with h
  · exact h.le
  · exact le_refl a

omit [Field F] in
theorem le_least (ha : x ≤ a) (hb : x ≤ b) : x ≤ least a b := by
  unfold least
  split_ifs
  · exact hb
  · exact ha

theorem clamp_nonneg : 0 ≤ clamp cfg x := by
  unfold clamp
  dsimp only
  split_ifs with h hp hp
  · exact hp.le
  · exact le_refl 0
  · exact hp.le
  · exact le_refl 0

theorem clamp_le (ha : 0 ≤ a) (hx : x ≤ a ∨ cfg.maxScore ≤ a) : clamp cfg x ≤ a := by
  unfold clamp
  dsimp only
  split_ifs with h hp hp
  · exact hx.elim id fun hm => h.le.trans hm
  · exact ha
  · exact hx.elim (fun hxa => (not_lt.mp h).trans hxa) id
  · exact ha

theorem le_clamp (hx : a ≤ x) (hm : a ≤ cfg.maxScore) : a ≤ clamp cfg x := by
  unfold clamp
  dsimp only
  split_ifs with h hp hp
  · exact hx
  · exact hx.trans (not_lt.mp hp)
  · exact hm
  · exact hm.trans (not_lt.mp hp)

end Bounds

section Charges

variable {P : Platform} {o : Owners} {v : ChargedView F} {svc key : GoString}

theorem Penalties.charge_nonpos {K : Type} [DecidableEq K] (t : Penalties K F) (k : K) :
    t.charge k ≤ 0 := by
  unfold Penalties.charge
  cases hg : t.table.get k with
  | none => exact le_refl 0
  | some p => exact (t.negative k p hg).le

theorem ChargedView.partyPenalties_nonpos : (v.partyPenalties P o svc key).1 ≤ 0 := by
  unfold ChargedView.partyPenalties
  by_cases hf : ((v.stalePen.isEmpty && v.trustPen.isEmpty) ||
      (isWebSocketKey key && !v.websocketCharged svc)) = true
  · rw [if_pos hf]
  · rw [if_neg hf]
    exact v.stalePen.charge_nonpos _

-- The largest charge is the least number, so the stale share alone bounds it.
theorem ChargedView.partyPenalty_nonpos : v.partyPenalty P o svc key ≤ 0 :=
  calc v.partyPenalty P o svc key
      ≤ _ := least_le_left _ _
    _ ≤ _ := least_le_left _ _
    _ ≤ _ := least_le_left _ _
    _ ≤ (v.partyPenalties P o svc key).1 := least_le_left _ _
    _ ≤ 0 := partyPenalties_nonpos

end Charges

namespace Live

variable {E : Env F} {s : Live F} {svc key : GoString}

theorem partyPenalty_nonpos : s.partyPenalty E svc key ≤ 0 := by
  unfold partyPenalty
  split
  · exact le_refl 0
  · exact ChargedView.partyPenalty_nonpos

variable [IsStrictOrderedRing F]

theorem penaltyFor_nonpos {rate : F} : s.penaltyFor E svc key rate ≤ 0 := by
  unfold penaltyFor
  dsimp only
  split_ifs
  · exact le_refl 0
  · split
    · exact least_le_left _ _
    · exact s.rate.normalized_ordered.penalty_nonpos

structure InRange (s : Live F) (st : State F) : Prop where
  nonneg : 0 ≤ st.score
  floor : least st.score s.selector.minThreshold ≤ 100

structure Demoted (s : Live F) (st : State F) (score : F) : Prop where
  floor : least st.score s.selector.minThreshold ≤ score
  additive : score ≤ st.score
  nonneg : 0 ≤ score
  max : score ≤ 100

theorem scoreWith_demoted {st : State F} (h : s.InRange st) {party : F} (hp : party ≤ 0) :
    s.Demoted st (s.scoreWith E svc key st party) := by
  have hm : E.cfg.maxScore = 100 := E.maxScore_eq.trans Nat.cast_ofNat
  have hf := least_le_left st.score s.selector.minThreshold
  have hs : st.score + s.penaltyFor E svc key st.rate + party ≤ st.score := by
    have hr : s.penaltyFor E svc key st.rate ≤ 0 := penaltyFor_nonpos
    linarith only [hp,hr]
  refine ⟨le_clamp ?_ (h.floor.trans_eq hm.symm),clamp_le h.nonneg (.inl ?_),clamp_nonneg,
    clamp_le (by norm_num) (.inr hm.le)⟩
  · split_ifs with hl
    · exact le_refl _
    · exact not_lt.mp hl
  · split_ifs with hl
    · exact hf
    · exact hs

theorem effectiveFor_demoted {st : State F} (h : s.InRange st) :
    s.Demoted st (s.effectiveFor E svc key st) := scoreWith_demoted h partyPenalty_nonpos

theorem effectiveForClass_demoted {st : State F} (h : s.InRange st) (methodClass : GoString) :
    s.Demoted st (s.effectiveForClass E svc key st methodClass) :=
  scoreWith_demoted h ((least_le_left _ _).trans partyPenalty_nonpos)

section Pools

def additive (E : Env F) (s : Live F) (svc : ServiceName) (t : RPCType) (ep : EndpointAddr) : F :=
  (s.stateFor E svc (E.cfg.keyOf ep t)).score

def tiered (E : Env F) (s : Live F) (svc : ServiceName) (t : RPCType) (methodClass : GoString)
    (latency : Option (EndpointAddr → Option ℚ)) (operatorCap : Option OperatorCapConfig) :
    TieredSelector F :=
  ⟨E.platform,s.selector,fun ep => (s.scoreForSelector E svc ep t methodClass,true),latency,
    operatorCap⟩

variable {svc : ServiceName} {t : RPCType} {methodClass : GoString}
  {latency : Option (EndpointAddr → Option ℚ)} {operatorCap : Option OperatorCapConfig}
  {ep : EndpointAddr}

theorem scoreForSelector_demoted (h : s.InRange (s.stateFor E svc (E.cfg.keyOf ep t))) :
    s.Demoted (s.stateFor E svc (E.cfg.keyOf ep t))
    (s.scoreForSelector E svc ep t methodClass) := by
  unfold scoreForSelector
  split_ifs
  · exact effectiveForClass_demoted h methodClass
  · exact effectiveFor_demoted h

variable (methodClass latency operatorCap)

omit [IsStrictOrderedRing F] in
theorem classify_tiered : ((s.tiered E svc t methodClass latency operatorCap).classify ep).1 =
    TieredSelector.tierOf s.selector (s.scoreForSelector E svc ep t methodClass) := rfl

theorem classify_ne_none_iff (h : s.InRange (s.stateFor E svc (E.cfg.keyOf ep t))) :
    ((s.tiered E svc t methodClass latency operatorCap).classify ep).1 ≠ none ↔
      s.selector.minThreshold ≤ s.additive E svc t ep := by
  rw [classify_tiered,ne_eq,TieredSelector.tierOf_eq_none,not_lt]
  have hs : s.Demoted _ (s.scoreForSelector E svc ep t methodClass) :=
    scoreForSelector_demoted h
  exact ⟨fun hm => hm.trans hs.additive,
    fun ha => (le_least ha (le_refl _)).trans hs.floor⟩

end Pools

theorem penalties_demote_but_never_rule_out (E : Env F) (s : Live F) :
    (∀ svc key st methodClass, s.InRange st →
      s.Demoted st (s.effectiveFor E svc key st) ∧
        s.Demoted st (s.effectiveForClass E svc key st methodClass)) ∧
    ∀ svc t methodClass latency operatorCap endpoints,
      (∀ ep ∈ endpoints, s.InRange (s.stateFor E svc (E.cfg.keyOf ep t))) →
      (∃ ep ∈ endpoints, s.selector.minThreshold ≤ s.additive E svc t ep) →
      (∀ d, ((s.tiered E svc t methodClass latency operatorCap).select d endpoints).collapsed =
        false) ∧
      ((s.tiered E svc t methodClass latency operatorCap).topTierCandidates endpoints).collapsed =
        false ∧
      ∀ ep ∈
    ((s.tiered E svc t methodClass latency operatorCap).topTierCandidates endpoints).served,
        ep ∈ endpoints ∧ s.selector.minThreshold ≤ s.additive E svc t ep := by
  refine ⟨fun svc key st methodClass h =>
    ⟨effectiveFor_demoted h,effectiveForClass_demoted h methodClass⟩,?_⟩
  intro svc t methodClass latency operatorCap endpoints hr hs
  obtain ⟨ep,hep,ha⟩ := hs
  have hc :=
    (classify_ne_none_iff methodClass latency operatorCap (hr ep hep)).mpr ha
  obtain ⟨u,hu⟩ := Option.ne_none_iff_exists'.mp hc
  obtain ⟨best,hb⟩ := TieredSelector.tier_ranked (b := ⟨none,none⟩) hep hu
  rw [TieredSelector.topTierCandidates_of_tier hb]
  refine ⟨fun d => ?_,rfl,fun ep' he' => ?_⟩
  · cases hco :
      ((s.tiered E svc t methodClass latency operatorCap).select d endpoints).collapsed with
    | false => rfl
    | true => exact absurd (TieredSelector.select_collapsed hco hep) hc
  · obtain ⟨hm,ht⟩ := List.mem_filter.mp he'
    refine ⟨hm,(classify_ne_none_iff methodClass latency operatorCap (hr ep' hm)).mp ?_⟩
    rw [of_decide_eq_true ht]
    exact Option.some_ne_none best

section Thresholds

def firstDraws : Draws := ⟨fun _ => 0,fun _ => 0,0,0,99,99⟩

noncomputable def exactEnv : Env ℝ where
  cfg := ⟨100,100,1 / 2,fun b _ => b,fun _ => 1,fun _ => 0,0,urlKey,intConfig.shardOf,true,true⟩
  maxScore_eq := Nat.cast_ofNat.symm
  platform := asciiPlatform
  log10 := .real
  ln2 := Real.log 2
  opMath := ⟨fun _ _ => 1,100⟩
  stateIdleTTL := 0

def peerHost : EndpointAddr := "s4-https://r4.b.io".toList

def chargedLive : Live F :=
  { start ∅ (fun _ => 0) ⟨0,0,0⟩ ⟨80,50,10,30,10,5⟩ .new with
    chronic := some (refreshBaselines asciiPlatform 100 .new ⟨none,none,none,none,none,none⟩
      ⟨[⟨ethService.1,"a.io".toList,1,-40,1,0,false,false⟩],[],[],[],[],[]⟩ ∅ ∅) }

example : ([hostOne,peerHost].map fun ep =>
    chargedLive.scoreForSelector rolloutEnv ethService ep .jsonRPC []) = [60,100] := by
  decide +kernel

theorem charged_host_keeps_its_floor :
    chargedLive.Demoted (.start 15)
        (chargedLive.effectiveFor exactEnv ethService.1 (urlKey hostOne .jsonRPC) (.start 15)) ∧
      ((chargedLive.tiered exactEnv ethService .jsonRPC [] none none).select firstDraws
        [hostOne,peerHost]).collapsed = false ∧
      ∀ ep ∈ ((chargedLive.tiered exactEnv ethService .jsonRPC [] none none).topTierCandidates
        [hostOne,peerHost]).served, ep ∈ [hostOne,peerHost] ∧
          10 ≤ chargedLive.additive exactEnv ethService .jsonRPC ep := by
  obtain ⟨hs,hp⟩ := penalties_demote_but_never_rule_out exactEnv chargedLive
  have hr : ∀ score : ℝ, 0 ≤ score → score ≤ 100 → chargedLive.InRange (.start score) :=
    fun score h0 h100 => ⟨h0,(least_le_left _ _).trans h100⟩
  obtain ⟨hd,-,ht⟩ := hp ethService .jsonRPC [] none none [hostOne,peerHost]
    (fun ep hep => hr 100 (by norm_num) (le_refl 100))
    ⟨hostOne,List.mem_cons_self,show (10 : ℝ) ≤ 100 by norm_num⟩
  exact ⟨(hs _ _ _ [] (hr 15 (by norm_num) (by norm_num))).1,hd firstDraws,ht⟩

-- Neither initial_score nor min_threshold has an upper bound in the configuration.
def highEnv : Env ℚ := { rolloutEnv with cfg := { rolloutEnv.cfg with initialScore := 150 } }

def highStart : Live ℚ := start ∅ rolloutImpact ⟨0,0,0⟩ ⟨130,125,120,122,10,5⟩ .new

theorem threshold_above_the_maximum_collapses_a_fresh_pool :
    highStart.additive highEnv ethService .jsonRPC hostOne = 150 ∧
      least (highStart.additive highEnv ethService .jsonRPC hostOne)
        highStart.selector.minThreshold = 120 ∧
      highStart.scoreForSelector highEnv ethService hostOne .jsonRPC [] = 100 ∧
      ((highStart.tiered highEnv ethService .jsonRPC [] none none).select firstDraws
        [hostOne]).collapsed = true := by
  decide +kernel

end Thresholds

end Live

end SageGateway.Reputation
