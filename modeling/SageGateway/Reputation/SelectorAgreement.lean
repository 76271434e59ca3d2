import SageGateway.Reputation.Selector

namespace SageGateway

open List Option

section Capped

variable {P : Platform} {keep : Nat → Bool} {weight : Option (Nat → ℚ)} {reservoir : Nat → ℚ}
  {candidates : List EndpointAddr}

theorem joinGroup_picks {operator : GoString} {draw w : ℚ} {ep : EndpointAddr}
    {groups : List OpGroup} {g : OpGroup} (h : g ∈ joinGroup operator draw w ep groups) :
    g.pick = ep ∨ ∃ k ∈ groups, k.pick = g.pick := by
  induction groups with
  | nil => simp_all [joinGroup]
  | cons k groups ih =>
    rw [joinGroup] at h
    split at h
    · rcases mem_cons.mp h with rfl | h
      · by_cases hd : draw < w / (k.mass + w) <;> simp [OpGroup.meet,hd]
      · exact .inr ⟨g,.tail _ h,rfl⟩
    · rcases mem_cons.mp h with rfl | h
      · exact .inr ⟨g,.head _,rfl⟩
      · exact (ih h).imp_right fun ⟨k',hk',hp⟩ => ⟨k',.tail _ hk',hp⟩

theorem groupCandidates_picks {g : OpGroup}
    (h : g ∈ groupCandidates P keep weight reservoir candidates) :
    ∃ i, candidates[i]? = some g.pick ∧ keep i = true := by
  have hf : ∀ (l : List (EndpointAddr × Nat)), (∀ e ∈ l, candidates[e.2]? = some e.1) →
      ∀ groups : List OpGroup, (∀ g ∈ groups, ∃ i, candidates[i]? = some g.pick ∧ keep i = true) →
      ∀ g ∈ l.foldl (fun groups p =>
        if keep p.2 && decide (0 < weightAt weight p.2) then
          joinGroup (p.1.operator P) (reservoir p.2) (weightAt weight p.2) p.1 groups
        else groups) groups, ∃ i, candidates[i]? = some g.pick ∧ keep i = true := by
    intro l
    induction l with
    | nil => exact fun _ groups h => h
    | cons e l ih =>
      intro hl groups hgr
      obtain ⟨he,hl⟩ := forall_mem_cons.mp hl
      refine ih hl _ ?_
      dsimp only
      split
      · next hke =>
        intro g hg
        rcases joinGroup_picks hg with hp | ⟨k,hk,hp⟩
        · exact ⟨e.2,hp ▸ he,(Bool.and_eq_true_iff.mp hke).1⟩
        · exact hp ▸ hgr k hk
      · exact hgr
  exact hf _ (fun e he => mk_mem_zipIdx_iff_getElem?.mp he) [] (forall_mem_nil _) g h

theorem waterFill_picks (groups : List OpGroup) (capShare ceiling : ℚ) :
    (waterFill groups capShare ceiling).map OpGroup.pick = groups.map OpGroup.pick := by
  have hc : ∀ g : OpGroup, (g.clip capShare).pick = g.pick := by
    intro g
    unfold OpGroup.clip
    split <;> rfl
  have hf : ∀ (give room : ℚ) (g : OpGroup),
      (g.fill capShare ceiling give room).pick = g.pick := by
    intro give room g
    unfold OpGroup.fill
    split <;> rfl
  have hb : ∀ (left more : ℚ) (g : OpGroup),
      (g.giveBack capShare left more).pick = g.pick := by
    intro left more g
    unfold OpGroup.giveBack
    split <;> rfl
  simp [waterFill]
  split_ifs <;> simp [hc,hf,hb]

theorem spin_pos {ws : List ℚ} {k : Nat} {r : ℚ} {last : Option Nat} {i : Nat}
    (h : spin ws k r last = some i) :
    last = some i ∨ ∃ j w, i = k + j ∧ ws[j]? = some w ∧ 0 < w := by
  induction ws generalizing k r last with
  | nil => exact .inl h
  | cons w ws ih =>
    have hl : ∀ j w', i = k + 1 + j ∧ ws[j]? = some w' ∧ 0 < w' →
        ∃ j w', i = k + j ∧ (w :: ws)[j]? = some w' ∧ 0 < w' :=
      fun j w' hj => ⟨j + 1,w',by omega,hj.2⟩
    rw [spin] at h
    split at h
    · exact (ih h).imp_right fun ⟨j,w',hj⟩ => hl j w' hj
    · next hw =>
      have hh : i = k → ∃ j w', i = k + j ∧ (w :: ws)[j]? = some w' ∧ 0 < w' :=
        fun hi => ⟨0,w,hi,rfl,not_le.mp hw⟩
      split at h
      · exact .inr (hh (some.inj h).symm)
      · rcases ih h with hla | ⟨j,w',hj⟩
        · exact .inr (hh (some.inj hla).symm)
        · exact .inr (hl j w' hj)

theorem pickIndex_pos {ws : List ℚ} {draw : ℚ} {i : Nat} (h : pickIndex ws draw = some i) :
    ∃ w, ws[i]? = some w ∧ 0 < w := by
  obtain ⟨-,h⟩ := ite_none_left_eq_some.mp h
  obtain hn | ⟨j,w,rfl,hw⟩ := spin_pos h
  · cases hn
  · exact ⟨w,by simpa using hw⟩

theorem cappedPickWeighted_kept {cfg : OperatorCapConfig} {draw : ℚ} {op : GoString}
    {ep : EndpointAddr}
    (h : cappedPickWeighted P cfg keep weight reservoir draw candidates = some (op,ep)) :
    ∃ i, candidates[i]? = some ep ∧ keep i = true := by
  unfold cappedPickWeighted at h
  split at h
  · cases h
  · dsimp only at h
    split at h
    · cases h
    · obtain ⟨g,hg,heq⟩ := map_eq_some_iff.mp h
      cases heq
      obtain ⟨i,-,hge⟩ := bind_eq_some_iff.mp hg
      have hp := List.mem_map_of_mem (f := OpGroup.pick) (mem_of_getElem? hge)
      rw [waterFill_picks,entitle,List.map_map] at hp
      obtain ⟨k,hk,hkp⟩ := List.mem_map.mp hp
      exact (show k.pick = _ from hkp) ▸ groupCandidates_picks hk

end Capped

namespace Reputation.TieredSelector

variable {F : Type} [LT F] [DecidableLT F] [LE F] [DecidableLE F] [DecidableEq F]
  {s : TieredSelector F} {d : Draws} {endpoints : List EndpointAddr} {seats : Seats F} {best : Tier}

def InTier (s : TieredSelector F) (endpoints : List EndpointAddr) (t : Tier) (ep : EndpointAddr) :
    Prop := ep ∈ endpoints ∧ (s.classify ep).1 = some t

omit [DecidableEq F] in
theorem inTier_of_getElem {i : Nat} {ep : EndpointAddr} (h : endpoints[i]? = some ep)
    (ht : (s.tiersOf endpoints)[i]? = some (some best)) : s.InTier endpoints best ep := by
  rw [tiersOf,List.getElem?_map,h] at ht
  exact ⟨mem_of_getElem? h,some.inj ht⟩

-- A tier with a seat taken has one of its own endpoints in it.
def Seated (s : TieredSelector F) (endpoints : List EndpointAddr) (seats : Seats F) : Prop :=
  ∀ t, 0 < seats.count t → s.InTier endpoints t (seats.pick t)

theorem Seated.seat (h : s.Seated endpoints seats) {e : EndpointAddr × Nat}
    (he : e.1 ∈ endpoints) : s.Seated endpoints (s.seat d seats e) := by
  intro t ht
  unfold TieredSelector.seat at ht ⊢
  rcases hc : s.classify e.1 with ⟨_ | u,score⟩
  · rw [hc] at ht
    simp [count_reject] at ht
    have hp : (reject (d.seat e.2) e.1 score seats).pick = seats.pick := by
      unfold reject
      split_ifs <;> rfl
    simpa [hp] using h t ht
  · rw [hc] at ht
    simp [enter] at ht ⊢
    by_cases htu : t = u
    · subst htu
      by_cases hd : d.seat e.2 % (seats.count t + 1) = 0
      · rw [if_pos ⟨rfl,hd⟩]
        exact ⟨he,by rw [hc]⟩
      · rw [if_neg fun hb => hd hb.2]
        refine h t (Nat.pos_of_ne_zero fun hz => hd ?_)
        rw [hz]
        exact Nat.mod_one _
    · rw [if_neg htu] at ht
      rw [if_neg fun hb => htu hb.1]
      exact h t ht

-- The endpoint a collapsed pool is served carries the best score of those below the minimum.
structure Fallen (s : TieredSelector F) (endpoints : List EndpointAddr) (seats : Seats F)
    (b : Best F) : Prop where
  rejected : b.rejected = if seats.fallback = [] then none else some seats.fallbackScore
  fallback : seats.fallback ≠ [] → seats.fallback ∈ endpoints ∧
    s.classify seats.fallback = (none,seats.fallbackScore)

theorem Fallen.seat {b : Best F} (h : s.Fallen endpoints seats b) {e : EndpointAddr × Nat}
    (he : e.1 ∈ endpoints) (hne : e.1 ≠ []) :
    s.Fallen endpoints (s.seat d seats e) (s.rank b e.1) := by
  unfold TieredSelector.seat rank
  rcases hc : s.classify e.1 with ⟨_ | u,score⟩
  · have hn : e.1 ∈ endpoints ∧ s.classify e.1 = (none,score) := ⟨he,hc⟩
    have hr := h.rejected
    have hold := h.fallback
    dsimp [reject]
    by_cases hem : seats.fallback = []
    · simp [hem] at hr ⊢
      exact ⟨by simp [hr,hne],fun _ => hn⟩
    · simp [hem] at hr ⊢
      by_cases hlt : seats.fallbackScore < score
      · simpa [hlt] using ⟨by simp [hr,hne,hlt],fun _ => hn⟩
      · simp [hlt]
        by_cases heq : score = seats.fallbackScore
        · simp [heq] at hn ⊢
          by_cases hd : d.seat e.2 % (seats.fallbackTies + 1) = 0
          · simpa [hd] using ⟨by simp [hr,hne],fun _ => hn⟩
          · simpa [hd] using ⟨by simp [hr,hem],hold⟩
        · simpa [heq] using ⟨by simp [hr,hem,hlt],hold⟩
  · exact { h with }

omit [DecidableEq F] in
theorem tier1Weights_pos {latency : EndpointAddr → Option ℚ} {ws : List ℚ} {i : Nat} {w : ℚ}
    (h : s.tier1Weights latency endpoints = some ws) (hi : ws[i]? = some w) (hw : 0 < w) :
    ∃ ep, endpoints[i]? = some ep ∧ (s.classify ep).1 = some .tier1 := by
  obtain ⟨-,heq⟩ := ite_none_left_eq_some.mp h
  cases heq
  rw [List.getElem?_map] at hi
  obtain ⟨ep,hep,rfl⟩ := map_eq_some_iff.mp hi
  refine ⟨ep,hep,?_⟩
  by_contra hti
  rw [if_neg hti] at hw
  exact lt_irrefl 0 hw

omit [DecidableEq F] in
theorem repick_inTier (h : s.Seated endpoints seats) (hco : 0 < seats.count best) :
    s.InTier endpoints best (s.repick d endpoints best seats) := by
  unfold repick
  dsimp only
  split
  · next ep hc =>
    unfold cappedPick at hc
    split at hc
    · obtain ⟨-,hc⟩ := ite_none_right_eq_some.mp hc
      obtain ⟨⟨op,ep'⟩,hp,rfl⟩ := map_eq_some_iff.mp hc
      obtain ⟨i,hi,hk⟩ := cappedPickWeighted_kept hp
      exact inTier_of_getElem hi (of_decide_eq_true hk)
    · cases hc
  · cases hf : fastestPick d endpoints (s.weightsFor endpoints best (seats.count best)) with
    | none => exact h best hco
    | some ep =>
      obtain ⟨i,hi,hep⟩ := bind_eq_some_iff.mp hf
      obtain ⟨ws,hws,hp⟩ := bind_eq_some_iff.mp hi
      obtain ⟨w,hw,hpo⟩ := pickIndex_pos hp
      unfold weightsFor at hws
      split at hws
      · obtain ⟨⟨rfl,-⟩,hwe⟩ := ite_none_right_eq_some.mp hws
        obtain ⟨ep',he',hti⟩ := tier1Weights_pos hwe hw hpo
        cases hep.symm.trans he'
        exact ⟨mem_of_getElem? hep,hti⟩
      · cases hws

omit [DecidableEq F] in
theorem classified_of_unrejected {b : Best F} (h : (endpoints.foldl s.rank b).rejected = none) :
    b.rejected = none ∧ ∀ ep ∈ endpoints, (s.classify ep).1 ≠ none := by
  induction endpoints generalizing b with
  | nil => exact ⟨h,forall_mem_nil _⟩
  | cons ep endpoints ih =>
    obtain ⟨hb,hre⟩ := ih h
    rcases hc : s.classify ep with ⟨_ | t,score⟩
    · cases hr : b.rejected <;> simp [rank,hc,hr] at hb
    · simp [rank,hc] at hb
      exact ⟨hb,forall_mem_cons.mpr ⟨by simp [hc],hre⟩⟩

-- What a selection may hand out where `top` is the pool it should come from.
def Served (s : TieredSelector F) (endpoints top served : List EndpointAddr) : Prop :=
  ∃ ep ∈ top, ep ∈ endpoints ∧ (served = [ep] ∨ ∃ first ∈ endpoints, served = [first,ep] ∧
    ((s.classify first).1 = some .probation ∨
      (s.classify first).1 = some .tier2 ∧ (s.classify ep).1 = some .tier1))

omit [DecidableEq F] in
theorem routed_served (h : s.Seated endpoints seats) (hc : 0 < seats.count best) :
    s.Served endpoints (endpoints.filter fun ep => (s.classify ep).1 = some best)
      (s.routed d endpoints best seats) := by
  have hep := repick_inTier (d := d) h hc
  refine ⟨_,mem_filter.mpr ⟨hep.1,decide_eq_true hep.2⟩,hep.1,?_⟩
  unfold routed
  split_ifs with hp htr
  · exact .inr ⟨_,(h _ hp.1).1,rfl,.inl (h _ hp.1).2⟩
  · exact .inr ⟨_,(h _ htr.2.1).1,rfl,.inr ⟨(h _ htr.2.1).2,htr.1 ▸ hep.2⟩⟩
  · exact .inl rfl

theorem topTierCandidates_eq {t : Tier} {ep : EndpointAddr} (h : s.InTier endpoints t ep)
    (hm : ∀ ep ∈ endpoints, ∀ u ∈ (s.classify ep).1, t.index ≤ u.index) :
    s.topTierCandidates endpoints =
      ⟨endpoints.filter fun ep => (s.classify ep).1 = some t,false⟩ := by
  obtain ⟨u,hu⟩ := tier_ranked (b := ⟨none,none⟩) h.1 h.2
  have hs := s.tier_foldl endpoints ⟨none,none⟩
  rw [hu] at hs
  obtain ⟨hn | ⟨ep',he',hu'⟩,-,hb⟩ := hs
  · cases hn
  · have hle := hb ep h.1 t h.2
    have hge := hm ep' he' u hu'
    have htu : u = t := by
      revert hle hge
      cases t <;> cases u <;> decide
    rw [topTierCandidates_of_tier hu,htu]

variable [Zero F]

theorem seats_sound (d : Draws) (ha : [] ∉ endpoints) :
    s.Seated endpoints (endpoints.zipIdx.foldl (s.seat d) noSeats) ∧
      s.Fallen endpoints (endpoints.zipIdx.foldl (s.seat d) noSeats)
        (endpoints.foldl s.rank ⟨none,none⟩) := by
  have hfo : ∀ (l : List (EndpointAddr × Nat)) (seats : Seats F) (b : Best F),
      (∀ e ∈ l, e.1 ∈ endpoints) → s.Seated endpoints seats → s.Fallen endpoints seats b →
        s.Seated endpoints (l.foldl (s.seat d) seats) ∧
          s.Fallen endpoints (l.foldl (s.seat d) seats) ((l.map Prod.fst).foldl s.rank b) := by
    intro l
    induction l with
    | nil => exact fun seats b _ hs hf => ⟨hs,hf⟩
    | cons e l ih =>
      intro seats b hl hs hf
      obtain ⟨he,hl⟩ := forall_mem_cons.mp hl
      exact ih _ _ hl (hs.seat he) (hf.seat he fun hem => ha (hem ▸ he))
  have hal := hfo endpoints.zipIdx noSeats ⟨none,none⟩
    (fun e he => mem_of_getElem? (mk_mem_zipIdx_iff_getElem?.mp he))
    (fun t ht => absurd ht (Nat.lt_irrefl 0)) ⟨rfl,fun hne => absurd rfl hne⟩
  rwa [zipIdx_map_fst] at hal

theorem select_agrees_with_topTierCandidates (s : TieredSelector F) (d : Draws)
    {endpoints : List EndpointAddr} (hne : endpoints ≠ []) (haddr : [] ∉ endpoints) :
    s.Served endpoints (s.topTierCandidates endpoints).served (s.select d endpoints).served ∧
      (s.select d endpoints).collapsed = (s.topTierCandidates endpoints).collapsed := by
  obtain ⟨hs,hf⟩ := seats_sound (s := s) d haddr
  have ha : ∀ {t}, ¬0 < (endpoints.zipIdx.foldl (s.seat d) noSeats).count t →
      ∀ ep ∈ endpoints, (s.classify ep).1 ≠ some t := fun h ep => classify_of_no_seat h
  generalize hse : endpoints.zipIdx.foldl (s.seat d) noSeats = seats at hs hf ha
  unfold select
  dsimp only
  rw [hse]
  -- Each tier that has a seat is the best one when no better tier has.
  split_ifs with h1 h2 h3 hp he
  · rw [topTierCandidates_eq (hs .tier1 h1) fun ep hep u hu => Nat.zero_le _]
    exact ⟨routed_served hs h1,rfl⟩
  · rw [topTierCandidates_eq (hs .tier2 h2) fun ep hep u hu => ?_]
    · exact ⟨routed_served hs h2,rfl⟩
    · cases u <;> simp_all [Tier.index]
  · rw [topTierCandidates_eq (hs .tier3 h3) fun ep hep u hu => ?_]
    · exact ⟨routed_served hs h3,rfl⟩
    · cases u <;> simp_all [Tier.index]
  · have hpi := hs .probation hp
    rw [topTierCandidates_eq hpi fun ep hep u hu => ?_]
    · exact ⟨⟨_,mem_filter.mpr ⟨hpi.1,decide_eq_true hpi.2⟩,hpi.1,.inl rfl⟩,rfl⟩
    · cases u <;> simp_all [Tier.index]
  all_goals
    have hn : ∀ ep ∈ endpoints, (s.classify ep).1 = none := by
      intro ep hep
      cases hc : (s.classify ep).1 with
      | none => rfl
      | some t => cases t <;> exact absurd hc (ha ‹_› ep hep)
  · have hr := hf.rejected
    rw [if_pos he] at hr
    obtain ⟨ep,hep⟩ := exists_mem_of_ne_nil _ hne
    exact absurd (hn ep hep) ((classified_of_unrejected hr).2 ep hep)
  · have hti : (endpoints.foldl s.rank ⟨none,none⟩).tier = none := by
      have hsp := s.tier_foldl endpoints ⟨none,none⟩
      split at hsp
      · assumption
      · obtain ⟨hst | ⟨ep,hep,hc⟩,-⟩ := hsp
        · cases hst
        · cases (hn ep hep).symm.trans hc
    have hr := hf.rejected
    rw [if_neg he] at hr
    obtain ⟨hm,hcl⟩ := hf.fallback he
    unfold topTierCandidates
    simpa only [hti,hr] using ⟨⟨_,mem_filter.mpr ⟨hm,by simp [hcl]⟩,hm,.inl rfl⟩,trivial⟩

def scoredPool (minThreshold : Int) : TieredSelector Int where
  platform := asciiPlatform
  cfg := ⟨70,50,minThreshold,minThreshold,0,5⟩
  scores ep := (if ep = "a".toList then 90 else 60,true)
  latency := none
  operatorCap := none

def trickleDraws : Draws := ⟨fun _ => 0,fun _ => 0,0,0,0,0⟩

theorem trickled_endpoint_comes_first :
    ((scoredPool 10).select trickleDraws ["a".toList,"b".toList]).served =
        ["b".toList,"a".toList] ∧
      (scoredPool 10).Served ["a".toList,"b".toList]
        ((scoredPool 10).topTierCandidates ["a".toList,"b".toList]).served
        ((scoredPool 10).select trickleDraws ["a".toList,"b".toList]).served :=
  ⟨by decide,
    (select_agrees_with_topTierCandidates (scoredPool 10) trickleDraws (by decide) (by decide)).1⟩

theorem unnamed_endpoint_is_not_served :
    (scoredPool 100).select trickleDraws [[]] = ⟨[],false⟩ ∧
      (scoredPool 100).topTierCandidates [[]] = ⟨[[]],true⟩ := by
  decide

end Reputation.TieredSelector

end SageGateway
