import SageGateway.Reputation.Concentration

namespace SageGateway

open List

structure Entitled (groups : List OpGroup) : Prop where
  fresh : ∀ g ∈ groups, g.weight = g.entitlement
  nonneg : ∀ g ∈ groups, 0 ≤ g.entitlement
  total : (groups.map OpGroup.entitlement).sum = 1

theorem sum_map_div (l : List OpGroup) (f : OpGroup → ℚ) (c : ℚ) :
    (l.map fun g => f g / c).sum = (l.map f).sum / c := by
  exact sum_map_mul_right l f c⁻¹

theorem sum_map_eq {l : List OpGroup} {f f' : OpGroup → ℚ} (h : ∀ g ∈ l, f g = f' g) :
    (l.map f).sum = (l.map f').sum := by
  rw [map_congr_left h]

theorem part_le_sum {l : List OpGroup} {f : OpGroup → ℚ} {g : OpGroup} (hf : ∀ g ∈ l, 0 ≤ f g)
    (hg : g ∈ l) : f g ≤ (l.map f).sum :=
  single_le_sum (forall_mem_map.mpr hf) _ (mem_map_of_mem hg)

namespace OpGroup

variable {capShare ceiling give headroom leftover owed : ℚ} {g : OpGroup}

@[simp] theorem clip_entitlement : (g.clip capShare).entitlement = g.entitlement := by
  unfold clip
  split_ifs <;> rfl

@[simp] theorem fill_entitlement :
    (g.fill capShare ceiling give headroom).entitlement = g.entitlement := by
  unfold fill
  split_ifs <;> rfl

@[simp] theorem giveBack_entitlement :
    (g.giveBack capShare leftover owed).entitlement = g.entitlement := by
  unfold giveBack
  split_ifs <;> rfl

theorem clip_weight_add (capShare : ℚ) (g : OpGroup) :
    g.weight = (g.clip capShare).weight +
      if capShare + eps < g.weight then g.weight - capShare else 0 := by
  unfold clip
  split_ifs <;> ring

theorem fill_weight (capShare ceiling give headroom : ℚ) (g : OpGroup) :
    (g.fill capShare ceiling give headroom).weight = g.weight + give *
      (if 0 < g.room capShare ceiling then g.room capShare ceiling else 0) / headroom := by
  unfold fill
  split_ifs
  · rfl
  · rw [mul_zero,zero_div,add_zero]

theorem giveBack_weight (capShare leftover owed : ℚ) (g : OpGroup) :
    (g.giveBack capShare leftover owed).weight = g.weight + leftover *
      (if capShare - eps ≤ g.weight ∧ capShare < g.entitlement then g.entitlement else 0) /
        owed := by
  unfold giveBack
  split_ifs
  · rfl
  · rw [mul_zero,zero_div,add_zero]

theorem limit_le : g.limit capShare ceiling ≤ capShare := by
  unfold limit
  split_ifs with h
  · exact h.2.le
  · exact le_rfl

theorem entitlement_le_limit (hceil : ceiling = 0 ∨ 1 ≤ ceiling) (hg : 0 ≤ g.entitlement)
    (hle : g.entitlement ≤ capShare) : g.entitlement ≤ g.limit capShare ceiling := by
  unfold limit
  split_ifs with h
  · rcases hceil with hceil | hceil
    · exact absurd h.1 (by rw [hceil]; exact lt_irrefl 0)
    · exact le_mul_of_one_le_left hg hceil
  · exact hle

theorem limit_eq_min (capShare ceiling : ℚ) (g : OpGroup) : g.limit capShare ceiling =
    if 0 < ceiling then min capShare (ceiling * g.entitlement) else capShare := by
  unfold limit
  by_cases hc : 0 < ceiling
  · by_cases hl : ceiling * g.entitlement < capShare
    · rw [if_pos ⟨hc,hl⟩,if_pos hc,min_eq_right hl.le]
    · rw [if_neg fun h => hl h.2,if_pos hc,min_eq_left (not_lt.mp hl)]
  · rw [if_neg fun h => hc h.1,if_neg hc]

theorem limit_eq {h : OpGroup} (he : h.entitlement = g.entitlement) :
    h.limit capShare ceiling = g.limit capShare ceiling := by
  rw [limit,limit,he]

end OpGroup

section Condition

variable (capShare ceiling : ℚ) (es : List ℚ)

def above : List ℚ := es.filter fun e => capShare + eps < e

def surplus : ℚ := ((above capShare es).map fun e => e - capShare).sum

def slack : ℚ :=
  (es.map fun e => max 0 ((if 0 < ceiling then min capShare (ceiling * e) else capShare) - e)).sum

def shortfall : ℚ := surplus capShare es - slack capShare ceiling es

-- What goes back in proportion to entitlement is at most what was taken when nobody above the cap
-- is too far below the mean of those above it.
def Level (e : ℚ) : Prop :=
  capShare * (above capShare es).sum ≤
    ((above capShare es).length * capShare + slack capShare ceiling es) * e

-- What those above the cap hold beyond it has room with the others; or all of it that has no room
-- there can go back, and no amount is one the tolerance swallows.
def Shareable : Prop :=
  surplus capShare es ≤ slack capShare ceiling es ∨
    eps < shortfall capShare ceiling es ∧
    (slack capShare ceiling es = 0 ∨ eps < slack capShare ceiling es) ∧
    (∀ e ∈ es, e ≤ capShare ∨ capShare + eps < e) ∧
    ∀ e ∈ above capShare es, Level capShare ceiling es e

end Condition

section WaterFill

variable {groups : List OpGroup} {capShare ceiling : ℚ} {g : OpGroup}

theorem eps_pos : 0 < eps := by decide +kernel

def entitlements (groups : List OpGroup) : List ℚ := groups.map OpGroup.entitlement

theorem sum_above (capShare : ℚ) (groups : List OpGroup) (f : ℚ → ℚ) :
    ((above capShare (entitlements groups)).map f).sum = (groups.map fun g =>
      if capShare + eps < g.entitlement then f g.entitlement else 0).sum := by
  unfold above entitlements
  induction groups with
  | nil => rfl
  | cons g groups ih =>
    rw [map_cons,filter_cons,map_cons,sum_cons,← ih]
    by_cases ho : capShare + eps < g.entitlement
    · simp [ho]
    · simp [ho]

theorem sum_sub_const (c : ℚ) (l : List ℚ) : (l.map fun e => e - c).sum + l.length * c = l.sum := by
  induction l with
  | nil => simp
  | cons e l ih =>
    rw [map_cons,sum_cons,sum_cons,length_cons,← ih]
    push_cast
    ring

theorem above_eq_nil {es : List ℚ} (h : surplus capShare es ≤ eps) : above capShare es = [] := by
  refine eq_nil_iff_forall_not_mem.mpr fun e he => ?_
  have hp := eps_pos
  have ho (a) (ha : a ∈ above capShare es) : capShare + eps < a :=
    of_decide_eq_true (mem_filter.mp ha).2
  have hle := single_le_sum (l := (above capShare es).map fun e => e - capShare)
    (forall_mem_map.mpr fun a ha => by linarith [ho a ha]) _ (mem_map_of_mem he)
  rw [surplus] at h
  linarith [ho e he]

theorem slack_nonneg (capShare ceiling : ℚ) (es : List ℚ) : 0 ≤ slack capShare ceiling es :=
  sum_nonneg (forall_mem_map.mpr fun _ _ => le_max_left _ _)

theorem roomPart_nonneg (g : OpGroup) :
    0 ≤ if 0 < g.room capShare ceiling then g.room capShare ceiling else 0 := by
  split_ifs with h
  · exact h.le
  · exact le_rfl

theorem room_le_headroom (hg : g ∈ groups) (hr : 0 < g.room capShare ceiling) :
    g.room capShare ceiling ≤ headroom capShare ceiling groups := by
  have hle := part_le_sum (f := fun g =>
    if 0 < g.room capShare ceiling then g.room capShare ceiling else 0)
    (fun k _ => roomPart_nonneg k) hg
  rwa [if_pos hr] at hle

theorem room_clip (hf : g.weight = g.entitlement) :
    (if 0 < (g.clip capShare).room capShare ceiling then (g.clip capShare).room capShare ceiling
      else 0) = max 0 ((if 0 < ceiling then min capShare (ceiling * g.entitlement) else capShare) -
        g.entitlement) := by
  have hl : g.limit capShare ceiling ≤ capShare := OpGroup.limit_le
  have hp := eps_pos
  rw [← OpGroup.limit_eq_min,OpGroup.room,OpGroup.limit_eq (g := g) (by simp),OpGroup.clip,hf]
  split_ifs with ho hr hr
  · exact absurd hr (not_lt.mpr (sub_nonpos.mpr hl))
  · exact (max_eq_left (by linarith)).symm
  · rw [hf] at hr ⊢
    exact (max_eq_right hr.le).symm
  · rw [hf] at hr
    exact (max_eq_left (not_lt.mp hr)).symm

namespace Entitled

variable (h : Entitled groups)

include h

theorem excess_eq : excess capShare groups = surplus capShare (entitlements groups) := by
  rw [surplus,sum_above]
  exact sum_map_eq fun g hg => by rw [h.fresh g hg]

theorem overEntitlement_eq :
    overEntitlement capShare groups = (above capShare (entitlements groups)).sum := by
  rw [← map_id' (above capShare (entitlements groups)),sum_above]
  exact sum_map_eq fun g hg => by rw [h.fresh g hg]

theorem headroom_eq : headroom capShare ceiling (groups.map (OpGroup.clip capShare)) =
    slack capShare ceiling (entitlements groups) := by
  rw [headroom,slack,entitlements,map_map,map_map]
  exact sum_map_eq fun g hg => room_clip (h.fresh g hg)

theorem room_le_slack (hg : g ∈ groups) (hle : g.entitlement ≤ capShare)
    (hr : 0 < g.room capShare ceiling) :
    g.room capShare ceiling ≤ slack capShare ceiling (entitlements groups) := by
  have hp := eps_pos
  have hc : g.clip capShare = g := if_neg (by rw [h.fresh g hg]; linarith)
  rw [← h.headroom_eq]
  exact room_le_headroom (mem_map.mpr ⟨g,hg,hc⟩) hr

end Entitled

theorem above_pos {es : List ℚ} (hcap : 0 < capShare) (hs : eps < surplus capShare es) :
    0 < (above capShare es).sum := by
  have hx := sum_sub_const capShare (above capShare es)
  have hn : 0 ≤ ((above capShare es).length : ℚ) * capShare :=
    mul_nonneg (Nat.cast_nonneg _) hcap.le
  rw [← surplus] at hx
  linarith [eps_pos]

theorem fill_zero (capShare ceiling headroom : ℚ) :
    OpGroup.fill capShare ceiling 0 headroom = id := by
  funext g
  unfold OpGroup.fill
  split_ifs
  · rw [zero_mul,zero_div,add_zero]
    rfl
  · rfl

theorem sum_clip (groups : List OpGroup) (capShare : ℚ) :
    (groups.map OpGroup.weight).sum =
      ((groups.map (OpGroup.clip capShare)).map OpGroup.weight).sum + excess capShare groups := by
  rw [excess,map_map,← sum_map_add]
  exact sum_map_eq fun g _ => g.clip_weight_add capShare

theorem sum_fill (l : List OpGroup) (capShare ceiling give : ℚ)
    (hg : headroom capShare ceiling l = 0 → give = 0) :
    ((l.map (OpGroup.fill capShare ceiling give (headroom capShare ceiling l))).map
      OpGroup.weight).sum = (l.map OpGroup.weight).sum + give := by
  have hp : OpGroup.weight ∘ OpGroup.fill capShare ceiling give (headroom capShare ceiling l) =
      fun g => g.weight + give *
        (if 0 < g.room capShare ceiling then g.room capShare ceiling else 0) /
          headroom capShare ceiling l :=
    funext fun g => g.fill_weight capShare ceiling give _
  rw [map_map,hp,sum_map_add,sum_map_div,sum_map_mul_left,← headroom]
  by_cases hz : headroom capShare ceiling l = 0
  · rw [hg hz,zero_mul,zero_div]
  · rw [mul_div_assoc,div_self hz,mul_one]

theorem sum_giveBack (l : List OpGroup) (capShare leftover owed : ℚ) (ho : owed ≠ 0)
    (hs : (l.map fun g => if capShare - eps ≤ g.weight ∧ capShare < g.entitlement then
      g.entitlement else 0).sum = owed) :
    ((l.map (OpGroup.giveBack capShare leftover owed)).map OpGroup.weight).sum =
      (l.map OpGroup.weight).sum + leftover := by
  have hp : OpGroup.weight ∘ OpGroup.giveBack capShare leftover owed =
      fun g => g.weight + leftover *
        (if capShare - eps ≤ g.weight ∧ capShare < g.entitlement then g.entitlement else 0) /
          owed :=
    funext fun g => g.giveBack_weight capShare leftover owed
  rw [map_map,hp,sum_map_add,sum_map_div,sum_map_mul_left,hs,
    mul_div_assoc,div_self ho,mul_one]

theorem fill_clip_over (ceiling give head : ℚ) (ho : capShare + eps < g.weight) :
    ((g.clip capShare).fill capShare ceiling give head).weight = capShare := by
  have hc : g.clip capShare = { g with weight := capShare } := if_pos ho
  have hr : ¬ 0 < (g.clip capShare).room capShare ceiling := by
    rw [hc,not_lt]
    exact sub_nonpos.mpr OpGroup.limit_le
  rw [OpGroup.fill,if_neg hr,hc]

theorem fill_clip_heavy (ceiling give head : ℚ) (hf : g.weight = g.entitlement)
    (hlt : capShare < g.entitlement) :
    ((g.clip capShare).fill capShare ceiling give head).weight =
      if capShare + eps < g.entitlement then capShare else g.entitlement := by
  split_ifs with ho
  · exact fill_clip_over ceiling give head (hf ▸ ho)
  · have hc : g.clip capShare = g := if_neg (by rwa [hf])
    have hl : g.limit capShare ceiling ≤ capShare := OpGroup.limit_le
    rw [hc,OpGroup.fill,if_neg (by rw [OpGroup.room,hf]; linarith),hf]

theorem fill_clip_under {give head : ℚ} (hceil : ceiling = 0 ∨ 1 ≤ ceiling)
    (hf : g.weight = g.entitlement) (hn : 0 ≤ g.entitlement)
    (hle : g.entitlement ≤ capShare) (hg : 0 ≤ give) (hhe : give ≤ head)
    (hr : 0 < g.room capShare ceiling → g.room capShare ceiling ≤ head) :
    g.entitlement ≤ ((g.clip capShare).fill capShare ceiling give head).weight ∧
      ((g.clip capShare).fill capShare ceiling give head).weight ≤ g.limit capShare ceiling := by
  have hpo := eps_pos
  have hc : g.clip capShare = g := if_neg (by rw [hf]; linarith)
  have hl := OpGroup.entitlement_le_limit hceil hn hle
  rw [hc,OpGroup.fill_weight,hf]
  split_ifs with h
  · have hh : 0 < head := lt_of_lt_of_le h (hr h)
    have hp : give * g.room capShare ceiling / head ≤ g.room capShare ceiling := by
      rw [div_le_iff₀ hh,mul_comm]
      exact mul_le_mul_of_nonneg_left hhe h.le
    have hp' : 0 ≤ give * g.room capShare ceiling / head :=
      div_nonneg (mul_nonneg hg h.le) hh.le
    have hd : g.room capShare ceiling = g.limit capShare ceiling - g.entitlement := by
      rw [OpGroup.room,hf]
    constructor
    · linarith
    · linarith
  · rw [mul_zero,zero_div,add_zero]
    exact ⟨le_rfl,hl⟩

def Respects (capShare ceiling : ℚ) (g : OpGroup) : Prop :=
  0 ≤ g.weight ∧
    (g.entitlement ≤ capShare → g.weight ≤ g.limit capShare ceiling ∨ g.weight ≤ g.entitlement) ∧
    (capShare < g.entitlement → capShare ≤ g.weight ∧ g.weight ≤ g.entitlement)

theorem respects_of_fresh (hf : g.weight = g.entitlement) (hn : 0 ≤ g.entitlement) :
    Respects capShare ceiling g := by
  refine ⟨hf ▸ hn,fun _ => .inr hf.le,fun h => ⟨?_,hf.le⟩⟩
  rw [hf]
  exact h.le

section Filled

def filled (groups : List OpGroup) (capShare ceiling give : ℚ) : List OpGroup :=
  (groups.map (OpGroup.clip capShare)).map
    (OpGroup.fill capShare ceiling give (slack capShare ceiling (entitlements groups)))

variable {give leftover owed head : ℚ}

theorem heavy_between (hlt : capShare < g.entitlement) :
    capShare ≤ (if capShare + eps < g.entitlement then capShare else g.entitlement) ∧
      (if capShare + eps < g.entitlement then capShare else g.entitlement) ≤ g.entitlement := by
  split_ifs
  · exact ⟨le_rfl,hlt.le⟩
  · exact ⟨hlt.le,le_rfl⟩

theorem respects_filled (h : Entitled groups) (hcap : 0 < capShare)
    (hceil : ceiling = 0 ∨ 1 ≤ ceiling) (hgi : 0 ≤ give)
    (hle : give ≤ slack capShare ceiling (entitlements groups)) (hg : g ∈ groups) :
    Respects capShare ceiling ((g.clip capShare).fill capShare ceiling give
      (slack capShare ceiling (entitlements groups))) := by
  have hf := h.fresh g hg
  have hn := h.nonneg g hg
  rw [Respects,OpGroup.fill_entitlement,OpGroup.clip_entitlement,
    OpGroup.limit_eq (g := g) (by simp)]
  rcases le_or_gt g.entitlement capShare with hl | hl
  · obtain ⟨hlo,hhi⟩ := fill_clip_under hceil hf hn hl hgi hle (h.room_le_slack hg hl)
    exact ⟨hn.trans hlo,fun _ => .inl hhi,fun hlt => absurd hlt (not_lt.mpr hl)⟩
  · have hb := heavy_between hl
    rw [fill_clip_heavy _ _ _ hf hl]
    exact ⟨hcap.le.trans hb.1,fun hno => absurd hl (not_lt.mpr hno),fun _ => hb⟩

theorem giveBack_light (hle : g.entitlement ≤ capShare) :
    ((g.clip capShare).fill capShare ceiling give head).giveBack capShare leftover owed =
      (g.clip capShare).fill capShare ceiling give head :=
  if_neg fun hc => absurd hc.2 (by simpa using hle)

variable (ceiling give head leftover owed) in
theorem giveBack_heavy (hf : g.weight = g.entitlement) (hlt : capShare < g.entitlement) :
    (((g.clip capShare).fill capShare ceiling give head).giveBack capShare leftover owed).weight =
      (if capShare + eps < g.entitlement then capShare else g.entitlement) +
        leftover * g.entitlement / owed := by
  have hp := eps_pos
  have hin : capShare - eps ≤ ((g.clip capShare).fill capShare ceiling give head).weight ∧
      capShare < ((g.clip capShare).fill capShare ceiling give head).entitlement := by
    rw [fill_clip_heavy _ _ _ hf hlt,OpGroup.fill_entitlement,OpGroup.clip_entitlement]
    exact ⟨by linarith [(heavy_between hlt).1],hlt⟩
  rw [OpGroup.giveBack_weight,if_pos hin,fill_clip_heavy _ _ _ hf hlt,OpGroup.fill_entitlement,
    OpGroup.clip_entitlement]

theorem sum_filled (h : Entitled groups)
    (hz : slack capShare ceiling (entitlements groups) = 0 → give = 0) :
    ((filled groups capShare ceiling give).map OpGroup.weight).sum =
      1 - surplus capShare (entitlements groups) + give := by
  have hto : (groups.map OpGroup.weight).sum = 1 := by
    rw [sum_map_eq h.fresh,h.total]
  have hcl := sum_clip groups capShare
  have hfi := sum_fill (groups.map (OpGroup.clip capShare)) capShare ceiling give
    (by rwa [h.headroom_eq])
  rw [h.excess_eq,hto] at hcl
  rw [h.headroom_eq] at hfi
  rw [filled,hfi]
  linarith

-- Without an entitlement in the band just above the cap, the returning pass meets exactly
-- the groups the first pass clipped.
theorem sum_returned (h : Entitled groups) (hcap : 0 < capShare)
    (hs : eps < surplus capShare (entitlements groups))
    (hap : ∀ e ∈ entitlements groups, e ≤ capShare ∨ capShare + eps < e) :
    (((filled groups capShare ceiling give).map (OpGroup.giveBack capShare leftover
      (above capShare (entitlements groups)).sum)).map OpGroup.weight).sum =
      ((filled groups capShare ceiling give).map OpGroup.weight).sum + leftover := by
  have hp := eps_pos
  refine sum_giveBack _ _ _ _ (above_pos hcap hs).ne' ?_
  rw [← map_id' (above capShare (entitlements groups)),sum_above,filled,map_map,map_map]
  refine sum_map_eq fun g hg => ?_
  have hf := h.fresh g hg
  simp only [Function.comp,OpGroup.fill_entitlement,OpGroup.clip_entitlement]
  rcases hap _ (mem_map_of_mem hg) with hle | hlt
  · rw [if_neg fun hc => absurd hc.2 (not_lt.mpr hle),if_neg (by linarith)]
  · rw [fill_clip_over _ _ _ (hf ▸ hlt),if_pos ⟨by linarith,by linarith⟩,if_pos hlt]

end Filled

theorem waterFill_entitlements (groups : List OpGroup) (capShare ceiling : ℚ) :
    entitlements (waterFill groups capShare ceiling) = entitlements groups := by
  unfold waterFill entitlements
  dsimp only
  split_ifs <;> simp [Function.comp_def]

theorem waterFill_unchanged (h : Entitled groups)
    (hs : surplus capShare (entitlements groups) ≤ eps) :
    waterFill groups capShare ceiling = groups := by
  have hno (g) (hg : g ∈ groups) : ¬ capShare + eps < g.weight := fun ho => by
    rw [h.fresh g hg] at ho
    have hm : g.entitlement ∈ above capShare (entitlements groups) :=
      mem_filter.mpr ⟨mem_map_of_mem hg,decide_eq_true ho⟩
    rw [above_eq_nil hs] at hm
    cases hm
  unfold waterFill
  rw [if_pos (h.excess_eq.trans_le hs)]
  exact (map_congr_left fun g hg => if_neg (hno g hg)).trans (map_id groups)

section Cases

variable (h : Entitled groups) (hcap : 0 < capShare)
  (hs : eps < surplus capShare (entitlements groups))

include h hs

theorem waterFill_absorbed (hle : surplus capShare (entitlements groups) ≤
      slack capShare ceiling (entitlements groups)) :
    waterFill groups capShare ceiling =
      filled groups capShare ceiling (surplus capShare (entitlements groups)) := by
  have hno : ¬ (eps < surplus capShare (entitlements groups) -
      surplus capShare (entitlements groups) ∧ 0 < overEntitlement capShare groups) := by
    rw [sub_self]
    exact fun hc => absurd hc.1 eps_pos.not_gt
  simp only [waterFill,h.excess_eq,h.headroom_eq,if_neg (not_le.mpr hs),if_pos hle,if_pos hs,
    if_neg hno]
  rfl

def given (groups : List OpGroup) (capShare ceiling : ℚ) : ℚ :=
  if eps < slack capShare ceiling (entitlements groups) then
    slack capShare ceiling (entitlements groups)
  else 0

omit h hs in
theorem given_between : 0 ≤ given groups capShare ceiling ∧
    given groups capShare ceiling ≤ slack capShare ceiling (entitlements groups) := by
  have hn := slack_nonneg capShare ceiling (entitlements groups)
  unfold given
  split_ifs
  · exact ⟨hn,le_rfl⟩
  · exact ⟨le_rfl,hn⟩

omit h hs in
theorem given_eq_iff :
    given groups capShare ceiling = slack capShare ceiling (entitlements groups) ↔
      slack capShare ceiling (entitlements groups) = 0 ∨
        eps < slack capShare ceiling (entitlements groups) := by
  unfold given
  split_ifs with hlt
  · exact iff_of_true rfl (.inr hlt)
  · rw [or_iff_left hlt,eq_comm]

include hcap

theorem waterFill_short (hlt : slack capShare ceiling (entitlements groups) <
      surplus capShare (entitlements groups)) :
    waterFill groups capShare ceiling =
      let filled := filled groups capShare ceiling (given groups capShare ceiling)
      if eps < shortfall capShare ceiling (entitlements groups) then
        filled.map (OpGroup.giveBack capShare (shortfall capShare ceiling (entitlements groups))
          (above capShare (entitlements groups)).sum)
      else filled := by
  simp only [waterFill,h.excess_eq,h.headroom_eq,h.overEntitlement_eq,if_neg (not_le.mpr hs),
    if_neg (not_le.mpr hlt),and_iff_left (above_pos hcap hs),filled,given,shortfall]
  by_cases hsl : eps < slack capShare ceiling (entitlements groups)
  · simp only [if_pos hsl]
  · simp only [if_neg hsl,fill_zero,map_id]

omit h in
theorem fair_iff {e : ℚ} :
    capShare + shortfall capShare ceiling (entitlements groups) * e /
        (above capShare (entitlements groups)).sum ≤ e ↔
      Level capShare ceiling (entitlements groups) e := by
  have hx := sum_sub_const capShare (above capShare (entitlements groups))
  rw [← surplus] at hx
  have hd : (e - capShare) * (above capShare (entitlements groups)).sum -
      shortfall capShare ceiling (entitlements groups) * e =
      ((above capShare (entitlements groups)).length * capShare +
        slack capShare ceiling (entitlements groups)) * e -
        capShare * (above capShare (entitlements groups)).sum := by
    rw [← hx,shortfall]
    ring
  rw [← le_sub_iff_add_le',div_le_iff₀ (above_pos hcap hs),← sub_nonneg,hd,sub_nonneg,Level]

omit h in
-- A group in the band just above the cap is given a part though nothing was taken from it; one
-- above the band may be given more than was taken from it.
theorem respects_returned_iff (hleft : eps < shortfall capShare ceiling (entitlements groups))
    (give : ℚ) (hf : g.weight = g.entitlement) (hlt : capShare < g.entitlement) :
    Respects capShare ceiling (((g.clip capShare).fill capShare ceiling give
      (slack capShare ceiling (entitlements groups))).giveBack capShare
        (shortfall capShare ceiling (entitlements groups))
        (above capShare (entitlements groups)).sum) ↔
    capShare + eps < g.entitlement ∧
      Level capShare ceiling (entitlements groups) g.entitlement := by
  have hpos : 0 < shortfall capShare ceiling (entitlements groups) * g.entitlement /
      (above capShare (entitlements groups)).sum :=
    div_pos (mul_pos (eps_pos.trans hleft) (hcap.trans hlt)) (above_pos hcap hs)
  rw [Respects,giveBack_heavy _ _ _ _ _ hf hlt,OpGroup.giveBack_entitlement,
    OpGroup.fill_entitlement,OpGroup.clip_entitlement,← fair_iff hcap hs]
  by_cases ho : capShare + eps < g.entitlement
  · rw [if_pos ho,and_iff_right ho]
    constructor
    · exact fun hr => (hr.2.2 hlt).2
    · intro hle
      exact ⟨by linarith,fun hno => absurd hlt (not_lt.mpr hno),fun _ => ⟨by linarith,hle⟩⟩
  · rw [if_neg ho]
    refine iff_of_false (fun hr => ?_) fun hc => ho hc.1
    linarith [(hr.2.2 hlt).2]

theorem returned_iff (hceil : ceiling = 0 ∨ 1 ≤ ceiling)
    (hleft : eps < shortfall capShare ceiling (entitlements groups)) :
    (∀ g ∈ (filled groups capShare ceiling (given groups capShare ceiling)).map
      (OpGroup.giveBack capShare (shortfall capShare ceiling (entitlements groups))
        (above capShare (entitlements groups)).sum), Respects capShare ceiling g) ↔
    (∀ e ∈ entitlements groups, e ≤ capShare ∨ capShare + eps < e) ∧
    ∀ e ∈ above capShare (entitlements groups),
      Level capShare ceiling (entitlements groups) e := by
  have hp := eps_pos
  have hab {e : ℚ} : e ∈ above capShare (entitlements groups) ↔
      e ∈ entitlements groups ∧ capShare + eps < e := by
    rw [above,mem_filter,decide_eq_true_eq]
  rw [filled,forall_mem_map,forall_mem_map]
  constructor
  · intro hr
    refine ⟨forall_mem_map.mpr fun g hg => ?_,fun e he => ?_⟩
    · rcases le_or_gt g.entitlement capShare with hle | hlt
      · exact .inl hle
      · exact .inr ((respects_returned_iff hcap hs hleft _ (h.fresh g hg) hlt).mp
          (hr _ (mem_map_of_mem hg))).1
    · obtain ⟨hm,ho⟩ := hab.mp he
      obtain ⟨g,hg,rfl⟩ := mem_map.mp hm
      exact ((respects_returned_iff hcap hs hleft _ (h.fresh g hg) (by linarith)).mp
        (hr _ (mem_map_of_mem hg))).2
  · rintro ⟨hap,hfa⟩
    refine forall_mem_map.mpr fun g hg => ?_
    rcases hap _ (mem_map_of_mem hg) with hle | ho
    · rw [giveBack_light hle]
      exact respects_filled h hcap hceil given_between.1 given_between.2 hg
    · exact (respects_returned_iff hcap hs hleft _ (h.fresh g hg) (by linarith)).mpr
        ⟨ho,hfa _ (hab.mpr ⟨mem_map_of_mem hg,ho⟩)⟩

theorem short_iff (hceil : ceiling = 0 ∨ 1 ≤ ceiling)
    (hlt : slack capShare ceiling (entitlements groups) <
      surplus capShare (entitlements groups)) :
    (((waterFill groups capShare ceiling).map OpGroup.weight).sum = 1 ∧
      ∀ g ∈ waterFill groups capShare ceiling, Respects capShare ceiling g) ↔
    eps < shortfall capShare ceiling (entitlements groups) ∧
    (slack capShare ceiling (entitlements groups) = 0 ∨
      eps < slack capShare ceiling (entitlements groups)) ∧
    (∀ e ∈ entitlements groups, e ≤ capShare ∨ capShare + eps < e) ∧
    ∀ e ∈ above capShare (entitlements groups),
      Level capShare ceiling (entitlements groups) e := by
  have hfi : ((filled groups capShare ceiling (given groups capShare ceiling)).map
      OpGroup.weight).sum =
        1 - surplus capShare (entitlements groups) + given groups capShare ceiling :=
    sum_filled h fun hz => (given_eq_iff.mpr (.inl hz)).trans hz
  have hgi : given groups capShare ceiling ≤ slack capShare ceiling (entitlements groups) :=
    given_between.2
  rw [waterFill_short h hcap hs hlt]
  dsimp only
  split_ifs with hleft
  · rw [returned_iff h hcap hs hceil hleft,← given_eq_iff]
    rw [and_iff_right hleft]
    refine and_congr_left fun hap => ?_
    rw [sum_returned h hcap hs hap.1,hfi,shortfall]
    constructor
    · intro hsum
      linarith
    · intro hall
      linarith
  · refine iff_of_false (fun hc => ?_) fun hc => hleft hc.1
    linarith [hfi.symm.trans hc.1]

end Cases

end WaterFill

theorem entitle_entitled {groups : List OpGroup} (hm : ∀ g ∈ groups, 0 ≤ g.mass)
    (hto : 0 < totalMass groups) : Entitled (entitle groups) where
  fresh := forall_mem_map.mpr fun _ _ => rfl
  nonneg := forall_mem_map.mpr fun g hg => div_nonneg (hm g hg) hto.le
  total := by
    rw [entitle,map_map]
    exact (sum_map_div groups OpGroup.mass _).trans (div_self hto.ne')

theorem joinGroup_mass_pos {operator : GoString} {draw w : ℚ} {ep : EndpointAddr}
    {groups : List OpGroup} (hw : 0 < w) (h : ∀ g ∈ groups, 0 < g.mass) :
    ∀ g ∈ joinGroup operator draw w ep groups, 0 < g.mass := by
  induction groups with
  | nil =>
    intro g hg
    cases mem_singleton.mp hg
    exact hw
  | cons k gs ih =>
    obtain ⟨hk,hgs⟩ := forall_mem_cons.mp h
    rw [joinGroup]
    split
    · exact forall_mem_cons.mpr ⟨add_pos hk hw,hgs⟩
    · exact forall_mem_cons.mpr ⟨hk,ih hgs⟩

section

variable (P : Platform) (keep : Nat → Bool) (weight : Option (Nat → ℚ)) (draw : Nat → ℚ)
  (candidates : List EndpointAddr)

theorem groupCandidates_mass_pos :
    ∀ g ∈ groupCandidates P keep weight draw candidates, 0 < g.mass := by
  rw [groupCandidates]
  generalize candidates.zipIdx = l
  have hk : ∀ groups : List OpGroup, (∀ g ∈ groups, 0 < g.mass) → ∀ g ∈ l.foldl
      (fun groups p =>
        if keep p.2 && decide (0 < weightAt weight p.2) then
          joinGroup (p.1.operator P) (draw p.2) (weightAt weight p.2) p.1 groups
        else groups) groups, 0 < g.mass := by
    induction l with
    | nil => exact fun groups h => h
    | cons p l ih =>
      intro groups h
      rw [foldl_cons]
      apply ih
      split
      · next hp => exact joinGroup_mass_pos (of_decide_eq_true (Bool.and_eq_true_iff.mp hp).2) h
      · exact h
  exact hk [] (forall_mem_nil _)

theorem capped_groups_entitled
    (hto : 0 < totalMass (groupCandidates P keep weight draw candidates)) :
    Entitled (entitle (groupCandidates P keep weight draw candidates)) :=
  entitle_entitled (fun g hg => (groupCandidates_mass_pos P keep weight draw candidates g hg).le)
    hto

end

theorem water_filling_respects_entitlements (groups : List OpGroup) (capShare ceiling : ℚ)
    (h : Entitled groups) (hcap : 0 < capShare ∧ capShare ≤ 1)
    (hceil : ceiling = 0 ∨ 1 ≤ ceiling) :
    entitlements (waterFill groups capShare ceiling) = entitlements groups ∧
    ((((waterFill groups capShare ceiling).map OpGroup.weight).sum = 1 ∧
      ∀ g ∈ waterFill groups capShare ceiling, Respects capShare ceiling g) ↔
      Shareable capShare ceiling (entitlements groups)) := by
  refine ⟨waterFill_entitlements _ _ _,?_⟩
  rcases le_or_gt (surplus capShare (entitlements groups)) eps with hs | hs
  · rw [waterFill_unchanged h hs,sum_map_eq h.fresh]
    refine iff_of_true
      ⟨h.total,fun g hg => respects_of_fresh (h.fresh g hg) (h.nonneg g hg)⟩ (.inl ?_)
    rw [surplus,above_eq_nil hs]
    exact slack_nonneg _ _ _
  · rcases le_or_gt (surplus capShare (entitlements groups))
      (slack capShare ceiling (entitlements groups)) with hle | hlt
    · have hpos := eps_pos.trans hs
      rw [waterFill_absorbed h hs hle]
      refine iff_of_true ⟨?_,?_⟩ (.inl hle)
      · rw [sum_filled h fun hz => absurd (hz ▸ hle) (not_le.mpr hpos),sub_add_cancel]
      · exact forall_mem_map.mpr (forall_mem_map.mpr fun g hg =>
          respects_filled h hcap.1 hceil hpos.le hle hg)
    · rw [short_iff h hcap.1 hs hceil hlt,Shareable,or_iff_right (not_le.mpr hlt)]

def holding (share : ℚ) : OpGroup := ⟨[],1,share,[],share,share⟩

def dominated : List OpGroup := [holding (7 / 10),holding (1 / 5),holding (1 / 10)]

theorem dominant_operator_is_cut_to_half :
    (waterFill dominated (1 / 2) 3).map OpGroup.weight = [1 / 2,8 / 25,9 / 50] ∧
      ((waterFill dominated (1 / 2) 3).map OpGroup.weight).sum = 1 ∧
      ∀ g ∈ waterFill dominated (1 / 2) 3, Respects (1 / 2) 3 g := by
  have h := water_filling_respects_entitlements dominated (1 / 2) 3
    ⟨by decide +kernel,by decide +kernel,by decide +kernel⟩ ⟨by decide +kernel,by decide +kernel⟩
    (.inr (by decide +kernel))
  exact ⟨by decide +kernel,h.2.mpr (.inl (by decide +kernel))⟩

def twoOverTheCap : List OpGroup := [holding (29 / 50),holding (41 / 100),holding (1 / 100)]

def oneInTheBand : List OpGroup :=
  [holding (1 / 2),holding (3 / 10 + eps / 2),holding (1 / 5 - eps / 2)]

theorem returned_share_exceeds_what_was_taken :
    Entitled twoOverTheCap ∧
      (waterFill twoOverTheCap (2 / 5) 3).map OpGroup.weight =
        [2473 / 4950,4657 / 9900,3 / 100] ∧ (41 / 100 : ℚ) < 4657 / 9900 ∧
    Entitled oneInTheBand ∧
      ((waterFill oneInTheBand (3 / 10) 1).map OpGroup.weight).sum = 5600000001 / 5000000000 := by
  refine ⟨⟨by decide +kernel,by decide +kernel,by decide +kernel⟩,by decide +kernel,
    by decide +kernel,⟨by decide +kernel,by decide +kernel,by decide +kernel⟩,by decide +kernel⟩

end SageGateway
