import SageGateway.Domain
import SageGateway.Lib.GoMap

namespace SageGateway.Qos

open List hiding set
open Option

abbrev FilterFunc := EndpointAddr → Bool

abbrev HeightFunc := EndpointAddr → Option UInt64

structure SelectResult where
  endpoints : List EndpointAddr
  degraded : Bool
  tier : Nat
  deriving DecidableEq

def passed : List FilterFunc → EndpointAddr → Bool
  | [],_ => true
  | f :: fs,ep => if !f ep then false else passed fs ep

def applyFilters (endpoints : List EndpointAddr) (filters : List FilterFunc) : List EndpointAddr :=
  if filters.length = 0 then endpoints else endpoints.filter (passed filters)

def minAllowedHeight (perceived allowance : UInt64) : UInt64 :=
  if perceived = 0 ∨ allowance = 0 then 0
  else if perceived ≤ allowance then 0
  else perceived - allowance

def rankFallback (eps : List EndpointAddr)
    (ranker : Option (List EndpointAddr → List EndpointAddr)) : List EndpointAddr :=
  match ranker with
  | none => eps
  | some ranker => if 0 < (ranker eps).length then ranker eps else eps

structure Lags where
  lags : GoMap EndpointAddr UInt64
  bestLag : UInt64
  known : Nat

section

variable (getHeight : HeightFunc)

def blockHeightFilter (minHeight : UInt64) : FilterFunc := fun endpoint =>
  match getHeight endpoint with
  | none => true
  | some height => decide (minHeight ≤ height)

def lag (perceived h : UInt64) : UInt64 := if h < perceived then perceived - h else 0

def readLags (perceived : UInt64) : Lags → List EndpointAddr → Lags
  | r,[] => r
  | r,ep :: eps =>
      match getHeight ep with
      | none => readLags perceived r eps
      | some h =>
          let l := lag perceived h
          readLags perceived
            ⟨r.lags.put ep l,if l < r.bestLag then l else r.bestLag,r.known + 1⟩ eps

def leastStaleFallback (perceived : UInt64) (eps : List EndpointAddr) : List EndpointAddr :=
  if perceived = 0 ∨ eps.length ≤ 1 then eps
  else
    let r := readLags getHeight perceived ⟨∅,~~~0,0⟩ eps
    if r.known = 0 then eps
    else eps.filter fun ep =>
      match r.lags.get ep with
      | none => false
      | some l => decide (l = r.bestLag)

def anyKnown (endpoints : List EndpointAddr) : Bool := endpoints.any fun ep => (getHeight ep).isSome

def informed (endpoints set : List EndpointAddr) : Bool :=
  !anyKnown getHeight endpoints || anyKnown getHeight set

def keepUnknown (ranker : Option (List EndpointAddr → List EndpointAddr))
    (set : List EndpointAddr) : List EndpointAddr :=
  let ranked := rankFallback set ranker
  ranked ++ set.filter fun ep => (getHeight ep).isNone && !ranked.contains ep

def fallback (endpoints : List EndpointAddr) (nonBlockHeightFilters : Option (List FilterFunc)) :
    List EndpointAddr :=
  match nonBlockHeightFilters with
  | none => endpoints
  | some fs =>
      if 0 < (applyFilters endpoints fs).length then applyFilters endpoints fs else endpoints

def selectWithKnownHeights (endpoints : List EndpointAddr) (filters : List FilterFunc)
    (relaxedFilters nonBlockHeightFilters : Option (List FilterFunc))
    (fallbackRanker : Option (List EndpointAddr → List EndpointAddr)) : SelectResult :=
  if endpoints.length = 0 then ⟨[],false,0⟩
  else
    let strict := applyFilters endpoints filters
    if 0 < strict.length ∧ informed getHeight endpoints strict = true then ⟨strict,false,1⟩
    else
      let relaxed := relaxedFilters.map (applyFilters endpoints)
      match relaxed.filter fun set =>
          decide (0 < set.length) && informed getHeight endpoints set with
      | some set => ⟨set,true,2⟩
      | none =>
          ⟨keepUnknown getHeight fallbackRanker (fallback endpoints nonBlockHeightFilters),true,3⟩

-- What the plugins' SelectEndpoints share: the height filter in front of the plugin's own filters,
-- twice the allowance in the relaxed tier. A plugin without its own filters passes nil for tier 3.
def selectEndpoints (perceived syncAllowance : UInt64) (ownFilters : Option (List FilterFunc))
    (endpoints : List EndpointAddr) : SelectResult :=
  let strict := blockHeightFilter getHeight (minAllowedHeight perceived syncAllowance)
  let relaxed := blockHeightFilter getHeight (minAllowedHeight perceived (syncAllowance * 2))
  selectWithKnownHeights getHeight endpoints (strict :: ownFilters.getD [])
    (some (relaxed :: ownFilters.getD [])) ownFilters
    (some (leastStaleFallback getHeight perceived))

end

theorem passed_eq_all (filters : List FilterFunc) (ep : EndpointAddr) :
    passed filters ep = filters.all (· ep) := by
  induction filters with
  | nil => rfl
  | cons f fs ih =>
    rw [passed,all_cons,ih]
    cases f ep <;> rfl

theorem applyFilters_eq (endpoints : List EndpointAddr) (filters : List FilterFunc) :
    applyFilters endpoints filters = endpoints.filter fun ep => filters.all (· ep) := by
  unfold applyFilters
  split
  · next hn =>
    rw [length_eq_zero_iff.mp hn]
    exact (filter_eq_self.mpr fun _ _ => rfl).symm
  · exact filter_congr fun ep _ => passed_eq_all filters ep

theorem applyFilters_sublist (endpoints : List EndpointAddr) (filters : List FilterFunc) :
    (applyFilters endpoints filters).Sublist endpoints := by
  rw [applyFilters_eq]
  exact filter_sublist

theorem lag_toNat (perceived h : UInt64) : (lag perceived h).toNat = perceived.toNat - h.toNat := by
  unfold lag
  split
  · next hlt => exact UInt64.toNat_sub_of_le _ _ (UInt64.le_of_lt hlt)
  · next hge =>
    have hle : perceived.toNat ≤ h.toNat := UInt64.le_iff_toNat_le.mp (UInt64.not_lt.mp hge)
    rw [Nat.sub_eq_zero_of_le hle]
    rfl

section Lags

variable {getHeight : HeightFunc} {perceived : UInt64}

theorem known_readLags (r : Lags) (eps : List EndpointAddr) :
    (readLags getHeight perceived r eps).known =
      r.known + eps.countP fun ep => (getHeight ep).isSome := by
  induction eps generalizing r with
  | nil => rfl
  | cons ep eps ih =>
    rw [readLags,countP_cons]
    cases hh : getHeight ep with
    | none => simp [ih]
    | some h =>
      simp [ih]
      omega

theorem lags_readLags (r : Lags) (eps : List EndpointAddr) (e : EndpointAddr) :
    (readLags getHeight perceived r eps).lags.get e =
      if e ∈ eps ∧ (getHeight e).isSome = true then (getHeight e).map (lag perceived)
      else r.lags.get e := by
  induction eps generalizing r with
  | nil => simp [readLags]
  | cons ep eps ih =>
    rw [readLags]
    cases hh : getHeight ep with
    | none =>
      rw [ih]
      by_cases he : e = ep
      · simp [he,hh]
      · simp [he]
    | some h =>
      rw [ih,GoMap.get_put]
      by_cases he : e = ep
      · simp [he,hh]
      · simp [he]

variable (getHeight perceived) in
theorem bestLag_readLags (r : Lags) (eps : List EndpointAddr) :
    (readLags getHeight perceived r eps).bestLag ≤ r.bestLag ∧
      (∀ e ∈ eps, ∀ h, getHeight e = some h →
        (readLags getHeight perceived r eps).bestLag ≤ lag perceived h) ∧
      ((readLags getHeight perceived r eps).bestLag = r.bestLag ∨ ∃ e ∈ eps, ∃ h,
        getHeight e = some h ∧ (readLags getHeight perceived r eps).bestLag = lag perceived h) := by
  induction eps generalizing r with
  | nil => exact ⟨UInt64.le_refl _,(fun e he => by cases he),.inl rfl⟩
  | cons ep eps ih =>
    rw [readLags]
    cases hh : getHeight ep with
    | none =>
      obtain ⟨hle,ha,hm⟩ := ih r
      refine ⟨hle,fun e he h hg => ?_,hm.imp_right ?_⟩
      · rcases mem_cons.mp he with rfl | he
        · cases hh.symm.trans hg
        · exact ha e he h hg
      · rintro ⟨e,he,h,hg,heq⟩
        exact ⟨e,.tail _ he,h,hg,heq⟩
    | some h =>
      have hs : (if lag perceived h < r.bestLag then lag perceived h else r.bestLag) ≤ r.bestLag ∧
          (if lag perceived h < r.bestLag then lag perceived h else r.bestLag) ≤
            lag perceived h := by
        split
        · next hlt => exact ⟨UInt64.le_of_lt hlt,UInt64.le_refl _⟩
        · next hge => exact ⟨UInt64.le_refl _,UInt64.not_lt.mp hge⟩
      obtain ⟨hle,ha,hm⟩ := ih ⟨r.lags.put ep (lag perceived h),
        if lag perceived h < r.bestLag then lag perceived h else r.bestLag,r.known + 1⟩
      refine ⟨UInt64.le_trans hle hs.1,fun e he k hg => ?_,?_⟩
      · rcases mem_cons.mp he with rfl | he
        · cases hh.symm.trans hg
          exact UInt64.le_trans hle hs.2
        · exact ha e he k hg
      · rcases hm with heq | ⟨e,he,k,hg,heq⟩
        · rw [heq]
          split
          · exact .inr ⟨ep,.head _,h,hh,rfl⟩
          · exact .inl rfl
        · exact .inr ⟨e,.tail _ he,k,hg,heq⟩

variable (getHeight perceived) in
theorem leastStaleFallback_sublist (eps : List EndpointAddr) :
    (leastStaleFallback getHeight perceived eps).Sublist eps := by
  unfold leastStaleFallback
  dsimp only
  split
  · exact List.Sublist.refl eps
  · split
    · exact List.Sublist.refl eps
    · exact filter_sublist

variable (perceived) in
-- The search starts at the largest lag there is, so a known endpoint meets what it ends at.
theorem bestLag_met {eps : List EndpointAddr} {e : EndpointAddr} {h : UInt64} (he : e ∈ eps)
    (hg : getHeight e = some h) :
    ∃ e' ∈ eps, ∃ h', getHeight e' = some h' ∧
      (readLags getHeight perceived ⟨∅,~~~0,0⟩ eps).bestLag = lag perceived h' := by
  obtain ⟨-,ha,hto | hm⟩ := bestLag_readLags getHeight perceived ⟨∅,~~~0,0⟩ eps
  · refine ⟨e,he,h,hg,UInt64.le_antisymm (ha e he h hg) ?_⟩
    rw [hto]
    exact Nat.le_of_lt_succ (lag perceived h).toNat_lt
  · exact hm

variable (getHeight perceived) in
def LeastLag (eps : List EndpointAddr) (e : EndpointAddr) : Prop :=
  ∃ h, getHeight e = some h ∧ ∀ e' ∈ eps, ∀ h', getHeight e' = some h' →
    perceived.toNat - h.toNat ≤ perceived.toNat - h'.toNat

theorem lag_le_iff (h h' : UInt64) :
    lag perceived h ≤ lag perceived h' ↔
    perceived.toNat - h.toNat ≤ perceived.toNat - h'.toNat := by
  rw [UInt64.le_iff_toNat_le,lag_toNat,lag_toNat]

theorem bestLag_eq_iff {eps : List EndpointAddr} {e : EndpointAddr} {h : UInt64} (he : e ∈ eps)
    (hg : getHeight e = some h) :
    lag perceived h = (readLags getHeight perceived ⟨∅,~~~0,0⟩ eps).bestLag ↔
      LeastLag getHeight perceived eps e := by
  obtain ⟨-,ha,-⟩ := bestLag_readLags getHeight perceived ⟨∅,~~~0,0⟩ eps
  constructor
  · intro heq
    refine ⟨h,hg,fun e' he' h' hg' => ?_⟩
    rw [← lag_le_iff,heq]
    exact ha e' he' h' hg'
  · rintro ⟨k,hk,hl⟩
    cases hg.symm.trans hk
    obtain ⟨e',he',h',hg',heq⟩ := bestLag_met perceived he hg
    refine UInt64.le_antisymm ?_ (ha e he h hg)
    rw [heq,lag_le_iff]
    exact hl e' he' h' hg'

theorem mem_leastStale {eps : List EndpointAddr} {r : Lags} (e : EndpointAddr)
    (hr : r = readLags getHeight perceived ⟨∅,~~~0,0⟩ eps) :
    (e ∈ eps.filter fun ep =>
      match r.lags.get ep with
      | none => false
      | some l => decide (l = r.bestLag)) ↔ e ∈ eps ∧ LeastLag getHeight perceived eps e := by
  rw [mem_filter,hr,lags_readLags]
  refine and_congr_right fun he => ?_
  cases hg : getHeight e with
  | none => simp [he,LeastLag,hg]
  | some h =>
    simpa [he] using bestLag_eq_iff he hg

variable (getHeight perceived) in
theorem leastStaleFallback_cases (eps : List EndpointAddr) :
    leastStaleFallback getHeight perceived eps = eps ∧
        (perceived = 0 ∨ eps.length ≤ 1 ∨ ∀ e ∈ eps, getHeight e = none) ∨
      leastStaleFallback getHeight perceived eps ≠ [] ∧
        ∀ e, e ∈ leastStaleFallback getHeight perceived eps ↔
          e ∈ eps ∧ LeastLag getHeight perceived eps e := by
  unfold leastStaleFallback
  dsimp only
  split
  · next hs => exact .inl ⟨rfl,hs.imp_right .inl⟩
  · split
    · next hn =>
      rw [known_readLags,Nat.zero_add,countP_eq_zero] at hn
      exact .inl ⟨rfl,.inr (.inr fun e he => not_isSome_iff_eq_none.mp (hn e he))⟩
    · next hk =>
      rw [known_readLags,Nat.zero_add] at hk
      obtain ⟨e,he,hso⟩ := countP_pos_iff.mp (Nat.pos_of_ne_zero hk)
      obtain ⟨h,hg⟩ := isSome_iff_exists.mp hso
      obtain ⟨e',he',h',hg',heq⟩ := bestLag_met perceived he hg
      refine .inr ⟨?_,fun e => mem_leastStale e rfl⟩
      refine ne_nil_of_mem (a := e') ((mem_leastStale e' rfl).mpr ⟨he',?_⟩)
      exact (bestLag_eq_iff he' hg').mp heq.symm

theorem rankFallback_leastStale (eps : List EndpointAddr) :
    rankFallback eps (some (leastStaleFallback getHeight perceived)) =
      leastStaleFallback getHeight perceived eps := by
  unfold rankFallback
  dsimp only
  split
  · rfl
  · next he =>
    have hn : leastStaleFallback getHeight perceived eps = [] :=
      length_eq_zero_iff.mp (Nat.eq_zero_of_not_pos he)
    obtain ⟨heq,-⟩ | ⟨hne,-⟩ := leastStaleFallback_cases getHeight perceived eps
    · exact heq.symm
    · exact absurd hn hne

end Lags

section Select

variable {getHeight : HeightFunc} {perceived : UInt64}

theorem anyKnown_iff (endpoints : List EndpointAddr) :
    anyKnown getHeight endpoints = true ↔ ∃ e ∈ endpoints, (getHeight e).isSome = true :=
  List.any_eq_true

theorem fallback_sublist (endpoints : List EndpointAddr) (filters : Option (List FilterFunc)) :
    (fallback endpoints filters).Sublist endpoints := by
  unfold fallback
  split
  · exact List.Sublist.refl endpoints
  · split
    · exact applyFilters_sublist _ _
    · exact List.Sublist.refl endpoints

theorem fallback_ne_nil {endpoints : List EndpointAddr} (h : endpoints ≠ [])
    (filters : Option (List FilterFunc)) : fallback endpoints filters ≠ [] := by
  unfold fallback
  split
  · exact h
  · split
    · next hp => exact ne_nil_of_length_pos hp
    · exact h

-- The candidates of the last tier: those that pass the plugin's own filters, or all of them.
def candidates (endpoints : List EndpointAddr) (ownFilters : List FilterFunc) : List EndpointAddr :=
  let passing := endpoints.filter fun ep => ownFilters.all (· ep)
  if passing = [] then endpoints else passing

theorem fallback_eq (endpoints : List EndpointAddr) (ownFilters : Option (List FilterFunc)) :
    fallback endpoints ownFilters = candidates endpoints (ownFilters.getD []) := by
  unfold fallback candidates
  cases ownFilters with
  | none =>
    simp only [getD_none,all_nil,filter_true]
    split
    · rfl
    · rfl
  | some fs =>
    simp [← applyFilters_eq]
    by_cases hn : applyFilters endpoints fs = []
    · rw [if_pos hn,hn,length_nil,if_neg (Nat.lt_irrefl 0)]
    · rw [if_neg hn,if_pos (length_pos_of_ne_nil hn)]

theorem keepUnknown_subperm (set : List EndpointAddr) :
    (keepUnknown getHeight (some (leastStaleFallback getHeight perceived)) set).Subperm set := by
  unfold keepUnknown
  rw [rankFallback_leastStale]
  let ranked := leastStaleFallback getHeight perceived set
  have hr : ranked.Sublist (set.filter ranked.contains) := by
    have hs : ranked.filter ranked.contains = ranked :=
      filter_eq_self.mpr fun e he => contains_iff_mem.mpr he
    have hf := (leastStaleFallback_sublist getHeight perceived set).filter ranked.contains
    rwa [hs] at hf
  have hre : (set.filter fun ep => (getHeight ep).isNone && !ranked.contains ep).Sublist
      (set.filter fun ep => !ranked.contains ep) := by
    rw [← List.filter_filter]
    exact filter_sublist
  exact (hr.append hre).subperm.trans (filter_append_perm _ _).subperm

variable {set : List EndpointAddr}

theorem keepUnknown_ne_nil (h : set ≠ []) :
    keepUnknown getHeight (some (leastStaleFallback getHeight perceived)) set ≠ [] := by
  unfold keepUnknown
  rw [rankFallback_leastStale]
  refine append_ne_nil_of_left_ne_nil ?_ _
  obtain ⟨heq,-⟩ | ⟨hne,-⟩ := leastStaleFallback_cases getHeight perceived set
  · rwa [heq]
  · exact hne

theorem unknown_mem_keepUnknown {e : EndpointAddr} (he : e ∈ set)
    (hn : getHeight e = none) :
    e ∈ keepUnknown getHeight (some (leastStaleFallback getHeight perceived)) set := by
  by_cases hin : e ∈ rankFallback set (some (leastStaleFallback getHeight perceived))
  · exact mem_append_left _ hin
  · refine mem_append_right _ (mem_filter.mpr ⟨he,?_⟩)
    simp [hn,hin]

theorem known_mem_keepUnknown (hp : perceived ≠ 0)
    (hm : 1 < set.length) {e : EndpointAddr} (hk : (getHeight e).isSome = true) :
    e ∈ keepUnknown getHeight (some (leastStaleFallback getHeight perceived)) set ↔
      e ∈ set ∧ LeastLag getHeight perceived set e := by
  unfold keepUnknown
  rw [rankFallback_leastStale,mem_append]
  have hno : (getHeight e).isNone = false := by
    rw [← not_isSome,hk]
    rfl
  simp [hno]
  obtain ⟨-,hs | hf | hn⟩ | ⟨-,hme⟩ := leastStaleFallback_cases getHeight perceived set
  · exact absurd hs hp
  · exact absurd hf (Nat.not_le.mpr hm)
  · have ho : e ∉ set := by
      intro he
      rw [hn e he] at hk
      cases hk
    exact iff_of_false
      (fun he => ho ((leastStaleFallback_sublist getHeight perceived set).subset he))
      fun he => ho he.1
  · exact hme e

variable (getHeight) in
theorem selectWithKnownHeights_cases {endpoints : List EndpointAddr} (h : endpoints ≠ [])
    (filters : List FilterFunc) (relaxedFilters nonBlockHeightFilters : Option (List FilterFunc))
    (fallbackRanker : Option (List EndpointAddr → List EndpointAddr)) :
    (∃ fs degraded tier, (tier = 1 ∨ tier = 2) ∧ applyFilters endpoints fs ≠ [] ∧
      informed getHeight endpoints (applyFilters endpoints fs) = true ∧
      selectWithKnownHeights getHeight endpoints filters relaxedFilters nonBlockHeightFilters
        fallbackRanker = ⟨applyFilters endpoints fs,degraded,tier⟩) ∨
    selectWithKnownHeights getHeight endpoints filters relaxedFilters nonBlockHeightFilters
      fallbackRanker =
        ⟨keepUnknown getHeight fallbackRanker (fallback endpoints nonBlockHeightFilters),true,
          3⟩ := by
  unfold selectWithKnownHeights
  rw [if_neg fun hl => h (length_eq_zero_iff.mp hl)]
  dsimp only
  split
  · next hs =>
    exact .inl ⟨filters,false,1,.inl rfl,ne_nil_of_length_pos hs.1,hs.2,rfl⟩
  · split
    · next set hset =>
      obtain ⟨hm,hok⟩ := filter_eq_some_iff.mp hset
      obtain ⟨fs,-,rfl⟩ := map_eq_some_iff.mp hm
      obtain ⟨hp,hin⟩ := Bool.and_eq_true_iff.mp hok
      exact .inl ⟨fs,true,2,.inr rfl,ne_nil_of_length_pos (of_decide_eq_true hp),hin,rfl⟩
    · exact .inr rfl

end Select

theorem height_selection_never_strands (getHeight : HeightFunc) (perceived syncAllowance : UInt64)
    (ownFilters : Option (List FilterFunc)) {endpoints : List EndpointAddr} (h : endpoints ≠ []) :
    let r := selectEndpoints getHeight perceived syncAllowance ownFilters endpoints
    let set := candidates endpoints (ownFilters.getD [])
    r.endpoints ≠ [] ∧ r.endpoints.Subperm endpoints ∧ (r.tier = 1 ∨ r.tier = 2 ∨ r.tier = 3) ∧
      (r.tier ≠ 3 → (∃ e ∈ endpoints, (getHeight e).isSome = true) →
        ∃ e ∈ r.endpoints, (getHeight e).isSome = true) ∧
      (r.tier = 3 → (∀ e ∈ set, getHeight e = none → e ∈ r.endpoints) ∧
        (perceived ≠ 0 → 1 < set.length → ∀ e, (getHeight e).isSome = true →
          (e ∈ r.endpoints ↔ e ∈ set ∧ LeastLag getHeight perceived set e))) := by
  intro r set
  obtain ⟨fs,degraded,tier,hti,hne,hin,hr⟩ | hr := selectWithKnownHeights_cases getHeight h
    (blockHeightFilter getHeight (minAllowedHeight perceived syncAllowance) :: ownFilters.getD [])
    (some (blockHeightFilter getHeight (minAllowedHeight perceived (syncAllowance * 2)) ::
      ownFilters.getD [])) ownFilters (some (leastStaleFallback getHeight perceived))
  · have heq : r = ⟨applyFilters endpoints fs,degraded,tier⟩ := hr
    have hl : tier ≠ 3 := by
      rcases hti with rfl | rfl
      · decide
      · decide
    rw [heq]
    refine ⟨hne,(applyFilters_sublist endpoints fs).subperm,?_,fun _ hk => ?_,
      fun hth => absurd hth hl⟩
    · exact hti.imp_right .inl
    · unfold informed at hin
      rw [(anyKnown_iff endpoints).mpr hk,Bool.not_true] at hin
      exact (anyKnown_iff _).mp hin
  · have hset : fallback endpoints ownFilters = set := fallback_eq endpoints ownFilters
    have hs := fallback_sublist endpoints ownFilters
    have hf := fallback_ne_nil h ownFilters
    rw [hset] at hr hs hf
    have heq : r = _ := hr
    rw [heq]
    refine ⟨keepUnknown_ne_nil hf,(keepUnknown_subperm set).trans hs.subperm,.inr (.inr rfl),
      fun hl => absurd rfl hl,fun _ => ⟨fun e he hn => ?_,fun hp hm e hk => ?_⟩⟩
    · exact unknown_mem_keepUnknown he hn
    · exact known_mem_keepUnknown hp hm hk

def behind : EndpointAddr := "supplierA-https://rpc.alpha.net".toList

def stranger : EndpointAddr := "supplierB-https://rpc.beta.net".toList

def nearest : EndpointAddr := "supplierC-https://rpc.gamma.net".toList

def reported (e : EndpointAddr) : Option UInt64 :=
  if e = behind then some 90 else if e = nearest then some 100 else none

theorem stale_pool_keeps_the_stranger :
    selectEndpoints reported 200 10 none [behind,stranger,nearest] = ⟨[nearest,stranger],true,3⟩ ∧
      [nearest,stranger].Subperm [behind,stranger,nearest] := by
  have he : selectEndpoints reported 200 10 none [behind,stranger,nearest] =
      ⟨[nearest,stranger],true,3⟩ := by decide
  have ha := height_selection_never_strands reported 200 10 none
    (cons_ne_nil behind [stranger,nearest])
  exact ⟨he,ha.2.1⟩

end SageGateway.Qos
