import Mathlib.Data.List.Dedup
import Mathlib.Data.List.Perm.Subperm
import Mathlib.Data.List.Sort

namespace Votes

open List

variable {α : Type} [LinearOrder α]

def sorted (l : List α) : List α := l.insertionSort (· ≤ ·)

def middle (l : List α) : Option α := (sorted l)[l.length / 2]?

def topPair (close : α → α → Bool) : List α → Option α
  | a :: b :: rest => if close b a then some a else topPair close (b :: rest)
  | _ => none

def anchor (close : α → α → Bool) (votes : List α) : Option α :=
  match topPair close (sorted votes).reverse with
  | some a => some a
  | none => (sorted votes)[(votes.length - 1) / 2]?

def Convex (close : α → α → Bool) : Prop :=
  ∀ ⦃u w v : α⦄, u ≤ w → w ≤ v → close u v → close w v

def Backs (close : α → α → Bool) (votes : List α) (v : α) : Prop :=
  ∃ w, [w,v].Subperm votes ∧ w ≤ v ∧ close w v

theorem sorted_perm (l : List α) : (sorted l).Perm l := List.perm_insertionSort _ l

theorem sorted_le (l : List α) : (sorted l).Pairwise (· ≤ ·) := List.pairwise_insertionSort _ l

theorem sorted_eq_of_perm {l l' : List α} (h : l.Perm l') : sorted l = sorted l' :=
  ((sorted_perm l).trans (h.trans (sorted_perm l').symm)).eq_of_pairwise' (sorted_le l)
    (sorted_le l')

theorem sorted_le_of_few_above {l : List α} {j : Nat} {a H : α} (h : (sorted l)[j]? = some a)
    (hfe : (l.filter (H < ·)).length + j < l.length) : a ≤ H := by
  by_contra haH
  obtain ⟨hlt,hg⟩ := List.getElem?_eq_some_iff.mp h
  have hs := drop_eq_getElem_cons hlt
  rw [hg] at hs
  have hd : ((sorted l).drop j).Pairwise (· ≤ ·) := (sorted_le l).drop
  rw [hs] at hd
  have hr := pairwise_cons.mp hd
  have ha : ∀ x ∈ (sorted l).drop j, H < x := by
    intro x hx
    rw [hs] at hx
    rcases mem_cons.mp hx with rfl | hx
    · exact lt_of_not_ge haH
    · exact lt_of_lt_of_le (lt_of_not_ge haH) (hr.1 x hx)
  have hf : ((sorted l).drop j).filter (H < ·) = (sorted l).drop j :=
    filter_eq_self.mpr fun x hx => decide_eq_true (ha x hx)
  have hle := ((drop_sublist j (sorted l)).filter (H < ·)).length_le
  rw [hf,length_drop,((sorted_perm l).filter _).length_eq,(sorted_perm l).length_eq] at hle
  omega

theorem middle_eq_of_perm {l l' : List α} (h : l.Perm l') : middle l = middle l' := by
  rw [middle,middle,sorted_eq_of_perm h,h.length_eq]

theorem middle_mem {l : List α} {a : α} (h : middle l = some a) : a ∈ l :=
  (sorted_perm l).mem_iff.mp (mem_of_getElem? h)

theorem middle_isSome {l : List α} (h : l ≠ []) : ∃ a, middle l = some a := by
  have hl : l.length / 2 < (sorted l).length := by
    rw [(sorted_perm l).length_eq]
    have := length_pos_iff.mpr h
    omega
  exact ⟨_,List.getElem?_eq_getElem hl⟩

section TopPair

variable {close : α → α → Bool}

omit [LinearOrder α] in
theorem topPair_backed {l : List α} {v : α} (h : topPair close l = some v) :
    ∃ w, [v,w].Sublist l ∧ close w v := by
  fun_induction topPair close l with
  | case1 a b rest hc =>
    cases h
    exact ⟨b,.cons_cons _ (.cons_cons b (nil_sublist rest)),hc⟩
  | case2 a b rest hc ih =>
    obtain ⟨w,hs,hw⟩ := ih h
    exact ⟨w,hs.cons a,hw⟩
  | case3 => cases h

theorem topPair_top (hc : Convex close) {l : List α} (hl : l.Pairwise (· ≥ ·)) {u w : α}
    (hs : [u,w].Sublist l) (hcl : close w u) : ∃ v, topPair close l = some v ∧ u ≤ v := by
  fun_induction topPair close l with
  | case1 a b rest hab =>
    refine ⟨a,rfl,?_⟩
    rcases mem_cons.mp (hs.subset (.head _)) with rfl | hu
    · exact le_refl _
    · exact (pairwise_cons.mp hl).1 u hu
  | case2 a b rest hab ih =>
    obtain ⟨ha,hre⟩ := pairwise_cons.mp hl
    rcases sublist_cons_iff.mp hs with hs | ⟨r,hr,hs⟩
    · exact ih hre hs
    · cases hr
      have hw : w ∈ b :: rest := hs.subset (.head _)
      have hwb : w ≤ b := by
        rcases mem_cons.mp hw with rfl | hw
        · exact le_refl _
        · exact (pairwise_cons.mp hre).1 w hw
      exact absurd (hc hwb (ha b (.head _)) hcl) hab
  | case3 l hsh =>
    obtain ⟨a,b,rest,rfl⟩ : ∃ a b rest, l = a :: b :: rest := by
      have hle := hs.length_le
      match l with
      | a :: b :: rest => exact ⟨a,b,rest,rfl⟩
      | [a] | [] => simp at hle
    exact absurd rfl (hsh a b rest)

end TopPair

section Anchor

variable {close : α → α → Bool} {votes votes' : List α}

theorem Backs.subperm (hs : votes.Subperm votes') {v : α} (h : Backs close votes v) :
    Backs close votes' v := by
  obtain ⟨w,hw,hle⟩ := h
  exact ⟨w,hw.trans hs,hle⟩

theorem topPair_backs {a : α} (h : topPair close (sorted votes).reverse = some a) :
    Backs close votes a := by
  obtain ⟨x,hx,hcx⟩ := topPair_backed h
  have hx' : [x,a].Sublist (sorted votes) := by
    have := hx.reverse
    rwa [reverse_reverse] at this
  have hxa : x ≤ a := by
    have := (sorted_le votes).sublist hx'
    simpa using this
  exact ⟨x,hx'.subperm.trans (sorted_perm votes).subperm,hxa,hcx⟩

theorem anchor_of_backs (hc : Convex close) {v : α} (h : Backs close votes v) :
    ∃ a, anchor close votes = some a ∧ v ≤ a ∧ Backs close votes a := by
  obtain ⟨w,hs,hle,hcl⟩ := h
  have hp : [w,v].Sublist (sorted votes) := pair_sublist_insertionSort' hle hs
  have hd : (sorted votes).reverse.Pairwise (· ≥ ·) := pairwise_reverse.mpr (sorted_le votes)
  obtain ⟨a,ha,hva⟩ := topPair_top hc hd hp.reverse hcl
  exact ⟨a,by rw [anchor,ha],hva,topPair_backs ha⟩

def lowMiddle (votes : List α) : Option α := (sorted votes)[(votes.length - 1) / 2]?

theorem anchor_cases (hc : Convex close) {a : α} (h : anchor close votes = some a) :
    Backs close votes a ∧ (∀ v, Backs close votes v → v ≤ a) ∨
      (∀ v, ¬Backs close votes v) ∧ lowMiddle votes = some a := by
  by_cases hb : ∃ v, Backs close votes v
  · have htop : ∀ v, Backs close votes v → v ≤ a ∧ Backs close votes a := by
      intro v hv
      obtain ⟨a',ha,hle,hba⟩ := anchor_of_backs hc hv
      cases h.symm.trans ha
      exact ⟨hle,hba⟩
    obtain ⟨v,hv⟩ := hb
    exact .inl ⟨(htop v hv).2,fun v hv => (htop v hv).1⟩
  · refine .inr ⟨fun v hv => hb ⟨v,hv⟩,?_⟩
    unfold anchor at h
    split at h
    · rename_i a' hp
      exact absurd ⟨a',topPair_backs hp⟩ hb
    · exact h

theorem anchor_mono (hc : Convex close) (hs : votes.Subperm votes') {v : α}
    (h : Backs close votes v) :
    ∃ a a', anchor close votes = some a ∧ anchor close votes' = some a' ∧ a ≤ a' := by
  obtain ⟨a,ha,-,hb⟩ := anchor_of_backs hc h
  obtain ⟨a',ha',hle,-⟩ := anchor_of_backs hc (hb.subperm hs)
  exact ⟨a,a',ha,ha',hle⟩

theorem anchor_mem {a : α} (h : anchor close votes = some a) : a ∈ votes := by
  unfold anchor at h
  split at h
  · rename_i a' hp
    cases h
    obtain ⟨w,hs,-⟩ := topPair_backed hp
    exact (sorted_perm votes).mem_iff.mp (mem_reverse.mp (hs.subset (.head _)))
  · exact (sorted_perm votes).mem_iff.mp (mem_of_getElem? h)

variable (close) in
theorem anchor_isSome (h : votes ≠ []) : ∃ a, anchor close votes = some a := by
  unfold anchor
  split
  · exact ⟨_,rfl⟩
  · have hl : (votes.length - 1) / 2 < (sorted votes).length := by
      rw [(sorted_perm votes).length_eq]
      have := length_pos_iff.mpr h
      omega
    exact ⟨_,List.getElem?_eq_getElem hl⟩

theorem anchor_of_one_above {H v a : α} {rest : List α} (hv : votes.Perm (v :: rest))
    (hr : rest ≠ []) (hle : ∀ w ∈ rest, w ≤ H) (h : anchor close votes = some a) :
    a ≤ H ∨ ∃ w ∈ rest, close w a := by
  by_cases haH : a ≤ H
  · exact .inl haH
  unfold anchor at h
  split at h
  · rename_i a' hp
    cases h
    obtain ⟨w,hs,hc⟩ := topPair_backed hp
    have hs' : [a,w].Subperm (v :: rest) :=
      hs.subperm.trans (((reverse_perm _).trans ((sorted_perm votes).trans hv)).subperm)
    have hav : a = v := by
      rcases mem_cons.mp (hs'.subset (.head _)) with rfl | hm
      · rfl
      · exact absurd (hle a hm) haH
    subst hav
    have hw := (subperm_cons a).mp hs'
    exact .inr ⟨w,hw.subset (.head _),hc⟩
  · have hpo := length_pos_iff.mpr hr
    have ha : (votes.filter (H < ·)).length ≤ 1 := by
      rw [(hv.filter _).length_eq,filter_cons,
        filter_eq_nil_iff.mpr fun w hw => by simpa using hle w hw]
      split_ifs <;> simp
    have hl := hv.length_eq
    rw [length_cons] at hl
    exact .inl (sorted_le_of_few_above h (by omega))

end Anchor

section Groups

variable {β κ : Type} [DecidableEq κ] (key : β → κ) (val : β → α)

def valuesOf (l : List β) (k : κ) : List α := (l.filter fun b => key b = k).map val

def voteOf (l : List β) (k : κ) : Option α := middle (valuesOf key val l k)

def keysOf (l : List β) : List κ := (l.map key).dedup

def votes (l : List β) : List α := (keysOf key l).filterMap (voteOf key val l)

variable {key val}

theorem mem_keysOf {l : List β} {k : κ} : k ∈ keysOf key l ↔ ∃ b ∈ l, key b = k :=
  mem_dedup.trans mem_map

theorem voteOf_mem {l : List β} {k : κ} {a : α} (h : voteOf key val l k = some a) :
    ∃ b ∈ l, key b = k ∧ val b = a := by
  obtain ⟨b,hb,hv⟩ := mem_map.mp (middle_mem h)
  obtain ⟨hb,hk⟩ := mem_filter.mp hb
  exact ⟨b,hb,of_decide_eq_true hk,hv⟩

variable (key val) in
theorem voteOf_isSome {l : List β} {b : β} (h : b ∈ l) : ∃ a, voteOf key val l (key b) =
    some a := by
  refine middle_isSome (ne_nil_of_mem (a := val b) ?_)
  exact mem_map.mpr ⟨b,mem_filter.mpr ⟨h,decide_eq_true rfl⟩,rfl⟩

theorem voteOf_congr {l l' : List β} (h : l.Perm l') (k : κ) :
    voteOf key val l k = voteOf key val l' k :=
  middle_eq_of_perm ((h.filter _).map val)

theorem voteOf_append {l l' : List β} {k : κ} (h : ∀ b ∈ l', key b ≠ k) :
    voteOf key val (l ++ l') k = voteOf key val l k := by
  have hn : l'.filter (fun b => key b = k) = [] :=
    filter_eq_nil_iff.mpr fun b hb => by simpa using h b hb
  rw [voteOf,valuesOf,filter_append,hn,append_nil,← valuesOf,← voteOf]

variable (val) in
theorem votes_subperm {l l' l'' : List β} (hp : l''.Perm (l ++ l'))
    (hn : ∀ b ∈ l', ∀ a ∈ l, key b ≠ key a) :
    (votes key val l).Subperm (votes key val l'') := by
  have hke : (keysOf key l).Subperm (keysOf key l'') := by
    refine subperm_of_subset (nodup_dedup _) fun k hk => ?_
    obtain ⟨b,hb,rfl⟩ := mem_keysOf.mp hk
    exact mem_keysOf.mpr ⟨b,hp.mem_iff.mpr (mem_append_left l' hb),rfl⟩
  have hs : votes key val l = (keysOf key l).filterMap (voteOf key val l'') := by
    refine filterMap_congr fun k hk => ?_
    obtain ⟨a,ha,rfl⟩ := mem_keysOf.mp hk
    rw [voteOf_congr hp,voteOf_append fun b hb => hn b hb a ha]
  rw [hs]
  obtain ⟨m,hm,hsu⟩ := hke
  exact ⟨m.filterMap _,hm.filterMap _,hsu.filterMap _⟩

theorem mem_votes {l : List β} {a : α} (h : a ∈ votes key val l) : ∃ b ∈ l, val b = a := by
  obtain ⟨k,-,hk⟩ := mem_filterMap.mp h
  obtain ⟨b,hb,-,hv⟩ := voteOf_mem hk
  exact ⟨b,hb,hv⟩

variable (key val) in
theorem votes_ne_nil {l : List β} (h : l ≠ []) : votes key val l ≠ [] := by
  obtain ⟨b,hb⟩ := exists_mem_of_ne_nil l h
  obtain ⟨a,ha⟩ := voteOf_isSome key val hb
  exact ne_nil_of_mem (mem_filterMap.mpr ⟨key b,mem_keysOf.mpr ⟨b,hb,rfl⟩,ha⟩)

theorem backs_of_close {close : α → α → Bool} {l : List β} {k k' : κ} {v w : α} (hne : k' ≠ k)
    (hw : voteOf key val l k' = some w) (hv : voteOf key val l k = some v) (hle : w ≤ v)
    (hc : close w v) : Backs close (votes key val l) v := by
  have hke : [k',k].Subperm (keysOf key l) := by
    refine subperm_of_subset (by simpa using hne) fun j hj => ?_
    rcases mem_pair.mp hj with rfl | rfl
    · obtain ⟨b,hb,hk,-⟩ := voteOf_mem hw
      exact mem_keysOf.mpr ⟨b,hb,hk⟩
    · obtain ⟨b,hb,hk,-⟩ := voteOf_mem hv
      exact mem_keysOf.mpr ⟨b,hb,hk⟩
  have hp : [w,v] = [k',k].filterMap (voteOf key val l) := by simp [hw,hv]
  obtain ⟨m,hm,hs⟩ := hke
  refine ⟨w,?_,hle,hc⟩
  rw [hp]
  exact ⟨m.filterMap _,hm.filterMap _,hs.filterMap _⟩

theorem anchor_of_one_group_above {close : α → α → Bool} {l : List β} {H a : α} {k : κ}
    (hon : ∀ b ∈ l, H < val b → key b = k) (ho : ∃ b ∈ l, key b ≠ k)
    (h : anchor close (votes key val l) = some a) : a ≤ H ∨ ∃ w ≤ H, close w a := by
  have hbe : ∀ j w, voteOf key val l j = some w → j ≠ k → w ≤ H := by
    intro j w hw hj
    obtain ⟨b,hb,hke,rfl⟩ := voteOf_mem hw
    exact le_of_not_gt fun hlt => hj (hke ▸ hon b hb hlt)
  by_cases hk : k ∈ keysOf key l
  · obtain ⟨b,hb,rfl⟩ := mem_keysOf.mp hk
    obtain ⟨v,hv⟩ := voteOf_isSome key val hb
    have hp : (votes key val l).Perm
        (v :: ((keysOf key l).erase (key b)).filterMap (voteOf key val l)) := by
      have hs := (perm_cons_erase hk).filterMap (voteOf key val l)
      rwa [filterMap_cons,hv] at hs
    obtain ⟨c,hc,hne⟩ := ho
    obtain ⟨w,hw⟩ := voteOf_isSome key val hc
    have hr : ((keysOf key l).erase (key b)).filterMap (voteOf key val l) ≠ [] := by
      refine ne_nil_of_mem (mem_filterMap.mpr ⟨key c,?_,hw⟩)
      exact (mem_erase_of_ne hne).mpr (mem_keysOf.mpr ⟨c,hc,rfl⟩)
    have hle : ∀ w ∈ ((keysOf key l).erase (key b)).filterMap (voteOf key val l), w ≤ H := by
      intro w hw
      obtain ⟨j,hj,hjw⟩ := mem_filterMap.mp hw
      exact hbe j w hjw ((nodup_dedup _).mem_erase_iff.mp hj).1
    exact (anchor_of_one_above hp hr hle h).imp_right fun ⟨w,hw,hcl⟩ =>
      ⟨w,hle w hw,hcl⟩
  · obtain ⟨j,hj,hja⟩ := mem_filterMap.mp (anchor_mem h)
    exact .inl (hbe j a hja fun heq => hk (heq ▸ hj))

end Groups

end Votes
