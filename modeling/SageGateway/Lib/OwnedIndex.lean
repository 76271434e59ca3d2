import SageGateway.Lib.GoMap

structure Owned (V : Type) where
  owner : Nat
  value : V

namespace OwnedIndex

open List GoMap

variable {K V : Type} [DecidableEq K]

def publish (ix : GoMap K (Owned V)) (o : Nat) (l : List (K × V)) : GoMap K (Owned V) :=
  ix.putAll (l.map fun e => (e.1,⟨o,e.2⟩))

def withdrawKey (o : Nat) (ix : GoMap K (Owned V)) (k : K) : GoMap K (Owned V) :=
  if (ix.get k).any fun r => r.owner = o then ix.del k else ix

def withdraw (ix : GoMap K (Owned V)) (o : Nat) (ks : List K) : GoMap K (Owned V) :=
  ks.foldl (withdrawKey o) ix

def withdrawAll (ix : GoMap K (Owned V)) (rows : List (Nat × List K)) : GoMap K (Owned V) :=
  rows.foldl (fun ix row => withdraw ix row.1 row.2) ix

variable {ix : GoMap K (Owned V)} {k : K} {l : List (K × V)} {o : Nat} {r : Owned V}

theorem get_publish_eq_some (h : (publish ix o l).get k = some r) :
    ix.get k = some r ∨ (r.owner = o ∧ (k,r.value) ∈ l) := by
  rcases get_putAll_eq_some h with hold | hm
  · exact .inl hold
  · obtain ⟨e,he,heq⟩ := mem_map.mp hm
    cases heq
    exact .inr ⟨rfl,he⟩

theorem get_publish_of_mem (ix : GoMap K (Owned V)) (o : Nat) {v : V}
    (h : (k,v) ∈ l) : ∃ w, (k,w) ∈ l ∧ (publish ix o l).get k = some ⟨o,w⟩ := by
  induction l using reverseRecOn with
  | nil => cases h
  | append_singleton l e ih =>
    simp only [publish,map_append,putAll_append] at ih ⊢
    by_cases hk : k = e.1
    · subst hk
      exact ⟨e.2,by simp,get_put_self _ _ _⟩
    · have hm : (k,v) ∈ l := by
        rcases mem_append.mp h with hl | he
        · exact hl
        · cases mem_singleton.mp he
          exact absurd rfl hk
      obtain ⟨w,hw,hg⟩ := ih hm
      exact ⟨w,mem_append_left _ hw,(get_put_ne _ _ hk).trans hg⟩

theorem get_publish_of_notMem (ix : GoMap K (Owned V)) (o : Nat)
    (h : ∀ v, (k,v) ∉ l) : (publish ix o l).get k = ix.get k := by
  refine get_putAll_of_notMem fun hk => ?_
  simp only [map_map,mem_map,Function.comp] at hk
  obtain ⟨e,he,rfl⟩ := hk
  exact h e.2 he

theorem get_withdrawKey_eq_some {j : K} :
    (withdrawKey o ix j).get k = some r ↔ ix.get k = some r ∧ (r.owner = o → k ≠ j) := by
  unfold withdrawKey
  split_ifs with ha
  · obtain ⟨r',hr',how⟩ := (Option.any_eq_true _ _).mp ha
    rw [get_del_eq_some]
    constructor
    · rintro ⟨hne,hg⟩
      exact ⟨hg,fun _ => hne⟩
    · rintro ⟨hg,hne⟩
      refine ⟨fun heq => ?_,hg⟩
      subst heq
      cases hr'.symm.trans hg
      exact hne (by simpa using how) rfl
  · refine ⟨fun hg => ⟨hg,?_⟩,And.left⟩
    rintro ho rfl
    simp [hg,ho] at ha

theorem get_withdraw_eq_some {ks : List K} :
    (withdraw ix o ks).get k = some r ↔ ix.get k = some r ∧ (r.owner = o → k ∉ ks) := by
  induction ks generalizing ix with
  | nil => simp [withdraw]
  | cons j ks ih =>
    refine (@ih (withdrawKey o ix j)).trans ?_
    rw [get_withdrawKey_eq_some,mem_cons]
    tauto

theorem get_withdrawAll_eq_some {rows : List (Nat × List K)} :
    (withdrawAll ix rows).get k = some r ↔
      ix.get k = some r ∧ ∀ row ∈ rows, r.owner = row.1 → k ∉ row.2 := by
  induction rows generalizing ix with
  | nil => simp [withdrawAll]
  | cons row rows ih =>
    refine (@ih (withdraw ix row.1 row.2)).trans ?_
    rw [get_withdraw_eq_some,forall_mem_cons,and_assoc]

def Backed (ix : GoMap K (Owned V)) (Holds : Nat → Nat → K → V → Prop) : Prop :=
  ∀ k r, ix.get k = some r → ∃ rank, Holds r.owner rank k r.value

def Covered (ix : GoMap K (Owned V)) (Holds : Nat → Nat → K → V → Prop) : Prop :=
  ∀ o rank k v, Holds o rank k v →
    ∃ r top, ix.get k = some r ∧ rank ≤ top ∧ Holds r.owner top k r.value

variable {ix : GoMap K (Owned V)} {Holds Holds' : Nat → Nat → K → V → Prop}

section Publish

variable {o rank : Nat} {l : List (K × V)}
  (hold : ∀ o' rank' k v, Holds o' rank' k v → Holds' o' rank' k v)
  (hnew : ∀ k v, (k,v) ∈ l → Holds' o rank k v)

include hold hnew

theorem Backed.publish (h : Backed ix Holds) : Backed (publish ix o l) Holds' := by
  intro k r hg
  rcases get_publish_eq_some hg with hb | ⟨ho,hm⟩
  · obtain ⟨rank',hh⟩ := h k r hb
    exact ⟨rank',hold _ _ _ _ hh⟩
  · rw [ho]
    exact ⟨rank,hnew k r.value hm⟩

theorem Covered.publish (h : Covered ix Holds)
    (ho : ∀ o' rank' k v, Holds' o' rank' k v →
      Holds o' rank' k v ∨ (rank' = rank ∧ (k,v) ∈ l))
    (hto : ∀ o' rank' k v w, Holds o' rank' k v → (k,w) ∈ l → rank' ≤ rank) :
    Covered (publish ix o l) Holds' := by
  intro o' rank' k v hh
  by_cases hk : ∃ w, (k,w) ∈ l
  · obtain ⟨w,hw⟩ := hk
    obtain ⟨w',hw',hg⟩ := get_publish_of_mem ix o hw
    refine ⟨_,rank,hg,?_,hnew k w' hw'⟩
    rcases ho _ _ _ _ hh with hb | ⟨heq,-⟩
    · exact hto _ _ _ _ w hb hw
    · exact Nat.le_of_eq heq
  · have hno : ∀ w, (k,w) ∉ l := fun w hw => hk ⟨w,hw⟩
    rcases ho _ _ _ _ hh with hb | ⟨-,hm⟩
    · obtain ⟨r,top,hg,hle,ht⟩ := h _ _ _ _ hb
      exact ⟨r,top,(get_publish_of_notMem ix o hno).trans hg,hle,hold _ _ _ _ ht⟩
    · exact absurd hm (hno v)

end Publish

section Withdraw

variable {floor : Nat} {rows : List (Nat × List K)}
  (hkeep : ∀ o rank k v, Holds' o rank k v ↔ Holds o rank k v ∧ floor ≤ rank)

include hkeep

theorem Backed.withdrawAll (h : Backed ix Holds)
    (hr : ∀ o rank k v, Holds o rank k v → rank < floor → ∃ row ∈ rows, o = row.1 ∧ k ∈ row.2) :
    Backed (withdrawAll ix rows) Holds' := by
  intro k r hg
  obtain ⟨hb,hm⟩ := get_withdrawAll_eq_some.mp hg
  obtain ⟨rank,hh⟩ := h k r hb
  refine ⟨rank,(hkeep _ _ _ _).mpr ⟨hh,?_⟩⟩
  by_contra hl
  obtain ⟨row,hro,ho,hk⟩ := hr _ _ _ _ hh (by omega)
  exact hm row hro ho hk

theorem Covered.withdrawAll (h : Covered ix Holds)
    (hr : ∀ o rank k v, Holds o rank k v → (∃ row ∈ rows, o = row.1 ∧ k ∈ row.2) → rank < floor) :
    Covered (withdrawAll ix rows) Holds' := by
  intro o rank k v hh
  obtain ⟨hb,hf⟩ := (hkeep _ _ _ _).mp hh
  obtain ⟨r,top,hg,hle,ht⟩ := h _ _ _ _ hb
  refine ⟨r,top,get_withdrawAll_eq_some.mpr ⟨hg,fun row hro ho hk => ?_⟩,hle,
    (hkeep _ _ _ _).mpr ⟨ht,by omega⟩⟩
  have hl := hr _ _ _ _ ht ⟨row,hro,ho,hk⟩
  omega

end Withdraw

end OwnedIndex
