import Mathlib.Order.Lattice
import Mathlib.Order.BoundedOrder.Basic

namespace FirstHit

variable {K α : Type} [DecidableEq K] [SemilatticeSup α] [OrderBot α] [DecidableEq α]

def firstHit (f : K → α) : List K → α
  | [] => ⊥
  | k :: ks => if f k = ⊥ then firstHit f ks else f k

def raise (f : K → α) (q : K) (a : α) : K → α := fun k => if k = q then f k ⊔ a else f k

def consulted (f : K → α) (ks : List K) : List K := ks.takeWhile fun k => f k = ⊥

omit [OrderBot α] [DecidableEq α] in
theorem raise_comm (f : K → α) (q r : K) (a c : α) :
    raise (raise f q a) r c = raise (raise f r c) q a := by
  funext k
  unfold raise
  split_ifs
  · rw [sup_assoc,sup_assoc,sup_comm a c]
  · rfl
  · rfl
  · rfl

omit [DecidableEq α] in
theorem raise_eq_bot_iff {f : K → α} {q : K} {a : α} (hq : f q ≠ ⊥) (k : K) :
    raise f q a k = ⊥ ↔ f k = ⊥ := by
  unfold raise
  split_ifs with h
  · subst h
    exact iff_of_false (fun e => hq (le_bot_iff.mp (e ▸ le_sup_left))) hq
  · rfl

variable {q : K} {f : K → α} {ks : List K} {a : α}

theorem firstHit_le_raise (hq : f q ≠ ⊥) (ks : List K) :
    firstHit f ks ≤ firstHit (raise f q a) ks := by
  induction ks with
  | nil => exact le_rfl
  | cons k ks ih =>
    simp [firstHit,raise_eq_bot_iff hq]
    split_ifs
    · exact ih
    · unfold raise
      split_ifs
      · exact le_sup_left
      · exact le_rfl

theorem firstHit_raise_of_notMem (hq : f q = ⊥)
    (h : q ∉ consulted f ks) : firstHit (raise f q a) ks = firstHit f ks := by
  induction ks with
  | nil => rfl
  | cons k ks ih =>
    by_cases hk : f k = ⊥
    · have hm : q ≠ k ∧ q ∉ consulted f ks := by simpa [consulted,hk] using h
      have hr : raise f q a k = f k := by simp [raise,hm.1.symm]
      simp [firstHit,hr,hk,ih hm.2]
    · have hr : raise f q a k = f k := by
        have hne : k ≠ q := fun e => hk (e ▸ hq)
        simp [raise,hne]
      simp [firstHit,hr,hk]

theorem firstHit_raise_of_mem (hq : f q = ⊥) (ha : a ≠ ⊥) (h : q ∈ consulted f ks) : firstHit
    (raise f q a) ks = a := by
  induction ks with
  | nil => simp [consulted] at h
  | cons k ks ih =>
    by_cases hk : f k = ⊥
    · have hm : q = k ∨ q ∈ consulted f ks := by simpa [consulted,hk] using h
      by_cases hqk : k = q
      · have hr : raise f q a k = a := by simp [raise,hqk,hq]
        simp [firstHit,hr,ha]
      · have hr : raise f q a k = ⊥ := by simp [raise,hqk,hk]
        simpa [firstHit,hr] using ih (hm.resolve_left fun e => hqk e.symm)
    · simp [consulted,hk] at h

theorem le_firstHit_raise_iff {x : α} (ha : a ≠ ⊥)
    (hx : x ≤ firstHit f ks) :
    x ≤ firstHit (raise f q a) ks ↔ f q ≠ ⊥ ∨ x ≤ a ∨ q ∉ consulted f ks := by
  by_cases hq : f q = ⊥
  · by_cases hm : q ∈ consulted f ks
    · simp [firstHit_raise_of_mem hq ha hm,hq,hm]
    · simp [firstHit_raise_of_notMem hq hm,hx,hm]
  · simp [hq,le_trans hx (firstHit_le_raise hq ks)]

end FirstHit
