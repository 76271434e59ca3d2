import Mathlib.Data.List.Forall2

namespace SlidingWindow

open List

def recent (width now : Int) (times : List Int) : List Int :=
  times.filter fun t => now - t < width

def within (width t : Int) (times : List Int) : List Int :=
  times.filter fun s => t ≤ s ∧ s < t + width

def Spaced (width : Int) (limit : Nat) : List Int → Prop
  | [] => True
  | s :: earlier => (recent width s earlier).length < limit ∧ Spaced width limit earlier

structure Kept (width now : Int) (stamps kept : List Int) : Prop where
  cut : ∃ c, c ≤ now - width ∧ kept = (stamps.filter fun t => c < t).reverse

variable {width now later : Int} {limit : Nat} {starts stamps kept : List Int}

theorem within_le_recent {t s : Int} (hs : s < t + width) (times : List Int) :
    (within width t times).length ≤ (recent width s times).length := by
  apply List.Sublist.length_le
  apply monotone_filter_right
  intro r hr
  simp at hr ⊢
  omega

theorem Spaced.within_le (h : Spaced width limit starts) (t : Int) :
    (within width t starts).length ≤ limit := by
  induction starts with
  | nil => exact Nat.zero_le _
  | cons s earlier ih =>
    obtain ⟨hlt,hr⟩ := h
    by_cases hs : t ≤ s ∧ s < t + width
    · have hle := within_le_recent hs.2 earlier
      rw [within,filter_cons_of_pos (by simpa using hs)]
      exact Nat.succ_le_of_lt (Nat.lt_of_le_of_lt hle hlt)
    · rw [within,filter_cons_of_neg (by simpa using hs)]
      exact ih hr

theorem Kept.nil (width now : Int) : Kept width now [] [] := ⟨_,Int.le_refl _,rfl⟩

theorem Kept.mono (h : Kept width now stamps kept) (hle : now ≤ later) :
    Kept width later stamps kept := by
  obtain ⟨c,hc,hk⟩ := h.cut
  exact ⟨c,by omega,hk⟩

theorem Kept.recent {read : Int} (h : Kept width now stamps kept) (hle : read ≤ now) :
    Kept width now stamps (recent width read kept) := by
  obtain ⟨c,hc,hk⟩ := h.cut
  refine ⟨if c ≤ read - width then read - width else c,by split <;> omega,?_⟩
  rw [hk,SlidingWindow.recent,filter_reverse,filter_filter]
  congr 1
  apply filter_congr
  intro t _
  rw [Bool.eq_iff_iff]
  simp only [Bool.and_eq_true,decide_eq_true_eq]
  split <;> omega

theorem Kept.stamp (h : Kept width now stamps kept) (hw : 0 < width) :
    Kept width now (now :: stamps) (kept ++ [now]) := by
  obtain ⟨c,hc,hk⟩ := h.cut
  refine ⟨c,hc,?_⟩
  rw [filter_cons_of_pos (by simp; omega),reverse_cons,hk]

theorem recent_le_filter {c : Int} (hc : c ≤ now - width) (h : List.Forall₂ (· ≤ ·) starts stamps) :
    (recent width now starts).length ≤ (stamps.filter fun t => c < t).length := by
  induction h with
  | nil => exact Nat.le_refl _
  | @cons s t starts stamps hst _ ih =>
    by_cases hs : now - s < width
    · rw [recent,filter_cons_of_pos (by simpa using hs),
        filter_cons_of_pos (by simp; omega)]
      exact Nat.succ_le_succ ih
    · rw [recent,filter_cons_of_neg (by simpa using hs)]
      exact Nat.le_trans ih (List.Sublist.length_le ((sublist_cons_self t stamps).filter _))

theorem Kept.recent_le (h : Kept width now stamps kept)
    (hs : List.Forall₂ (· ≤ ·) starts stamps) :
    (SlidingWindow.recent width now starts).length ≤ kept.length := by
  obtain ⟨c,hc,rfl⟩ := h.cut
  rw [length_reverse]
  exact recent_le_filter hc hs

end SlidingWindow
