import Mathlib.Tactic.SplitIfs

namespace GoTime

def second : Int := 1000000000

def minute : Int := 60 * second

def hour : Int := 60 * minute

def maxDuration : Int := 9223372036854775807

def minDuration : Int := -9223372036854775808

def unix (t : Int) : Int := t / second

def ofUnix (s : Int) : Int := s * second

def zeroTime : Int := ofUnix (-62135596800)

def subsecond (t : Int) : Int := t % second

def sub (t u : Int) : Int :=
  if maxDuration < t - u then maxDuration else if t - u < minDuration then minDuration else t - u

theorem ofUnix_unix (t : Int) : ofUnix (unix t) = t - subsecond t := by
  have h := Int.mul_ediv_add_emod t second
  unfold ofUnix unix subsecond
  rw [Int.mul_comm]
  omega

theorem subsecond_nonneg (t : Int) : 0 ≤ subsecond t := Int.emod_nonneg t (by decide)

theorem subsecond_lt (t : Int) : subsecond t < second := Int.emod_lt_of_pos t (by decide)

theorem unix_le_unix {t u : Int} (h : t ≤ u) : unix t ≤ unix u :=
  Int.ediv_le_ediv (by decide) h

theorem ofUnix_le_ofUnix {s u : Int} (h : s ≤ u) : ofUnix s ≤ ofUnix u :=
  Int.mul_le_mul_of_nonneg_right h (by decide)

theorem unix_ofUnix (s : Int) : unix (ofUnix s) = s := Int.mul_ediv_cancel s (by decide)

theorem sub_le_zero_iff (t u : Int) : sub t u ≤ 0 ↔ t ≤ u := by
  unfold sub maxDuration minDuration
  split_ifs <;> omega

theorem sub_le_iff {t u d : Int} (hm : minDuration ≤ d) (hma : d < maxDuration) :
    sub t u ≤ d ↔ t - u ≤ d := by
  unfold sub
  split_ifs <;> omega

theorem sub_lt_iff {t u d : Int} (hm : minDuration < d) (hma : d ≤ maxDuration) :
    sub t u < d ↔ t - u < d := by
  unfold sub
  split_ifs <;> omega

theorem ofUnix_unix_le (t : Int) : ofUnix (unix t) ≤ t := by
  have h := subsecond_nonneg t
  rw [ofUnix_unix]
  omega

theorem sub_le_diff {t u : Int} (h : u ≤ t) : sub t u ≤ t - u := by
  unfold sub maxDuration minDuration
  split_ifs <;> omega

theorem sub_eq_diff {t u : Int} (h : u ≤ t) (hm : t - u ≤ maxDuration) : sub t u = t - u := by
  unfold sub minDuration
  split_ifs <;> omega

end GoTime
