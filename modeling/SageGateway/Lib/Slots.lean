import Mathlib.Data.List.Count
import Mathlib.Algebra.Ring.Nat
import Mathlib.Algebra.BigOperators.Group.List.Basic

-- A buffered channel of tokens: how many fit and how many are in it.
structure Slots where
  cap : Nat
  len : Nat
  deriving DecidableEq

namespace Slots

open List
open Function (update_eq_self update_idem update_of_ne update_self)

def take (c : Slots) : Option Slots :=
  if c.len < c.cap then some { c with len := c.len + 1 } else none

def give (c : Slots) : Option Slots :=
  if 0 < c.len then some { c with len := c.len - 1 } else none

def held (n : Nat) (p : Nat → Bool) : Nat := (List.range n).countP p

section Held

variable {n i : Nat} {p q : Nat → Bool}

theorem held_congr (h : ∀ j < n, p j = q j) : held n p = held n q :=
  countP_congr fun j hj => by rw [h j (mem_range.mp hj)]

theorem held_mono (h : ∀ j < n, p j = true → q j = true) : held n p ≤ held n q :=
  countP_mono_left fun j hj => h j (mem_range.mp hj)

theorem held_le (n : Nat) (p : Nat → Bool) : held n p ≤ n := by
  have hle := countP_le_length (p := p) (l := range n)
  rwa [length_range] at hle

theorem held_eq_zero : held n p = 0 ↔ ∀ j < n, p j = false := by
  rw [held,countP_eq_zero]
  constructor
  · intro h j hj
    exact Bool.eq_false_iff.mpr (h j (mem_range.mpr hj))
  · intro h j hj
    exact Bool.eq_false_iff.mp (h j (mem_range.mp hj))

theorem held_eq_all : held n p = n ↔ ∀ j < n, p j = true := by
  have hl : (range n).length = n := length_range
  constructor
  · intro h j hj
    exact countP_eq_length.mp (h.trans hl.symm) j (mem_range.mpr hj)
  · intro h
    exact (countP_eq_length.mpr fun j hj => h j (mem_range.mp hj)).trans hl

theorem held_succ (n : Nat) (p : Nat → Bool) : held (n + 1) p = held n p + (p n).toNat := by
  rw [held,range_succ,countP_append,countP_singleton]
  cases p n <;> rfl

theorem held_insert (hi : i < n) (hp : p i = false) :
    held n (Function.update p i true) = held n p + 1 := by
  induction n with
  | zero => exact absurd hi (Nat.not_lt_zero i)
  | succ n ih =>
    rw [held_succ,held_succ]
    by_cases hin : i = n
    · subst hin
      have hb : held i (Function.update p i true) = held i p :=
        held_congr fun j hj => update_of_ne (Nat.ne_of_lt hj) _ _
      rw [update_self,hp,hb]
      rfl
    · rw [update_of_ne (Ne.symm hin)]
      omega

theorem held_remove (hi : i < n) (hp : p i = true) :
    held n (Function.update p i false) + 1 = held n p := by
  have hb := held_insert (p := Function.update p i false) hi (update_self ..)
  rw [update_idem,← hp,update_eq_self] at hb
  exact hb.symm

end Held

section Sums

variable {α : Type} {l : List α} {k : Nat} {x : α}

theorem sum_set (f : α → Nat) (h : l[k]? = some x) (y : α) :
    ((l.set k y).map f).sum + f x = (l.map f).sum + f y := by
  induction l generalizing k with
  | nil => cases h
  | cons z zs ih =>
    cases k with
    | zero =>
      cases h
      simp
      omega
    | succ k =>
      have hk := ih h
      simp only [set_cons_succ,map_cons,sum_cons]
      omega

theorem sum_range_update {β : Type} (f : β → Nat) (g : Nat → β) {n i : Nat} (hi : i < n) (y : β) :
    ((List.range n).map fun j => f (Function.update g i y j)).sum + f (g i) =
      ((List.range n).map fun j => f (g j)).sum + f y := by
  induction n with
  | zero => exact absurd hi (Nat.not_lt_zero i)
  | succ n ih =>
    simp only [range_succ,map_append,sum_append,map_singleton,
      sum_singleton]
    by_cases hin : i = n
    · subst hin
      have hb : ((range i).map fun j => f (Function.update g i y j)) =
          (range i).map fun j => f (g j) :=
        map_congr_left fun j hj => by
          rw [update_of_ne (Nat.ne_of_lt (mem_range.mp hj))]
      rw [hb,update_self]
      omega
    · rw [update_of_ne (Ne.symm hin)]
      omega

theorem sum_pos_iff {f : α → Nat} : 0 < (l.map f).sum ↔ ∃ x ∈ l, 0 < f x := by
  induction l with
  | nil => simp
  | cons z zs ih =>
    rw [map_cons,sum_cons,exists_mem_cons_iff,← ih]
    omega

end Sums

structure Counts (c : Slots) (n : Nat) (p : Nat → Bool) : Prop where
  len : c.len = held n p
  room : c.len ≤ c.cap

section Counts

variable {c c' : Slots} {n i : Nat} {p : Nat → Bool}

theorem take_eq_some (h : c.take = some c') :
    c.len < c.cap ∧ c' = { c with len := c.len + 1 } := by
  obtain ⟨hr,heq⟩ := Option.ite_none_right_eq_some.mp h
  cases heq
  exact ⟨hr,rfl⟩

theorem give_eq_some (h : c.give = some c') : 0 < c.len ∧ c' = { c with len := c.len - 1 } := by
  obtain ⟨hp,heq⟩ := Option.ite_none_right_eq_some.mp h
  cases heq
  exact ⟨hp,rfl⟩

theorem Counts.take (h : c.Counts n p) (ht : c.take = some c') (hi : i < n)
    (hp : p i = false) : c'.Counts n (Function.update p i true) := by
  obtain ⟨hr,rfl⟩ := take_eq_some ht
  refine ⟨?_,hr⟩
  rw [held_insert hi hp,← h.len]

theorem Counts.give (h : c.Counts n p) (hg : c.give = some c') (hi : i < n)
    (hp : p i = true) : c'.Counts n (Function.update p i false) := by
  obtain ⟨hpo,rfl⟩ := give_eq_some hg
  have hr := h.room
  have hre := held_remove hi hp
  refine ⟨?_,?_⟩
  · show c.len - 1 = _
    rw [h.len]
    omega
  · show c.len - 1 ≤ c.cap
    omega

theorem Counts.congr {q : Nat → Bool} (h : c.Counts n p) (hq : ∀ j < n, q j = p j) :
    c.Counts n q :=
  ⟨h.len.trans (held_congr hq).symm,h.room⟩

end Counts

end Slots

-- A history of tokens taken and given back.
inductive Move (α : Type) where
  | took (x : α)
  | gave (x : α)
  deriving DecidableEq

namespace Move

open List
open Function (update_eq_self update_idem update_of_ne update_self)

variable {α : Type} [DecidableEq α]

structure Tally (log : List (Move α)) (out : α → Bool) : Prop where
  balance : ∀ x, log.count (.took x) = log.count (.gave x) + (out x).toNat

variable {log : List (Move α)} {out : α → Bool} {x : α}

theorem Tally.take (h : Tally log out) (hx : out x = false) :
    Tally (.took x :: log) (Function.update out x true) := by
  refine ⟨fun y => ?_⟩
  have hy := h.balance y
  have hg : (Move.took x :: log).count (.gave y) = log.count (.gave y) :=
    count_cons_of_ne (by intro he; cases he)
  rw [hg]
  by_cases hxy : x = y
  · subst hxy
    rw [count_cons_self,update_self,hy,hx]
    rfl
  · rw [count_cons_of_ne (by intro he; cases he; exact hxy rfl),
      update_of_ne (Ne.symm hxy),hy]

theorem Tally.give (h : Tally log out) (hx : out x = true) :
    Tally (.gave x :: log) (Function.update out x false) := by
  refine ⟨fun y => ?_⟩
  have hy := h.balance y
  have ht : (Move.gave x :: log).count (.took y) = log.count (.took y) :=
    count_cons_of_ne (by intro he; cases he)
  rw [ht]
  by_cases hxy : x = y
  · subst hxy
    rw [count_cons_self,update_self,hy,hx]
    rfl
  · rw [count_cons_of_ne (by intro he; cases he; exact hxy rfl),
      update_of_ne (Ne.symm hxy),hy]

end Move
