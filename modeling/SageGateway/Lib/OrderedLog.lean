import Mathlib.Order.Lattice
import Mathlib.Data.List.Basic

namespace OrderedLog

open List

variable {α β : Type} [LinearOrder β] {key : α → β}

def Ordered (key : α → β) (l : List α) : Prop := l.Pairwise fun a b => key a < key b

def after (key : α → β) (p : β) (l : List α) : List α := l.filter fun e => decide (p < key e)

variable {l : List α} {x : α}

theorem mem_after {p : β} {e : α} : e ∈ after key p l ↔ e ∈ l ∧ p < key e := by
  rw [after,mem_filter,decide_eq_true_eq]

theorem Ordered.push {e : α} (h : Ordered key l) (he : ∀ a ∈ l, key a < key e) :
    Ordered key (l ++ [e]) := by
  refine pairwise_append.mpr ⟨h,pairwise_singleton _ _,fun a ha b hb => ?_⟩
  rw [mem_singleton.mp hb]
  exact he a ha

theorem Ordered.le_getLast (h : Ordered key l) (hx : l.getLast? = some x) :
    ∀ a ∈ l, key a ≤ key x := by
  obtain ⟨front,rfl⟩ := getLast?_eq_some_iff.mp hx
  intro a ha
  rcases mem_append.mp ha with ha | ha
  · exact le_of_lt ((pairwise_append.mp h).2.2 a ha x (mem_singleton.mpr rfl))
  · rw [mem_singleton.mp ha]

theorem after_getLast {front back : List α} (h : Ordered key (front ++ back))
    (hx : front.getLast? = some x) : after key (key x) (front ++ back) = back := by
  obtain ⟨hf,-,hc⟩ := pairwise_append.mp h
  have hn : after key (key x) front = [] := by
    refine filter_eq_nil_iff.mpr fun a ha hlt => ?_
    exact absurd (of_decide_eq_true hlt) (not_lt_of_ge (Ordered.le_getLast hf hx a ha))
  have hal : after key (key x) back = back :=
    filter_eq_self.mpr fun b hb =>
      decide_eq_true (hc x (mem_of_getLast? hx) b hb)
  rw [after,filter_append]
  exact congrArg₂ (· ++ ·) hn hal

theorem take_append_after (h : Ordered key l) {p : α → Bool}
    (hup : ∀ a b, p a = true → key a < key b → p b = true) (n : Nat)
    (hx : ((l.filter p).take n).getLast? = some x) :
    (l.filter p).take n ++ after key (key x) l = l.filter p := by
  have hpx : p x = true :=
    (mem_filter.mp (mem_of_mem_take (mem_of_getLast? hx))).2
  have ht : after key (key x) l = after key (key x) (l.filter p) := by
    rw [after,after,filter_filter]
    refine filter_congr fun a _ => ?_
    cases ha : decide (key x < key a) with
    | false => rfl
    | true => rw [hup x a hpx (of_decide_eq_true ha)]; rfl
  have hs : Ordered key ((l.filter p).take n ++ (l.filter p).drop n) := by
    rw [take_append_drop]
    exact h.sublist filter_sublist
  have hr := after_getLast hs hx
  rw [take_append_drop] at hr
  rw [ht,hr,take_append_drop]

omit [LinearOrder β] in
theorem filter_drop {l : List α} {p : α → Bool} {n : Nat} (h : ∀ x ∈ l.take n, p x = false) :
    (l.drop n).filter p = l.filter p := by
  have hn : (l.take n).filter p = [] :=
    filter_eq_nil_iff.mpr fun x hx hp => Bool.false_ne_true ((h x hx).symm.trans hp)
  have hs := congrArg (List.filter p) (take_append_drop n l)
  rwa [filter_append,hn,nil_append] at hs

end OrderedLog
