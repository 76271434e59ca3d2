import Mathlib.Data.List.Basic

namespace Terminated

open List

variable {α : Type} {stop : α} {x y a b : List α}

-- Each field followed by the stop element.
def fields (stop : α) (fs : List (List α)) : List α := fs.flatMap fun f => f ++ [stop]

theorem split_first (hx : stop ∉ x) (hy : stop ∉ y) (h : x ++ stop :: a = y ++ stop :: b) :
    x = y ∧ a = b := by
  induction x generalizing y with
  | nil =>
    cases y with
    | nil => exact ⟨rfl,(List.cons.inj h).2⟩
    | cons d y =>
      obtain ⟨rfl,-⟩ := List.cons.inj h
      exact absurd (.head _) hy
  | cons c x ih =>
    cases y with
    | nil =>
      obtain ⟨rfl,-⟩ := List.cons.inj h
      exact absurd (.head _) hx
    | cons d y =>
      obtain ⟨rfl,ht⟩ := List.cons.inj h
      obtain ⟨rfl,hab⟩ := ih (fun hc => hx (.tail _ hc))
        (fun hc => hy (.tail _ hc)) ht
      exact ⟨rfl,hab⟩

theorem split_last (ha : stop ∉ a) (hb : stop ∉ b) (h : x ++ stop :: a = y ++ stop :: b) :
    x = y ∧ a = b := by
  have hr : a.reverse ++ stop :: x.reverse = b.reverse ++ stop :: y.reverse := by
    have := congrArg reverse h
    simpa only [reverse_append,reverse_cons,append_assoc,
      singleton_append] using this
  obtain ⟨hab,hxy⟩ := split_first (fun hc => ha (mem_reverse.mp hc))
    (fun hc => hb (mem_reverse.mp hc)) hr
  exact ⟨reverse_inj.mp hxy,reverse_inj.mp hab⟩

theorem fields_inj {fs gs : List (List α)} (hl : fs.length = gs.length)
    (hfs : ∀ f ∈ fs, stop ∉ f) (hgs : ∀ g ∈ gs, stop ∉ g)
    (h : fields stop fs ++ a = fields stop gs ++ b) : fs = gs ∧ a = b := by
  induction fs generalizing gs with
  | nil =>
    cases gs with
    | nil => exact ⟨rfl,h⟩
    | cons g gs => cases hl
  | cons f fs ih =>
    cases gs with
    | nil => cases hl
    | cons g gs =>
      obtain ⟨hf,hf'⟩ := forall_mem_cons.mp hfs
      obtain ⟨hg,hg'⟩ := forall_mem_cons.mp hgs
      simp [fields] at h
      obtain ⟨rfl,ht⟩ := split_first hf hg h
      obtain ⟨rfl,hab⟩ := ih (Nat.succ.inj hl) hf' hg' ht
      exact ⟨rfl,hab⟩

end Terminated
