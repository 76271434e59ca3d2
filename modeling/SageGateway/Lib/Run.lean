import Mathlib.Logic.Basic

namespace Run

variable {S A : Type}

def run (step : S → A → Option S) (ok : S → A → Prop) [∀ s a, Decidable (ok s a)] :
    S → List A → Option S
  | s, [] => some s
  | s, a :: as => if ok s a then (step s a).bind fun s' => run step ok s' as else none

inductive Reaches (step : S → A → Option S) (ok : S → A → Prop) (s₀ : S) : S → Prop
  | start : Reaches step ok s₀ s₀
  | next {s s' : S} {a : A} (h : Reaches step ok s₀ s) (hok : ok s a) (hstep : step s a = some s') :
      Reaches step ok s₀ s'

section Guards

variable {p : Prop} [Decidable p] {s s' : S}

theorem guard_pos (h : (if p then some s else none) = some s') : p ∧ s = s' := by
  simpa using h

theorem guard_neg (h : (if p then none else some s) = some s') : ¬p ∧ s = s' := by
  simpa using h

end Guards

variable {step : S → A → Option S} {ok : S → A → Prop} {s₀ : S}

theorem Reaches.invariant (Inv : S → Prop) (hin : Inv s₀)
    (hn : ∀ s a s', Inv s → ok s a → step s a = some s' → Inv s') {s : S}
    (h : Reaches step ok s₀ s) : Inv s := by
  induction h with
  | start => exact hin
  | next _ hok hs ih => exact hn _ _ _ ih hok hs

theorem Reaches.mono {ok' : S → A → Prop} (hok : ∀ s a, ok s a → ok' s a) {s : S}
    (h : Reaches step ok s₀ s) : Reaches step ok' s₀ s := by
  induction h with
  | start => exact .start
  | next _ ha hs ih => exact ih.next (hok _ _ ha) hs

theorem Reaches.trans {s s' : S} (h : Reaches step ok s₀ s) (h' : Reaches step ok s s') :
    Reaches step ok s₀ s' := by
  induction h' with
  | start => exact h
  | next _ hok hs ih => exact ih.next hok hs

theorem Reaches.run [∀ s a, Decidable (ok s a)] {s s' : S} {as : List A}
    (h : Reaches step ok s₀ s) (hr : Run.run step ok s as = some s') : Reaches step ok s₀ s' := by
  induction as generalizing s with
  | nil =>
    cases hr
    exact h
  | cons a as ih =>
    obtain ⟨hok,hb⟩ := Option.ite_none_right_eq_some.mp hr
    obtain ⟨t,ht,hre⟩ := Option.bind_eq_some_iff.mp hb
    exact ih (h.next hok ht) hre

section Decided

variable [∀ s a, Decidable (ok s a)] {P Q : S → Prop} [DecidablePred P] (as : List A)
  (h : (run step ok s₀ as).any (fun s => decide (P s)) = true)

include h

theorem ends : ∃ s, run step ok s₀ as = some s ∧ P s := by
  obtain ⟨s,hs,hp⟩ := Option.any_eq_true _ _ |>.mp h
  exact ⟨s,hs,of_decide_eq_true hp⟩

theorem ends_and (hq : ∀ s, Reaches step ok s₀ s → P s → Q s) :
    ∃ s, run step ok s₀ as = some s ∧ P s ∧ Q s := by
  obtain ⟨s,hs,hp⟩ := ends as h
  exact ⟨s,hs,hp,hq s (Reaches.start.run hs) hp⟩

theorem reaches : ∃ s, Reaches step ok s₀ s ∧ P s := by
  obtain ⟨s,hs,hp⟩ := ends as h
  exact ⟨s,Reaches.start.run hs,hp⟩

variable (hq : ∀ s, Reaches step ok s₀ s → P s → Q s)

include hq

theorem reaches_and : ∃ s, Reaches step ok s₀ s ∧ P s ∧ Q s := by
  obtain ⟨s,hs,hp⟩ := reaches as h
  exact ⟨s,hs,hp,hq s hs hp⟩

theorem ends_of : ∃ s, run step ok s₀ as = some s ∧ Q s :=
  (ends_and as h hq).imp fun _ hs => ⟨hs.1,hs.2.2⟩

theorem reaches_of : ∃ s, Reaches step ok s₀ s ∧ Q s :=
  (reaches_and as h hq).imp fun _ hs => ⟨hs.1,hs.2.2⟩

theorem reached_and : ∃ s, P s ∧ Q s := (reaches_and as h hq).imp fun _ => And.right

end Decided

theorem run_length_le [∀ s a, Decidable (ok s a)] (μ : S → Nat) (Inv : S → Prop)
    (hn : ∀ s a s', Inv s → ok s a → step s a = some s' → Inv s' ∧ μ s' < μ s) {s s' : S}
    {as : List A} (h : Inv s) (hr : run step ok s as = some s') : as.length + μ s' ≤ μ s := by
  induction as generalizing s with
  | nil =>
    cases hr
    exact Nat.le_of_eq (Nat.zero_add _)
  | cons a as ih =>
    obtain ⟨hok,hb⟩ := Option.ite_none_right_eq_some.mp hr
    obtain ⟨t,ht,hre⟩ := Option.bind_eq_some_iff.mp hb
    obtain ⟨hin,hlt⟩ := hn s a t h hok ht
    have hle := ih hin hre
    rw [List.length_cons]
    omega

end Run
