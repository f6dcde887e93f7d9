import Mathlib.Data.List.Basic

namespace Fava.Lib

variable {S A : Type}

/-- Finite runs of a partial step function, every step of which meets the
condition `G` in the state it is taken from. -/
inductive Run (step : S → A → Option S) (G : S → A → Prop) (s : S) : List A → S → Prop
  | nil : Run step G s [] s
  | snoc {as : List A} {t u : S} {a : A} (run : Run step G s as t) (meets : G t a)
      (stepped : step t a = some u) : Run step G s (as ++ [a]) u

/-- The condition every step meets: runs under it are all the runs there are. -/
def Free (_ : S) (_ : A) : Prop := True

variable {step : S → A → Option S} {G H : S → A → Prop} {s t u : S} {as bs : List A}

/-- What the first state has and every allowed step keeps, every reached state has. -/
theorem Run.invariant (I : S → Prop) (start : I s)
    (keeps : ∀ t a u, I t → G t a → step t a = some u → I u) (run : Run step G s as t) : I t := by
  induction run with
  | nil => exact start
  | snoc _ meets stepped ih => exact keeps _ _ _ ih meets stepped

theorem Run.append (first : Run step G s as t) (second : Run step G t bs u) :
    Run step G s (as ++ bs) u := by
  induction second with
  | nil => simpa using first
  | snoc _ meets stepped ih => simpa only [List.append_assoc] using Run.snoc ih meets stepped

/-- Run a list of actions, stopping at the first one that is disabled or that
does not meet the condition. -/
def exec (step : S → A → Option S) (G : S → A → Prop) [∀ t a, Decidable (G t a)] :
    S → List A → Option S
  | s, [] => some s
  | s, a :: as => if G s a then (step s a).bind (exec step G · as) else none

theorem Run.of_exec [∀ t a, Decidable (G t a)] (h : exec step G s as = some t) :
    Run step G s as t := by
  induction as generalizing s with
  | nil =>
    cases h
    exact .nil
  | cons a as ih =>
    rw [exec] at h
    split at h
    · rename_i meets
      cases hs : step s a with
      | none => simp [hs] at h
      | some v =>
        rw [hs, Option.bind_some] at h
        have first : Run step G s ([] ++ [a]) v := .snoc .nil meets hs
        exact first.append (ih h)
    · cases h

/-- A run found by evaluation, with what was checked in its last state. -/
theorem Run.of_any [∀ t a, Decidable (G t a)] {check : S → Bool}
    (h : (exec step G s as).any check = true) : ∃ t, Run step G s as t ∧ check t = true := by
  obtain ⟨t, reached, checked⟩ := (Option.any_eq_true _ _).mp h
  exact ⟨t, .of_exec reached, checked⟩

instance : ∀ (t : S) (a : A), Decidable (Free t a) := fun _ _ => .isTrue trivial

end Fava.Lib
