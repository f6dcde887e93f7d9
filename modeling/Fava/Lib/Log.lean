import Mathlib.Data.List.Basic
import Mathlib.Data.List.DropRight

namespace Fava.Lib

variable {E : Type}

/-- A log every entry of which fits what is before it. -/
inductive Grown (Fits : List E → E → Prop) : List E → Prop
  | nil : Grown Fits []
  | snoc {log : List E} {entry : E} (grown : Grown Fits log) (fits : Fits log entry) :
      Grown Fits (log ++ [entry])

variable {Fits : List E → E → Prop} {log before after : List E} {entry : E}

theorem Grown.split (grown : Grown Fits (before ++ entry :: after)) :
    Grown Fits before ∧ Fits before entry := by
  generalize whole : before ++ entry :: after = log at grown
  induction grown generalizing after with
  | nil => exact absurd whole (List.append_ne_nil_of_right_ne_nil _ (List.cons_ne_nil _ _))
  | @snoc log last grown fits ih =>
    obtain rfl | ⟨rest, final, rfl⟩ := List.eq_nil_or_concat after
    · obtain ⟨rfl, is⟩ := List.append_inj' whole rfl
      obtain rfl := List.singleton_inj.mp is
      exact ⟨grown, fits⟩
    · rw [List.concat_eq_append, ← List.cons_append, ← List.append_assoc] at whole
      obtain ⟨same, -⟩ := List.append_inj' whole rfl
      exact ih same

theorem Grown.fits (grown : Grown Fits log) (member : entry ∈ log) :
    ∃ before after, log = before ++ entry :: after ∧ Grown Fits before ∧ Fits before entry := by
  obtain ⟨before, after, rfl⟩ := List.append_of_mem member
  exact ⟨before, after, rfl, grown.split⟩

/-- A log that holds so many entries and gives up its oldest one for the next holds the
newest of all there were. -/
theorem evict_concat (capacity : Nat) (log : List E) (entry : E) :
    (if (log.rtake (capacity + 1)).length = capacity + 1 then (log.rtake (capacity + 1)).tail
      else log.rtake (capacity + 1)) ++ [entry] = (log ++ [entry]).rtake (capacity + 1) := by
  rw [List.rtake_concat_succ]
  congr 1
  simp only [List.rtake, List.length_drop, List.tail_drop]
  split
  · congr 1
    omega
  · rw [Nat.sub_eq_zero_of_le (by omega), Nat.sub_eq_zero_of_le (by omega)]

end Fava.Lib
