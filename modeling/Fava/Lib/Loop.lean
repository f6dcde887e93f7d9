import Mathlib.Tactic.Common

namespace Fava.Lib

variable {S ε : Type}

/-- A loop ends: its body leaves it, fails, or goes on in a state from where it ends. -/
inductive Ends (body : S → Except ε (Option S)) : S → Except ε S → Prop
  | leaves {s : S} (left : body s = .ok none) : Ends body s (.ok s)
  | fails {s : S} {error : ε} (failed : body s = .error error) : Ends body s (.error error)
  | again {s t : S} {r : Except ε S} (next : body s = .ok (some t)) (rest : Ends body t r) :
      Ends body s r

/-- The rounds of a loop, so many at most. -/
def rounds (body : S → Except ε (Option S)) : Nat → S → Except ε S
  | 0, s => .ok s
  | fuel + 1, s =>
    match body s with
    | .error error => .error error
    | .ok none => .ok s
    | .ok (some t) => rounds body fuel t

variable {body : S → Except ε (Option S)} {s : S} {r r' : Except ε S} {I : S → Prop} {m : S → Nat}
  {fuel : Nat}

/-- A loop ends in one way. -/
theorem Ends.unique (first : Ends body s r) (second : Ends body s r') : r = r' := by
  induction first with
  | leaves left =>
    cases second with
    | leaves => rfl
    | fails failed => cases left.symm.trans failed
    | again next => cases left.symm.trans next
  | fails failed =>
    cases second with
    | leaves left => cases failed.symm.trans left
    | fails failed' =>
      cases failed.symm.trans failed'
      rfl
    | again next => cases failed.symm.trans next
  | again next _ ih =>
    cases second with
    | leaves left => cases next.symm.trans left
    | fails failed => cases next.symm.trans failed
    | again next' rest =>
      cases next.symm.trans next'
      exact ih rest

/-- A loop that keeps its invariant and lowers its measure ends within as many
rounds as it measures. -/
theorem ends_rounds (keeps : ∀ s t, I s → body s = .ok (some t) → I t ∧ m t < m s)
    (bottom : ∀ s, I s → m s = 0 → body s = .ok none) (start : I s) (enough : m s ≤ fuel) :
    Ends body s (rounds body fuel s) := by
  induction fuel generalizing s with
  | zero => exact .leaves (bottom s start (Nat.le_zero.mp enough))
  | succ fuel ih =>
    rw [rounds]
    split
    · rename_i failed
      exact .fails failed
    · rename_i left
      exact .leaves left
    · rename_i t next
      obtain ⟨kept, lower⟩ := keeps s t start next
      exact .again next (ih kept (by omega))

end Fava.Lib
