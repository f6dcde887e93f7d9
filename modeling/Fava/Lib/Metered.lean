import Fava.Lib.Fallible
import Mathlib.Algebra.Order.Monoid.Canonical.Defs
import Mathlib.Algebra.Order.Monoid.Prod

namespace Fava.Lib

variable {ε M α : Type} [AddCommMonoid M] [PartialOrder M]

/-- The step adds so much to every total within the bound, and fails exactly where the sum
is out of the bound. -/
def Adds (bound : M) (step : M → Except ε M) (amount : M) : Prop :=
  ∀ total ≤ bound, ∀ sum, step total = .ok sum ↔ sum = total + amount ∧ sum ≤ bound

variable {bound amount amount' total sum : M} {step step' : M → Except ε M}

theorem Adds.ok_iff (adds : Adds bound step amount) (within : total ≤ bound) :
    step total = .ok sum ↔ sum = total + amount ∧ sum ≤ bound :=
  adds total within sum

theorem adds_pure : Adds bound (pure : M → Except ε M) 0 := by
  intro total within sum
  rw [add_zero]
  constructor
  · rintro ⟨⟩
    exact ⟨rfl, within⟩
  · rintro ⟨rfl, -⟩
    rfl

variable [CanonicallyOrderedAdd M]

/-- Steps one after another add what both add: no sum on the way is larger than the last. -/
theorem Adds.bind (first : Adds bound step amount) (next : Adds bound step' amount') :
    Adds bound (fun total => step total >>= step') (amount + amount') := by
  intro total within sum
  rw [bind_eq_ok, ← add_assoc]
  constructor
  · rintro ⟨mid, stepped, done⟩
    obtain ⟨rfl, mid_within⟩ := (first.ok_iff within).mp stepped
    exact (next.ok_iff mid_within).mp done
  · rintro ⟨rfl, sum_within⟩
    have mid_within : total + amount ≤ bound := le_self_add.trans sum_within
    exact ⟨total + amount, (first.ok_iff within).mpr ⟨rfl, mid_within⟩,
      (next.ok_iff mid_within).mpr ⟨rfl, sum_within⟩⟩

/-- A loop adds what its steps add. -/
theorem adds_foldlM {step : M → α → Except ε M} {amount : α → M} {l : List α}
    (adds : ∀ a ∈ l, Adds bound (step · a) (amount a)) :
    Adds bound (l.foldlM step) (l.map amount).sum := by
  induction l with
  | nil => exact adds_pure
  | cons a l ih =>
    have rest := ih fun b inside => adds b (List.mem_cons_of_mem a inside)
    have all := (adds a List.mem_cons_self).bind rest
    rw [List.map_cons, List.sum_cons]
    exact all

section Pairs

variable {ε M M' : Type} [AddCommMonoid M] [PartialOrder M] [AddCommMonoid M'] [PartialOrder M']
  {bound amount : M} {step : M → Except ε M}

/-- A step of one total is one of two totals that adds nothing to the other. -/
theorem Adds.first (adds : Adds bound step amount) (bound' : M') : Adds (bound, bound')
    (fun total => step total.1 >>= fun sum => pure (sum, total.2)) (amount, 0) := by
  rintro ⟨total, other⟩ ⟨within, other_within⟩ ⟨sum, other'⟩
  rw [bind_eq_ok, Prod.mk_add_mk, add_zero, Prod.mk.injEq, Prod.mk_le_mk]
  constructor
  · rintro ⟨mid, stepped, done⟩
    cases done
    obtain ⟨is, sum_within⟩ := (adds.ok_iff within).mp stepped
    exact ⟨⟨is, rfl⟩, sum_within, other_within⟩
  · rintro ⟨⟨is, rfl⟩, sum_within, -⟩
    exact ⟨sum, (adds.ok_iff within).mpr ⟨is, sum_within⟩, rfl⟩

omit [PartialOrder M] [PartialOrder M'] in
theorem sum_pairs {α : Type} {f : α → M} {g : α → M'} {l : List α} :
    (l.map fun a => (f a, g a)).sum = ((l.map f).sum, (l.map g).sum) := by
  induction l with
  | nil => rfl
  | cons a l ih =>
    rw [List.map_cons, List.map_cons, List.map_cons, List.sum_cons, List.sum_cons, List.sum_cons, ih]
    rfl

end Pairs

end Fava.Lib
