import Fava.Lib.Fallible

namespace Fava.Lib

/-- An operation on a value behind a lock: what it wrote before it failed stays written. -/
abbrev Mutator (ε σ : Type) := ExceptT ε (StateM σ)

variable {ε σ α β : Type}

/-- What an operation answers, and the value it leaves behind the lock. -/
def leaves (op : Mutator ε σ α) (s : σ) : Except ε α × σ := op.run.run s

/-- What is left where the answer and the next value are computed before anything is written. -/
def settled (s : σ) : Except ε (α × σ) → Except ε α × σ
  | .ok (answer, t) => (.ok answer, t)
  | .error error => (.error error, s)

/-- Go on only if a condition holds. -/
abbrev ensure (p : Prop) [Decidable p] (error : ε) : Mutator ε σ Unit := liftM (require p error)

/-- Go on only with a value that is there. -/
abbrev fetch (value : Option α) (error : ε) : Mutator ε σ α := liftM (demand value error)

section Leaves

variable (op : Mutator ε σ α) (f : σ → Mutator ε σ β) (g : σ → σ) (s : σ)

theorem leaves_pure (a : α) : leaves (pure a : Mutator ε σ α) s = (.ok a, s) := rfl

theorem leaves_throw_bind (error : ε) (next : α → Mutator ε σ β) :
    leaves (throw error >>= next) s = (.error error, s) := rfl

theorem leaves_get_bind : leaves (get >>= f) s = leaves (f s) s := rfl

theorem leaves_modify : leaves (modify g : Mutator ε σ PUnit) s = (.ok (), g s) := rfl

theorem leaves_modify_bind (next : Unit → Mutator ε σ β) :
    leaves (modify g >>= next) s = leaves (next ()) (g s) := rfl

theorem leaves_ite (c : Prop) [Decidable c] (other : Mutator ε σ α) :
    leaves (if c then op else other) s = if c then leaves op s else leaves other s := by
  split <;> rfl

end Leaves

variable {s t : σ}

/-- An operation goes on from where another one has succeeded. -/
theorem leaves_bind {op : Mutator ε σ α} {a : α} (next : α → Mutator ε σ β)
    (done : leaves op s = (.ok a, t)) : leaves (op >>= next) s = leaves (next a) t := by
  change ExceptT.bindCont next (leaves op s).1 (leaves op s).2 = _
  rw [done]
  rfl

theorem leaves_bind_error {op : Mutator ε σ α} {error : ε} (next : α → Mutator ε σ β)
    (failed : leaves op s = (.error error, t)) : leaves (op >>= next) s = (.error error, t) := by
  change ExceptT.bindCont next (leaves op s).1 (leaves op s).2 = _
  rw [failed]
  rfl

/-- A step that may fail and writes nothing: it fails where the computation does that comes
before all writes, and otherwise the rest is compared. -/
theorem leaves_check {γ : Type} (R : Except ε γ → Except ε β × σ → Prop) {x : Except ε α}
    {next : α → Mutator ε σ β} {g : α → Except ε γ}
    (refused : ∀ error, R (.error error) (.error error, s))
    (rest : ∀ a, x = .ok a → R (g a) (leaves (next a) s)) :
    R (x >>= g) (leaves (liftM x >>= next) s) := by
  cases x with
  | error error => exact refused error
  | ok a => exact rest a rfl

end Fava.Lib
