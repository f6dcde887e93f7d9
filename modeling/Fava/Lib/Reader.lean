import Fava.Lib.Fallible

namespace Fava.Lib

variable {ε β α γ : Type}

/-- A reader of the front of an input. -/
abbrev Reader (ε β α : Type) := List β → Except ε (α × List β)

variable {read : Reader ε β α} {next : α → Reader ε β γ} {a a' : α} {c : γ}
  {input more front front' : List β}

/-- What is read of an input is read of every longer one: the rest is only longer. -/
def Extends (read : Reader ε β α) : Prop :=
  ∀ input a rest more, read input = .ok (a, rest) → read (input ++ more) = .ok (a, rest ++ more)

/-- A value is read of its own front, whatever comes after it. -/
def Reads (read : Reader ε β α) (front : List β) (a : α) : Prop :=
  ∀ more, read (front ++ more) = .ok (a, more)

/-- Read one thing after another. -/
def Reader.andThen (read : Reader ε β α) (next : α → Reader ε β γ) : Reader ε β γ := fun input => do
  let (a, rest) ← read input
  next a rest

theorem andThen_eq_ok {rest : List β} : read.andThen next input = .ok (c, rest) ↔
    ∃ a middle, read input = .ok (a, middle) ∧ next a middle = .ok (c, rest) := by
  unfold Reader.andThen
  rw [bind_eq_ok]
  constructor
  · rintro ⟨⟨a, middle⟩, first, second⟩
    exact ⟨a, middle, first, second⟩
  · rintro ⟨a, middle, first, second⟩
    exact ⟨(a, middle), first, second⟩

theorem extends_ok : Extends (ε := ε) (β := β) fun input => .ok (a, input) := by
  intro input b rest more h
  cases h
  rfl

theorem extends_error {e : ε} : Extends (β := β) (α := α) fun _ => .error e := by
  intro input b rest more h
  cases h

theorem Extends.andThen (first : Extends read) (second : ∀ a, Extends (next a)) :
    Extends (read.andThen next) := by
  intro input c rest more h
  obtain ⟨a, middle, here, there⟩ := andThen_eq_ok.mp h
  exact andThen_eq_ok.mpr ⟨a, middle ++ more, first _ _ _ _ here, second a _ _ _ _ there⟩

/-- Of two inputs that are read to their ends, none is the beginning of the other. -/
theorem Extends.eq_nil (extends_ : Extends read) (short : read input = .ok (a, []))
    (long : read (input ++ more) = .ok (a', [])) : more = [] := by
  have both := extends_ input a [] more short
  rw [long] at both
  cases both
  rfl

theorem reads_ok : Reads (ε := ε) (β := β) (fun input => .ok (a, input)) [] a := fun _ => rfl

theorem Reads.andThen (first : Reads read front a) (second : Reads (next a) front' c) :
    Reads (read.andThen next) (front ++ front') c := by
  intro more
  rw [List.append_assoc]
  exact andThen_eq_ok.mpr ⟨a, front' ++ more, first _, second more⟩

/-- What reads nothing more comes last. -/
theorem Reads.last (first : Reads read front a) (second : Reads (next a) [] c) :
    Reads (read.andThen next) front c := by
  have both := first.andThen second
  rwa [List.append_nil] at both

/-- No proper beginning of the input and no longer input is accepted. -/
structure Delimited (decode : List β → Except ε α) (input : List β) : Prop where
  cut : ∀ front more, input = front ++ more → more ≠ [] → ∀ a, decode front ≠ .ok a
  longer : ∀ more, more ≠ [] → ∀ a, decode (input ++ more) ≠ .ok a

theorem delimited_of_prefixFree {decode : List β → Except ε α}
    (free : ∀ front more a a', decode front = .ok a → decode (front ++ more) = .ok a' → more = [])
    (accepted : decode input = .ok a) : Delimited decode input where
  cut front more whole some a' short := some (free front more a' a short (whole ▸ accepted))
  longer more some a' long := some (free input more a a' accepted long)

end Fava.Lib
