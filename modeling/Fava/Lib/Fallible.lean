import Mathlib.Tactic.Common

namespace Fava.Lib

variable {ε ε' α β σ : Type}

/-- A computation that goes on after another succeeds only if both do. -/
theorem bind_eq_ok {x : Except ε α} {f : α → Except ε β} {b : β} :
    (x >>= f) = .ok b ↔ ∃ a, x = .ok a ∧ f a = .ok b := by
  cases x with
  | error e => simp [bind, Except.bind]
  | ok a => simp [bind, Except.bind]

theorem mapError_eq_ok {x : Except ε α} {f : ε → ε'} {a : α} :
    x.mapError f = .ok a ↔ x = .ok a := by
  cases x with
  | error e => simp [Except.mapError]
  | ok b => simp [Except.mapError]

theorem isOk_iff {x : Except ε α} : x.isOk = true ↔ ∃ a, x = .ok a := by
  cases x with
  | error e => simp [Except.isOk, Except.toBool]
  | ok a => simp [Except.isOk, Except.toBool]

/-- Go on only if a condition holds. -/
def require (p : Prop) [Decidable p] (error : ε) : Except ε Unit :=
  if p then .ok () else .error error

/-- Go on only with a value that is there. -/
def demand (value : Option α) (error : ε) : Except ε α :=
  match value with
  | some a => .ok a
  | none => .error error

theorem require_bind_eq_ok {p : Prop} [Decidable p] {e : ε} {f : Unit → Except ε β} {b : β} :
    (require p e >>= f) = .ok b ↔ p ∧ f () = .ok b := by
  unfold require
  by_cases h : p <;> simp [h, bind, Except.bind]

theorem of_require {p : Prop} [Decidable p] {e : ε} {u : Unit} (h : require p e = .ok u) : p := by
  by_contra fails
  simp [require, fails] at h

theorem of_demand {o : Option α} {e : ε} {a : α} (h : demand o e = .ok a) : o = some a := by
  cases o with
  | none => cases h
  | some b => rw [Except.ok.inj h]

theorem demand_bind_eq_ok {o : Option α} {e : ε} {f : α → Except ε β} {b : β} :
    (demand o e >>= f) = .ok b ↔ ∃ a, o = some a ∧ f a = .ok b := by
  cases o with
  | none => simp [demand, bind, Except.bind]
  | some a => simp [demand, bind, Except.bind]

/-- A fold whose every step succeeds on what it is given succeeds. -/
theorem foldlM_total {f : σ → α → Except ε σ} {l : List α} (total : ∀ s, ∀ a ∈ l, ∃ t, f s a = .ok t)
    (s : σ) : ∃ t, l.foldlM f s = .ok t := by
  induction l generalizing s with
  | nil => exact ⟨s, rfl⟩
  | cons a l ih =>
    obtain ⟨t, stepped⟩ := total s a List.mem_cons_self
    obtain ⟨u, rest⟩ := ih (fun s b hb => total s b (List.mem_cons_of_mem a hb)) t
    refine ⟨u, ?_⟩
    rw [List.foldlM_cons, stepped]
    exact rest

section Elements

variable {f : α → Except ε β} {g : β → Except ε α} {l : List α} {m : List β}

theorem mapM_cons_eq_ok {a : α} :
    (a :: l).mapM f = .ok m ↔ ∃ b m', f a = .ok b ∧ l.mapM f = .ok m' ∧ m = b :: m' := by
  rw [List.mapM_cons]
  constructor
  · intro h
    obtain ⟨b, first, h⟩ := bind_eq_ok.mp h
    obtain ⟨m', rest, h⟩ := bind_eq_ok.mp h
    exact ⟨b, m', first, rest, (Except.ok.inj h).symm⟩
  · rintro ⟨b, m', first, rest, rfl⟩
    rw [first, rest]
    rfl

theorem mapM_eq_ok : l.mapM f = .ok m ↔ l.map f = m.map .ok := by
  induction l generalizing m with
  | nil =>
    rw [List.mapM_nil, List.map_nil, eq_comm (a := []), List.map_eq_nil_iff]
    exact ⟨fun h => (Except.ok.inj h).symm, fun h => congrArg Except.ok h.symm⟩
  | cons a l ih =>
    rw [mapM_cons_eq_ok, List.map_cons, eq_comm, List.map_eq_cons_iff]
    constructor
    · rintro ⟨b, m', first, rest, rfl⟩
      exact ⟨b, m', rfl, first.symm, (ih.mp rest).symm⟩
    · rintro ⟨b, m', rfl, first, rest⟩
      exact ⟨b, m', first.symm, ih.mpr rest.symm, rfl⟩

theorem mem_of_mapM (h : l.mapM f = .ok m) {b : β} : b ∈ m ↔ ∃ a ∈ l, f a = .ok b := by
  rw [← List.mem_map, mapM_eq_ok.mp h, List.mem_map]
  exact ⟨fun here => ⟨b, here, rfl⟩, fun ⟨c, here, same⟩ => Except.ok.inj same ▸ here⟩

/-- A translation keeps what it keeps of every element. -/
theorem map_of_mapM {γ : Type} {view : β → γ} {view' : α → γ} (h : l.mapM f = .ok m)
    (kept : ∀ a b, f a = .ok b → view b = view' a) : m.map view = l.map view' := by
  induction l generalizing m with
  | nil =>
    cases h
    rfl
  | cons a l ih =>
    obtain ⟨b, m', first, rest, rfl⟩ := mapM_cons_eq_ok.mp h
    rw [List.map_cons, List.map_cons, kept a b first, ih rest]

/-- A list is translated if all its elements are. -/
theorem mapM_ok_iff : (∃ m, l.mapM f = .ok m) ↔ ∀ a ∈ l, ∃ b, f a = .ok b := by
  induction l with
  | nil => exact ⟨fun _ _ inside => absurd inside List.not_mem_nil, fun _ => ⟨[], rfl⟩⟩
  | cons a l ih =>
    rw [List.forall_mem_cons, ← ih]
    constructor
    · rintro ⟨m, h⟩
      obtain ⟨b, m', first, rest, -⟩ := mapM_cons_eq_ok.mp h
      exact ⟨⟨b, first⟩, m', rest⟩
    · rintro ⟨⟨b, first⟩, m', rest⟩
      exact ⟨b :: m', mapM_cons_eq_ok.mpr ⟨b, m', first, rest, rfl⟩⟩

/-- A translation that is undone at every element is undone. -/
theorem mapM_inverts (inverts : ∀ a ∈ l, ∀ b, f a = .ok b → g b = .ok a) (h : l.mapM f = .ok m) :
    m.mapM g = .ok l := by
  induction l generalizing m with
  | nil =>
    cases h
    rfl
  | cons a l ih =>
    obtain ⟨b, m', first, rest, rfl⟩ := mapM_cons_eq_ok.mp h
    rw [List.forall_mem_cons] at inverts
    exact mapM_cons_eq_ok.mpr ⟨a, l, inverts.1 b first, ih inverts.2 rest, rfl⟩

/-- A list is accepted if all its elements are. -/
theorem forM_eq_ok {check : α → Except ε Unit} {u : Unit} :
    l.forM check = .ok u ↔ ∀ a ∈ l, check a = .ok () := by
  induction l with
  | nil => exact iff_of_true rfl fun _ inside => absurd inside List.not_mem_nil
  | cons a l ih =>
    rw [List.forall_mem_cons, ← ih]
    change (check a >>= fun _ => l.forM check) = .ok u ↔ _
    rw [bind_eq_ok]
    exact ⟨fun ⟨_, first, rest⟩ => ⟨first, rest⟩, fun ⟨first, rest⟩ => ⟨(), first, rest⟩⟩

end Elements

end Fava.Lib
