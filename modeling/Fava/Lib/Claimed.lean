import Mathlib.Data.List.Nodup

namespace Fava.Lib

variable {U K : Type} {key : U → K} {live : U → Bool} {l : List U} {x y : U} {k : Nat} {q : K}

/-- The key of a user that is still live. -/
def Claimed (key : U → K) (live : U → Bool) (l : List U) (q : K) : Prop :=
  ∃ u ∈ l, key u = q ∧ live u = true

theorem claimed_append : Claimed key live (l ++ [y]) q ↔
    Claimed key live l q ∨ key y = q ∧ live y = true := by
  simp only [Claimed, List.mem_append, List.mem_singleton, or_and_right, exists_or, exists_eq_left]

theorem map_set_same {V : Type} {f : U → V} (found : l[k]? = some x) (same : f y = f x) :
    (l.set k y).map f = l.map f := by
  obtain ⟨within, rfl⟩ := List.getElem?_eq_some_iff.mp found
  apply List.ext_getElem
  · simp
  · intro i before after
    by_cases here : k = i
    · subst here
      simp [same]
    · simp [List.getElem_set_ne here]

variable (key) in
/-- A user that changes in nothing the table is about. -/
theorem claimed_set_same (found : l[k]? = some x) (same : key y = key x) (lives : live y = live x) :
    Claimed key live (l.set k y) q ↔ Claimed key live l q := by
  have pairs : ∀ m : List U, Claimed key live m q ↔ (q, true) ∈ m.map fun u => (key u, live u) := by
    simp [Claimed]
  rw [pairs, pairs, map_set_same found (by rw [same, lives])]

/-- A user that dies gives up its own key and nothing else. -/
theorem claimed_set_dead (once : (l.map key).Nodup) (found : l[k]? = some x)
    (dead : live y = false) :
    Claimed key live (l.set k y) q ↔ Claimed key live l q ∧ q ≠ key x := by
  constructor
  · rintro ⟨u, member, rfl, lives⟩
    obtain ⟨i, here⟩ := List.mem_iff_getElem?.mp member
    rw [List.getElem?_set] at here
    by_cases own : k = i
    · rw [if_pos own] at here
      split at here <;> cases here
      rw [dead] at lives
      cases lives
    · rw [if_neg own] at here
      refine ⟨⟨u, List.mem_of_getElem? here, rfl, lives⟩, fun clash => own ?_⟩
      have first : (l.map key)[k]? = some (key x) := by rw [List.getElem?_map, found]; rfl
      have second : (l.map key)[i]? = some (key x) := by rw [List.getElem?_map, here, ← clash]; rfl
      exact (List.getElem?_inj (List.getElem?_eq_some_iff.mp first).1 once).mp (first.trans second.symm)
  · rintro ⟨⟨u, member, rfl, lives⟩, other⟩
    obtain ⟨i, here⟩ := List.mem_iff_getElem?.mp member
    have apart : k ≠ i := by
      rintro rfl
      exact other (congrArg key (Option.some.inj (here.symm.trans found)))
    exact ⟨u, List.mem_of_getElem? (i := i) (by rw [List.getElem?_set_ne apart, here]), rfl, lives⟩

variable (key) in
theorem claimed_map_same {f : U → U} (same : ∀ u, key (f u) = key u) (lives : ∀ u, live (f u) = live u) :
    Claimed key live (l.map f) q ↔ Claimed key live l q := by
  simp [Claimed, same, lives]

theorem claimed_map_dead {f : U → U} (dead : ∀ u, live (f u) = false) :
    ¬ Claimed key live (l.map f) q := by
  simp [Claimed, dead]

end Fava.Lib
