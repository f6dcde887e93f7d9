import Fava.Lib.BTree

namespace Fava.Lib

open Std

variable {α β : Type} [Ord α] [TransOrd α] [DecidableEq α] {m m' m'' : BTreeMap α β}
  {removed later : List α} {a : α}

/-- The second map is the first without these keys, all of which it had. -/
structure Without (m m' : BTreeMap α β) (removed : List α) : Prop where
  once : removed.Nodup
  present : ∀ a ∈ removed, a ∈ m
  find : ∀ a : α, m'[a]? = if a ∈ removed then none else m[a]?

theorem Without.refl : Without m m [] := ⟨List.nodup_nil, nofun, fun _ => rfl⟩

theorem Without.mem_iff (without : Without m m' removed) : a ∈ m' ↔ a ∈ m ∧ a ∉ removed := by
  rw [ExtTreeMap.mem_iff_isSome_getElem?, ExtTreeMap.mem_iff_isSome_getElem?, without.find]
  split
  · rename_i out
    exact ⟨nofun, fun kept => absurd out kept.2⟩
  · rename_i kept
    exact ⟨fun here => ⟨here, kept⟩, And.left⟩

theorem Without.trans (first : Without m m' removed) (next : Without m' m'' later) :
    Without m m'' (removed ++ later) := by
  refine ⟨List.nodup_append.mpr ⟨first.once, next.once, ?_⟩, fun a out => ?_, fun a => ?_⟩
  · rintro a out again inside rfl
    exact (first.mem_iff.mp (next.present a inside)).2 out
  · obtain out | out := List.mem_append.mp out
    · exact first.present a out
    · exact (first.mem_iff.mp (next.present a out)).1
  · rw [next.find, first.find]
    by_cases out : a ∈ removed <;> by_cases after : a ∈ later <;> simp [out, after]

theorem without_erase [LawfulEqOrd α] (there : a ∈ m) : Without m (m.erase a) [a] := by
  refine ⟨List.nodup_singleton _, fun b out => ?_, fun b => ?_⟩
  · rw [List.mem_singleton.mp out]
    exact there
  · rw [BTreeMap.find_erase]
    by_cases is : a = b
    · rw [if_pos is, if_pos (List.mem_singleton.mpr is.symm)]
    · rw [if_neg is, if_neg fun out => is (List.mem_singleton.mp out).symm]

end Fava.Lib
