import Mathlib.Data.List.Basic

namespace Fava.Lib

variable {U V : Type} {l : List U} {i : Nat} {x y z : U} {next : Option U}

/-- A pool of activities whose `i`-th one goes on as `next`, or is over. -/
def proceed (l : List U) (i : Nat) : Option U → List U
  | some y => l.set i y
  | none => l.eraseIdx i

/-- Around the activity that goes on, the pool stays as it is. -/
theorem proceed_eq (found : l[i]? = some x) : ∃ before after, l = before ++ x :: after ∧
    ∀ next, proceed l i next = before ++ (next.toList ++ after) := by
  induction l generalizing i with
  | nil => cases found
  | cons head tail ih =>
    cases i with
    | zero =>
      cases found
      refine ⟨[], tail, rfl, fun next => ?_⟩
      cases next <;> rfl
    | succ i =>
      obtain ⟨before, after, rfl, proceeds⟩ := ih found
      refine ⟨head :: before, after, rfl, fun next => ?_⟩
      have same := proceeds next
      cases next with
      | none => exact congrArg (head :: ·) same
      | some y => exact congrArg (head :: ·) same

theorem mem_of_mem_proceed (found : l[i]? = some x) (member : z ∈ proceed l i next) :
    next = some z ∨ z ∈ l := by
  obtain ⟨before, after, rfl, proceeds⟩ := proceed_eq found
  rw [proceeds, List.mem_append, List.mem_append, Option.mem_toList] at member
  obtain early | new | late := member
  · exact .inr (List.mem_append_left _ early)
  · exact .inl new
  · exact .inr (List.mem_append_right _ (List.mem_cons_of_mem _ late))

/-- What all activities have, all have still if the one that goes on has it. -/
theorem forall_mem_proceed {P : U → Prop} (all : ∀ z ∈ l, P z) (found : l[i]? = some x)
    (goes : ∀ y, next = some y → P y) : ∀ z ∈ proceed l i next, P z := by
  intro z member
  obtain is | member := mem_of_mem_proceed found member
  · exact goes z is
  · exact all z member

theorem mem_proceed (found : l[i]? = some x) (next : Option U) (member : z ∈ l) :
    z = x ∨ z ∈ proceed l i next := by
  obtain ⟨before, after, rfl, proceeds⟩ := proceed_eq found
  rw [proceeds, List.mem_append, List.mem_append]
  obtain early | here := List.mem_append.mp member
  · exact .inr (.inl early)
  · exact (List.mem_cons.mp here).imp_right fun late => .inr (.inr late)

theorem next_mem_proceed (found : l[i]? = some x) : y ∈ proceed l i (some y) := by
  obtain ⟨before, after, -, proceeds⟩ := proceed_eq found
  rw [proceeds]
  simp

/-- Who is there once one activity goes on: it does, or it is one of the others. -/
theorem others_of_mem_proceed (found : l[i]? = some x) (member : z ∈ proceed l i (some y)) :
    z = y ∨ z ∈ proceed l i none := by
  obtain ⟨before, after, -, proceeds⟩ := proceed_eq found
  rw [proceeds, List.mem_append, List.mem_append, Option.mem_toList] at member
  rw [proceeds, List.mem_append, List.mem_append]
  obtain early | new | late := member
  · exact .inr (.inl early)
  · exact .inl (Option.some.inj new).symm
  · exact .inr (.inr (.inr late))

/-- How many activities are of a kind changes with the one that goes on. -/
theorem countP_proceed (p : U → Bool) (found : l[i]? = some x) (next : Option U) :
    (proceed l i next).countP p + (if p x then 1 else 0) =
      l.countP p + (if next.any p then 1 else 0) := by
  obtain ⟨before, after, rfl, proceeds⟩ := proceed_eq found
  rw [proceeds]
  cases next <;> simp [List.countP_append, List.countP_cons] <;> omega

theorem countP_proceed_same {p : U → Bool} (found : l[i]? = some x) (next : Option U)
    (same : next.any p = p x) :
    (proceed l i next).countP p = l.countP p := by
  have moves := countP_proceed p found next
  rw [same] at moves
  omega

section Once

variable {f : U → Option V} {v : V}

/-- Keys stay distinct if the one that goes on keeps its key or gives it up. -/
theorem nodup_proceed (once : (l.filterMap f).Nodup) (found : l[i]? = some x)
    (same : ∀ v, next.bind f = some v → f x = some v) : ((proceed l i next).filterMap f).Nodup := by
  obtain ⟨before, after, rfl, proceeds⟩ := proceed_eq found
  rw [proceeds]
  have shrinks : ((before ++ (next.toList ++ after)).filterMap f).Sublist
      ((before ++ x :: after).filterMap f) := by
    rw [List.filterMap_append, List.filterMap_append, List.filterMap_append, List.filterMap_cons]
    refine List.Sublist.append_left ?_ _
    cases next with
    | none => cases f x <;> simp
    | some y =>
      cases here : f y with
      | none => cases f x <;> simp [here]
      | some v => simp [here, same v here]
  exact once.sublist shrinks

/-- Keys stay distinct if the one that goes on takes one that nobody has. -/
theorem nodup_proceed_new (once : (l.filterMap f).Nodup) (found : l[i]? = some x)
    (key : f y = some v) (fresh : ∀ z ∈ l, f z ≠ some v) :
    ((proceed l i (some y)).filterMap f).Nodup := by
  have others : ((proceed l i none).filterMap f).Nodup :=
    nodup_proceed once found fun _ is => by cases is
  have missing : v ∉ (proceed l i none).filterMap f := by
    intro member
    obtain ⟨z, inside, same⟩ := List.mem_filterMap.mp member
    obtain is | old := mem_of_mem_proceed found inside
    · cases is
    · exact fresh z old same
  obtain ⟨before, after, -, proceeds⟩ := proceed_eq found
  rw [proceeds, Option.toList_none, List.nil_append, List.filterMap_append] at others missing
  rw [proceeds, Option.toList_some, List.singleton_append, List.filterMap_append,
    List.filterMap_cons, key]
  exact List.perm_middle.nodup_iff.mpr (List.nodup_cons.mpr ⟨missing, others⟩)

/-- Nobody else has the key of the one that goes on. -/
theorem ne_key_of_mem_proceed (once : (l.filterMap f).Nodup) (found : l[i]? = some x)
    (key : f x = some v) (member : z ∈ proceed l i none) : f z ≠ some v := by
  obtain ⟨before, after, rfl, proceeds⟩ := proceed_eq found
  intro clash
  have both : v ∈ (proceed (before ++ x :: after) i none).filterMap f :=
    List.mem_filterMap.mpr ⟨z, member, clash⟩
  rw [proceeds, List.filterMap_append, List.mem_append] at both
  rw [List.filterMap_append, List.filterMap_cons, key, List.nodup_append, List.nodup_cons] at once
  obtain early | late := both
  · exact once.2.2 v early v List.mem_cons_self rfl
  · exact once.2.1.1 late

/-- Who has a key is known by it. -/
theorem eq_of_key (once : (l.filterMap f).Nodup) (first : x ∈ l) (second : y ∈ l)
    (key : f x = some v) (same : f y = some v) : x = y := by
  obtain ⟨i, found⟩ := List.getElem?_of_mem first
  obtain is | left := mem_proceed found none second
  · exact is.symm
  · exact absurd same (ne_key_of_mem_proceed once found key left)

end Once

end Fava.Lib
