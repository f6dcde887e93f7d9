import Mathlib.Data.List.Count
import Mathlib.Data.List.Induction
import Mathlib.Algebra.BigOperators.Group.List.Basic

namespace Fava.Lib

variable {β γ : Type} {p q : β → Bool} {b c : β} {before after l : List β}

/-- Replacing an entry by one that is searched for alike finds the same, up to what the
two have in common. -/
theorem map_find?_replace {f : β → γ} (same : p c = p b) (kept : f c = f b) :
    ((before ++ c :: after).find? p).map f = ((before ++ b :: after).find? p).map f := by
  rw [List.find?_append, List.find?_append, List.find?_cons, List.find?_cons, same]
  cases before.find? p with
  | some d => rfl
  | none =>
    rw [Option.none_or, Option.none_or]
    split
    · exact congrArg some kept
    · rfl

/-- The entry that is found first is found again if another one is replaced. -/
theorem find?_replace_of_ne {d : β} (same : p c = p b)
    (found : (before ++ b :: after).find? p = some d) (other : d ≠ b) :
    (before ++ c :: after).find? p = some d := by
  rw [List.find?_append, List.find?_cons] at found ⊢
  rw [same]
  cases first : before.find? p with
  | some d' =>
    rw [first] at found
    exact found
  | none =>
    rw [first, Option.none_or] at found
    rw [Option.none_or]
    split at found
    · cases found
      exact (other rfl).elim
    · exact found

theorem find?_remove {d : β} (found : (before ++ b :: after).find? p = some d) (other : d ≠ b) :
    (before ++ after).find? p = some d := by
  rw [List.find?_append, List.find?_cons] at found
  rw [List.find?_append]
  cases first : before.find? p with
  | some d' =>
    rw [first] at found
    exact found
  | none =>
    rw [first, Option.none_or] at found
    rw [Option.none_or]
    split at found
    · cases found
      exact (other rfl).elim
    · exact found

theorem find?_filter_of_kept {d : β} (found : l.find? p = some d) (kept : q d = true) :
    (l.filter q).find? p = some d := by
  induction l with
  | nil => cases found
  | cons c l ih =>
    rw [List.find?_cons] at found
    split at found
    · rename_i first
      cases found
      rw [List.filter_cons_of_pos kept, List.find?_cons_of_pos first]
    · rename_i skipped
      by_cases here : q c = true
      · rw [List.filter_cons_of_pos here, List.find?_cons_of_neg (by simp [skipped]), ih found]
      · rw [List.filter_cons_of_neg here, ih found]

/-- Dealing a list out to several takers, each entry to exactly one of them, loses and
doubles nothing. -/
theorem deal_perm [DecidableEq γ] {takes : β → γ → Bool} {items : List γ}
    (once : ∀ x ∈ items, l.countP (takes · x) = 1) :
    (l.flatMap fun b => items.filter (takes b)).Perm items := by
  have dealt : ∀ x, (l.flatMap fun b => items.filter (takes b)).count x =
      items.count x * l.countP (takes · x) := by
    clear once
    intro x
    induction l with
    | nil => simp
    | cons b l ih =>
      rw [List.flatMap_cons, List.count_append, List.countP_cons, ih, Nat.mul_add, Nat.add_comm]
      congr 1
      by_cases takesIt : takes b x
      · rw [List.count_filter takesIt, if_pos takesIt, Nat.mul_one]
      · rw [if_neg takesIt, Nat.mul_zero]
        apply List.count_eq_zero_of_not_mem
        exact fun member => takesIt (List.of_mem_filter member)
  rw [List.perm_iff_count]
  intro x
  rw [dealt]
  by_cases member : x ∈ items
  · rw [once x member, Nat.mul_one]
  · rw [List.count_eq_zero_of_not_mem member, Nat.zero_mul]

/-- A fold that keeps its choice or takes the next entry chooses one of the entries. -/
theorem mem_of_foldl_choice {f : Option β → β → Option β}
    (chooses : ∀ best b, f best b = some b ∨ f best b = best)
    (chosen : l.foldl f none = some b) : b ∈ l := by
  suffices from' : ∀ best, l.foldl f best = some b → b ∈ l ∨ best = some b from
    (from' none chosen).resolve_right nofun
  clear chosen
  induction l with
  | nil => exact fun _ => .inr
  | cons first rest ih =>
    intro best chosen
    obtain later | here := ih _ chosen
    · exact .inl (List.mem_cons_of_mem _ later)
    · obtain new | kept := chooses best first
      · rw [new] at here
        cases here
        exact .inl List.mem_cons_self
      · rw [kept] at here
        exact .inr here

/-- Keep the greater of two, and the first one of two that do not compare. -/
def keepGreater (above : β → β → Bool) (b : β) : Option β → β
  | none => b
  | some best => if above b best then b else best

section Greatest

variable {above : β → β → Bool}

theorem foldl_keepGreater_eq_none : l.foldl (fun v b => some (keepGreater above b v)) none = none ↔
    l = [] := by
  cases l using List.reverseRecOn with
  | nil => exact iff_of_true rfl rfl
  | append_singleton l last => simp

theorem mem_of_foldl_keepGreater (chosen : l.foldl (fun v b => some (keepGreater above b v)) none = some b) :
    b ∈ l := by
  refine mem_of_foldl_choice (fun best b => ?_) chosen
  cases best with
  | none => exact .inl rfl
  | some best =>
    by_cases greater : above b best
    · exact .inl (congrArg some (if_pos greater))
    · exact .inr (congrArg some (if_neg greater))

/-- Nothing of a list is above what is kept of it. -/
theorem foldl_keepGreater_greatest (irrefl : ∀ b, above b b = false)
    (trans : ∀ a b c, above a b = true → above b c = true → above a c = true)
    (chosen : l.foldl (fun v b => some (keepGreater above b v)) none = some b) :
    ∀ c ∈ l, above c b = false := by
  induction l using List.reverseRecOn generalizing b with
  | nil => exact nofun
  | append_singleton l last ih =>
    rw [List.foldl_append, List.foldl_cons, List.foldl_nil, Option.some.injEq] at chosen
    rw [List.forall_mem_append, List.forall_mem_singleton]
    cases before : l.foldl (fun v b => some (keepGreater above b v)) none with
    | none =>
      rw [before] at chosen
      obtain rfl : last = b := chosen
      refine ⟨?_, irrefl last⟩
      rw [foldl_keepGreater_eq_none.mp before]
      exact nofun
    | some best =>
      rw [before, keepGreater] at chosen
      split at chosen
      · rename_i greater
        subst chosen
        refine ⟨fun c member => ?_, irrefl last⟩
        by_contra higher
        rw [Bool.not_eq_false] at higher
        have low := ih before c member
        rw [trans c last best higher greater] at low
        cases low
      · rename_i lesser
        subst chosen
        exact ⟨ih before, by simpa using lesser⟩

end Greatest

end Fava.Lib
