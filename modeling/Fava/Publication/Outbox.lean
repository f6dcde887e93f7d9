import Fava.Lib.Log
import Fava.Publication.Runners

namespace Fava.Publication.Handover

open Fava.Lib Fava.Nostr Fava.Write

variable {log before after : List Handover} {target : Target} {number : Nat}
  {attempt : PublishAttempt} {outcome other : PublishOutcome} {entry : Handover}

/-- The numbers of the attempts at a target the publisher was called for, in order. -/
def tries (log : List Handover) (target : Target) : List Nat :=
  log.filterMap fun entry =>
    match entry with
    | .called attempt => if attempt.target = target then some attempt.number else none
    | .answered _ _ => none

def asks : Handover → Option PublishAttempt
  | .called attempt => some attempt
  | .answered _ _ => none

theorem asks_eq_some (entry : Handover) : asks entry = some attempt ↔ entry = .called attempt := by
  cases entry <;> simp [asks]

/-- The publisher answered the attempt at the target that has the number. -/
def Answered (log : List Handover) (target : Target) (number : Nat) (outcome : PublishOutcome) : Prop :=
  ∃ attempt : PublishAttempt, .answered attempt outcome ∈ log ∧ attempt.target = target ∧
    attempt.number = number

/-- The attempt comes next at its target: all before it were made, the last of them is known not
to have been handed off, and it carries what its generation carried before. -/
structure Follows (before : List Handover) (attempt : PublishAttempt) : Prop where
  positive : 0 < attempt.number
  tries : tries before attempt.target = List.range' 1 (attempt.number - 1)
  failed : 1 < attempt.number →
    ∃ reason, Answered before attempt.target (attempt.number - 1) (.notHandedOff reason)
  event : ∀ earlier, .called earlier ∈ before → earlier.receiptId = attempt.receiptId →
    earlier.revisionId = attempt.revisionId → earlier.event = attempt.event

/-- What may come next: a call that follows on those before, or the answer to one that has none. -/
def Due (before : List Handover) : Handover → Prop
  | .called attempt => Follows before attempt
  | .answered attempt _ => .called attempt ∈ before ∧
    ∀ outcome, ¬Answered before attempt.target attempt.number outcome

section Append

theorem tries_called (attempt : PublishAttempt) (target : Target) :
    tries (log ++ [.called attempt]) target =
      tries log target ++ if attempt.target = target then [attempt.number] else [] := by
  unfold tries
  rw [List.filterMap_append]
  congr 1
  by_cases same : attempt.target = target <;> simp [same]

theorem tries_answered (attempt : PublishAttempt) (outcome : PublishOutcome) (target : Target) :
    tries (log ++ [.answered attempt outcome]) target = tries log target := by
  simp [tries, List.filterMap_append]

theorem tries_eq_nil (none : ∀ attempt, .called attempt ∈ log → attempt.target ≠ target) :
    tries log target = [] := by
  refine List.filterMap_eq_nil_iff.mpr fun entry member => ?_
  cases entry with
  | called attempt => exact if_neg (none attempt member)
  | answered => rfl

theorem mem_tries (member : .called attempt ∈ log) : attempt.number ∈ tries log attempt.target :=
  List.mem_filterMap.mpr ⟨_, member, if_pos rfl⟩

theorem called_of_mem_tries (member : number ∈ tries log target) :
    ∃ attempt, .called attempt ∈ log ∧ attempt.target = target ∧ attempt.number = number := by
  obtain ⟨entry, inside, is⟩ := List.mem_filterMap.mp member
  cases entry with
  | called attempt =>
    obtain ⟨same, number⟩ := Option.ite_none_right_eq_some.mp is
    exact ⟨attempt, inside, same, Option.some.inj number⟩
  | answered => cases is

theorem Answered.append (answered : Answered log target number outcome) (later : List Handover) :
    Answered (log ++ later) target number outcome := by
  obtain ⟨attempt, member, rest⟩ := answered
  exact ⟨attempt, List.mem_append_left _ member, rest⟩

theorem answered_concat (answered : Answered (log ++ [entry]) target number outcome) :
    Answered log target number outcome ∨
      ∃ attempt, entry = .answered attempt outcome ∧ attempt.target = target ∧ attempt.number = number := by
  obtain ⟨attempt, member, rest⟩ := answered
  obtain old | new := List.mem_append.mp member
  · exact .inl ⟨attempt, old, rest⟩
  · exact .inr ⟨attempt, (List.mem_singleton.mp new).symm, rest⟩

end Append

section Grown

/-- What was answered was called before. -/
theorem mem_tries_of_answered (grown : Grown Due log) (answered : Answered log target number outcome) :
    number ∈ tries log target := by
  obtain ⟨attempt, member, rfl, rfl⟩ := answered
  obtain ⟨before, after, rfl, -, called, -⟩ := grown.fits member
  exact mem_tries (List.mem_append_left _ called)

/-- The attempts at a target are numbered from one. -/
theorem tries_of_grown (grown : Grown Due log) (target : Target) :
    ∃ count, tries log target = List.range' 1 count := by
  induction grown with
  | nil => exact ⟨0, rfl⟩
  | @snoc log entry grown due ih =>
    cases entry with
    | called attempt =>
      rw [tries_called]
      by_cases same : attempt.target = target
      · have positive := due.positive
        refine ⟨attempt.number, ?_⟩
        rw [if_pos same, ← same, due.tries]
        obtain ⟨count, is⟩ : ∃ count, attempt.number = count + 1 := ⟨attempt.number - 1, by omega⟩
        rw [is, List.range'_1_concat, Nat.add_sub_cancel, Nat.add_comm 1]
      · rw [if_neg same, List.append_nil]
        exact ih
    | answered =>
      rw [tries_answered]
      exact ih

/-- No attempt is answered twice. -/
theorem eq_of_answered (grown : Grown Due log) (first : Answered log target number outcome)
    (second : Answered log target number other) : outcome = other := by
  induction grown with
  | nil =>
    obtain ⟨attempt, member, -⟩ := first
    cases member
  | @snoc log entry grown due ih =>
    obtain old | ⟨attempt, rfl, rfl, rfl⟩ := answered_concat first
    · obtain old' | ⟨attempt, rfl, rfl, rfl⟩ := answered_concat second
      · exact ih old old'
      · exact absurd old (due.2 outcome)
    · obtain old' | ⟨attempt', same, -⟩ := answered_concat second
      · exact absurd old' (due.2 other)
      · cases same
        rfl

/-- Whatever was made before an attempt is known not to have been handed off. -/
theorem failed_of_grown (grown : Grown Due before) (follows : Follows before attempt) (positive : 0 < number)
    (earlier : number < attempt.number) :
    ∃ reason, Answered before attempt.target number (.notHandedOff reason) := by
  obtain last | more : number + 1 = attempt.number ∨ number + 1 < attempt.number := by omega
  · obtain rfl : attempt.number - 1 = number := by omega
    exact follows.failed (by omega)
  · -- The attempt after it was made, and that one needed it to have failed.
    have made : number + 1 ∈ tries before attempt.target := by
      rw [follows.tries, List.mem_range'_1]
      omega
    obtain ⟨next, member, same, is⟩ := called_of_mem_tries made
    obtain ⟨start, rest, rfl, -, due⟩ := grown.fits member
    obtain ⟨reason, answered⟩ := due.failed (by omega)
    rw [same, is] at answered
    exact ⟨reason, answered.append _⟩

/-- Nothing that may have been handed off, or still may be, is handed over again. -/
theorem unclaimed_of_grown (grown : Grown Due before) (follows : Follows before attempt) :
    (∀ number ∈ tries before attempt.target, ∃ outcome, Answered before attempt.target number outcome) ∧
      ∀ number outcome, Answered before attempt.target number outcome →
        ∃ reason, outcome = .notHandedOff reason := by
  have failed : ∀ number ∈ tries before attempt.target,
      ∃ reason, Answered before attempt.target number (.notHandedOff reason) := by
    intro number member
    rw [follows.tries, List.mem_range'_1] at member
    exact failed_of_grown grown follows (by omega) (by omega)
  refine ⟨fun number member => (failed number member).imp' _ fun _ => id, fun number outcome answered => ?_⟩
  obtain ⟨reason, answered'⟩ := failed number (mem_tries_of_answered grown answered)
  exact ⟨reason, eq_of_answered grown answered answered'⟩

end Grown

end Fava.Publication.Handover
