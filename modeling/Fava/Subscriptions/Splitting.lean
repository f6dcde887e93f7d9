import Fava.Lib.Loop
import Fava.Subscriptions.Fitting

namespace Fava.Subscriptions

open Std Fava.Lib

/-- What the splitting loop goes on with: the candidates it has not sized yet, and
what it made of the others. -/
structure Splitting where
  queue : List Candidate
  carried : List AttributedSubscription
  shortfalls : List SubscriptionShortfall

/-- One round of `fit_message_bound`. -/
def splitOnce (encoder : Encoder) (constraints : RelayReadConstraints) (s : Splitting) :
    Except SubscriptionPlanError (Option Splitting) :=
  match s.queue with
  | [] => .ok none
  | (filter, members) :: queue =>
    if members = [] then .ok (some { s with queue })
    else
      match encoder.encodedBytes [filter] with
      | .error detail => .error (.encoding detail)
      | .ok bytes =>
        if constraints.maxMessageBytes.all fun maximum => bytes ≤ maximum then
          .ok (some ⟨queue, s.carried ++ [⟨[filter], ExtTreeSet.ofList (members.map RelayDemand.id),
            completeness [filter] constraints⟩], s.shortfalls⟩)
        else
          match members with
          | [only] => .ok (some ⟨queue, s.carried, s.shortfalls ++
              [⟨only.id, .messageTooLarge bytes (constraints.maxMessageBytes.getD bytes)⟩]⟩)
          | _ =>
            let midpoint := (members.length + 1) / 2
            .ok (some ⟨queue ++ group encoder (members.take midpoint) constraints ++
              group encoder (members.drop midpoint) constraints, s.carried, s.shortfalls⟩)

/-- One round of `merge_to_fixed_point`. -/
def mergeOnce (candidates : List Candidate) : Except SubscriptionPlanError (Option (List Candidate)) :=
  .ok (mergeFirstPair candidates)

variable {encoder : Encoder} {constraints : RelayReadConstraints} {demand : List RelayDemand}
  {candidates merged : List Candidate} {s t : Splitting}

section Merging

theorem mergeInto_length {left : Candidate} {bounds : QueryBounds}
    (h : mergeInto left bounds candidates = some merged) : merged.length = candidates.length := by
  induction candidates generalizing merged with
  | nil => cases h
  | cons right rest ih =>
    rw [mergeInto] at h
    split at h
    · cases h
      rfl
    · split at h
      · rename_i joined others found
        cases h
        have counted := ih found
        simp only [List.length_cons] at counted ⊢
        omega
      · cases h

/-- Joining two candidates leaves one fewer. -/
theorem mergeFirstPair_length (h : mergeFirstPair candidates = some merged) :
    merged.length + 1 = candidates.length := by
  induction candidates generalizing merged with
  | nil => cases h
  | cons left rest ih =>
    rw [mergeFirstPair] at h
    split at h
    · rename_i joined found
      cases h
      obtain ⟨bounds, -, found⟩ := Option.bind_eq_some_iff.mp found
      rw [mergeInto_length found, List.length_cons]
    · obtain ⟨later, found, rfl⟩ := Option.map_eq_some_iff.mp h
      have counted := ih found
      simp only [List.length_cons]
      omega

theorem mergeToFixedPoint_eq (fuel : Nat) :
    rounds mergeOnce fuel candidates = .ok (mergeToFixedPoint fuel candidates) := by
  induction fuel generalizing candidates with
  | zero => rfl
  | succ fuel ih =>
    rw [rounds, mergeToFixedPoint, mergeOnce]
    cases mergeFirstPair candidates with
    | none => rfl
    | some merged => exact ih

/-- Merging comes to its fixed point. -/
theorem merging_ends (candidates : List Candidate) :
    Ends mergeOnce candidates (.ok (mergeToFixedPoint candidates.length candidates)) := by
  rw [← mergeToFixedPoint_eq]
  refine ends_rounds (I := fun _ => True) (m := List.length) ?_ ?_ trivial (Nat.le_refl _)
  · intro candidates merged _ next
    have found : mergeFirstPair candidates = some merged := Except.ok.inj next
    exact ⟨trivial, by rw [← mergeFirstPair_length found]; exact Nat.lt_succ_self _⟩
  · intro candidates _ none
    rw [List.length_eq_zero_iff.mp none]
    rfl

end Merging

section Splitting

theorem fitMessageBound_eq (fuel : Nat) (s : Splitting) :
    fitMessageBound encoder constraints fuel s.queue s.carried s.shortfalls =
      (rounds (splitOnce encoder constraints) fuel s).map fun s => (s.carried, s.shortfalls) := by
  induction fuel generalizing s with
  | zero => rfl
  | succ fuel ih =>
    obtain ⟨queue, carried, shortfalls⟩ := s
    obtain - | ⟨⟨filter, held⟩, queue⟩ := queue
    · rfl
    · rw [rounds, splitOnce]
      simp only [fitMessageBound]
      obtain - | ⟨only, held⟩ := held
      · exact ih ⟨queue, carried, shortfalls⟩
      · rw [if_neg (List.cons_ne_nil _ _), if_neg (List.cons_ne_nil _ _)]
        cases encoder.encodedBytes [filter] with
        | error detail => rfl
        | ok bytes =>
          dsimp only
          split
          · exact ih ⟨_, _, _⟩
          · obtain - | ⟨other, held⟩ := held
            · exact ih ⟨_, _, _⟩
            · exact ih ⟨_, _, _⟩

/-- Rounds the loop still has: every split leaves more candidates for the members. -/
def Splitting.left (s : Splitting) : Nat := 2 * (members s.queue).length - s.queue.length

/-- The candidates to go are groups of demand that the encoder tells apart. -/
def Splitting.Grouped (encoder : Encoder) (s : Splitting) : Prop :=
  Distinguishes encoder (members s.queue) ∧ Subscriptions.Grouped (members s.queue) s.queue

theorem splitOnce_left (grouped : s.Grouped encoder)
    (next : splitOnce encoder constraints s = .ok (some t)) :
    t.Grouped encoder ∧ t.left < s.left := by
  obtain ⟨distinct, grouped⟩ := grouped
  obtain ⟨queue, carried, shortfalls⟩ := s
  obtain - | ⟨⟨filter, held⟩, queue⟩ := queue
  · cases next
  · have inhabited : held ≠ [] := grouped.inhabited _ List.mem_cons_self
    have rest : Subscriptions.Grouped (members queue) queue :=
      ⟨.refl _, fun c hc => grouped.inhabited c (by simp [hc]),
        fun c hc => grouped.covering c (by simp [hc])⟩
    have filled := List.length_pos_iff.mpr inhabited
    have fewer := rest.length_le
    have apart : Distinguishes encoder (members queue) := distinct.subset fun d hd =>
      List.mem_append_right held hd
    have done : ∀ carried shortfalls, (⟨queue, carried, shortfalls⟩ : Splitting).Grouped encoder ∧
        (⟨queue, carried, shortfalls⟩ : Splitting).left <
          (⟨(filter, held) :: queue, carried, shortfalls⟩ : Splitting).left := fun _ _ => by
      refine ⟨⟨apart, rest⟩, ?_⟩
      simp only [Splitting.left, members_cons, List.length_append, List.length_cons]
      omega
    rw [splitOnce] at next
    simp only [if_neg inhabited] at next
    split at next
    · cases next
    · split at next
      · cases next
        exact done _ _
      · split at next
        · cases next
          exact done _ _
        · rename_i single
          cases next
          have several := two_le_length inhabited single
          obtain ⟨halves, count⟩ := group_halves constraints
            (distinct.subset fun d hd => List.mem_append_left _ hd) several
          have shared := halves.shared
          have split := rest.append halves
          rw [← List.append_assoc] at split
          have same := split.shared
          have within : ∀ d ∈ members (queue ++ group encoder (held.take ((held.length + 1) / 2))
              constraints ++ group encoder (held.drop ((held.length + 1) / 2)) constraints),
              d ∈ held ++ members queue := fun d hd =>
            (List.perm_append_comm.mem_iff).mp (same.mem_iff.mp hd)
          refine ⟨⟨distinct.subset within, ⟨.refl _, split.inhabited, split.covering⟩⟩, ?_⟩
          have total := same.length_eq
          simp only [Splitting.left, members_cons, List.length_append, List.length_cons] at *
          omega

theorem splitting_bottom (grouped : s.Grouped encoder) (low : s.left = 0) :
    splitOnce encoder constraints s = .ok none := by
  obtain ⟨-, grouped⟩ := grouped
  have fewer := grouped.length_le
  rw [Splitting.left] at low
  have empty : s.queue = [] := List.eq_nil_of_length_eq_zero (by omega)
  rw [splitOnce, empty]

/-- Splitting ends, with what the bounded loop gives. -/
theorem splitting_ends (distinct : Distinguishes encoder demand)
    (shortfalls : List SubscriptionShortfall) :
    ∃ r, Ends (splitOnce encoder constraints) ⟨group encoder demand constraints, [], shortfalls⟩ r ∧
      fitMessageBound encoder constraints (splitBound (group encoder demand constraints))
        (group encoder demand constraints) [] shortfalls =
          r.map fun s => (s.carried, s.shortfalls) := by
  have grouped : Grouped demand (group encoder demand constraints) := group_grouped distinct
  have start : Splitting.Grouped encoder ⟨group encoder demand constraints, [], shortfalls⟩ :=
    ⟨distinct.subset fun d => grouped.shared.mem_iff.mp, .refl _, grouped.inhabited, grouped.covering⟩
  refine ⟨_, ends_rounds (I := Splitting.Grouped encoder) (m := Splitting.left)
    (fun _ _ => splitOnce_left) (fun _ => splitting_bottom) start ?_, fitMessageBound_eq _ ⟨_, _, _⟩⟩
  rw [splitBound_eq]
  dsimp only [Splitting.left]
  omega

end Splitting

end Fava.Subscriptions
