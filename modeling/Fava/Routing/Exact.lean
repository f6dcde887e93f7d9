import Fava.Routing.Answers
import Fava.Routing.Coherence

namespace Fava.Routing

open Std Fava.Lib Fava.Nostr Fava.Relay Fava.Queries Fava.Write

/-- A relay is planned for a target. -/
def RoutePlan.Plans (plan : RoutePlan) (relay : RelayUrl) (target : RouteTarget) : Prop :=
  ∃ planned, plan.destinations[relay]? = some planned ∧ target ∈ planned.targets

/-- A plan has those relays cover a target that it plans for it. -/
def RoutePlan.Exact (plan : RoutePlan) : Prop :=
  ∀ relay target, plan.Plans relay target ↔ Covered plan.coverage relay target

/-- A state has a relay cover its target. -/
def CoverageState.Has (relay : RelayUrl) : CoverageState → Prop
  | .covered relays => relay ∈ relays
  | .unresolved => False
  | .settledAbsent => False

variable {contributions : List RouteContribution} {c : RouteContribution} {relay : RelayUrl}
  {target other : RouteTarget} {targets : BTreeSet RouteTarget} {allAnswered : Bool}
  {destinations : List RouteDestination} {d : RouteDestination} {state : CoverageState}
  {coverage : BTreeMap RouteTarget CoverageState} {planned : BTreeMap RelayUrl PlannedRelay}
  {revision : Nat} {plan : RoutePlan} {entry : Option CoverageState}

theorem covered_iff : Covered coverage relay target ↔
    ∃ state, coverage[target]? = some state ∧ state.Has relay := by
  constructor
  · rintro ⟨relays, found, inside⟩
    exact ⟨_, found, inside⟩
  · rintro ⟨state, found, inside⟩
    cases state with
    | covered relays => exact ⟨relays, found, inside⟩
    | unresolved => cases inside
    | settledAbsent => cases inside

theorem has_mergeEntry : (mergeEntry state entry).Has relay ↔
    (∃ before, entry = some before ∧ before.Has relay) ∨ state.Has relay := by
  cases entry with
  | none => cases state <;> simp [mergeEntry, mergeCoverage, CoverageState.Has]
  | some before =>
    cases before <;> cases state <;>
      simp [mergeEntry, mergeCoverage, CoverageState.Has, ExtTreeSet.mem_union_iff]

/-- Merged states have what one of them has. -/
theorem has_mergeStates {states : List CoverageState} :
    (∃ merged, mergeStates entry states = some merged ∧ merged.Has relay) ↔
      (∃ before, entry = some before ∧ before.Has relay) ∨ ∃ state ∈ states, state.Has relay := by
  induction states generalizing entry with
  | nil => simp [mergeStates]
  | cons state states ih =>
    change (∃ merged, mergeStates (some (mergeEntry state entry)) states = some merged ∧ _) ↔ _
    rw [ih, List.exists_mem_cons_iff, ← or_assoc]
    refine or_congr ?_ Iff.rfl
    rw [← has_mergeEntry]
    simp

namespace RouteContribution

theorem exact_none : RouteContribution.none.Exact := by
  intro relay target
  refine iff_of_false ?_ ?_
  · rintro ⟨d, listed, -⟩
    cases listed
  · rintro ⟨relays, found, -⟩
    change (∅ : BTreeMap RouteTarget CoverageState)[target]? = _ at found
    rw [ExtTreeMap.getElem?_empty] at found
    cases found

theorem selects_combine : (combine contributions).Selects relay target ↔
    ∃ c ∈ contributions, c.Selects relay target := by
  unfold Selects combine
  simp only [List.mem_flatMap]
  constructor
  · rintro ⟨d, ⟨c, here, listed⟩, selected⟩
    exact ⟨c, here, d, listed, selected⟩
  · rintro ⟨c, here, d, listed, selected⟩
    exact ⟨d, ⟨c, here, listed⟩, selected⟩

theorem covered_combine : Covered (combine contributions).coverage relay target ↔
    ∃ c ∈ contributions, Covered c.coverage relay target := by
  simp only [covered_iff, combine_coverage, has_mergeStates, statesOf, List.mem_filterMap]
  constructor
  · rintro (⟨before, found, -⟩ | ⟨state, ⟨c, here, found⟩, has⟩)
    · cases found
    · exact ⟨c, here, state, found, has⟩
  · rintro ⟨c, here, state, found, has⟩
    exact .inr ⟨state, ⟨c, here, found⟩, has⟩

theorem exact_combine (exact : ∀ c ∈ contributions, c.Exact) : (combine contributions).Exact := by
  intro relay target
  rw [selects_combine, covered_combine]
  exact exists_congr fun c => and_congr_right fun here => exact c here relay target

theorem Exact.completeTarget (exact : c.Exact) : (completeTarget allAnswered c other).Exact := by
  intro relay target
  unfold Routing.completeTarget
  split
  · exact exact relay target
  · rename_i absent
    have nothing (state : CoverageState) (without : ¬state.Has relay) :
        Covered (c.coverage.insert other state) relay target ↔ Covered c.coverage relay target := by
      rw [covered_iff, covered_iff, BTreeMap.find_insert]
      by_cases here : other = target
      · subst here
        rw [if_pos rfl]
        refine iff_of_false ?_ ?_
        · rintro ⟨merged, same, has⟩
          cases same
          exact without has
        · rintro ⟨before, found, -⟩
          refine absent (ExtTreeMap.contains_iff_mem.mpr ?_)
          exact ExtTreeMap.mem_iff_isSome_getElem?.mpr (Option.isSome_of_eq_some found)
      · rw [if_neg here]
    split
    · exact (exact relay target).trans (nothing .settledAbsent id).symm
    · exact (exact relay target).trans (nothing .unresolved id).symm

theorem Exact.completeTargets (exact : c.Exact) : (completeTargets c targets allAnswered).Exact := by
  unfold Routing.completeTargets
  induction targets.toList generalizing c with
  | nil => exact exact
  | cons target rest ih => exact ih exact.completeTarget

end RouteContribution

theorem covered_coverDestination : Covered (coverDestination coverage d) relay target ↔
    Covered coverage relay target ∨ d.session = relay ∧ target ∈ d.targets := by
  rw [covered_iff, covered_iff, find_coverDestination]
  by_cases inside : target ∈ d.targets
  · have alone : (CoverageState.covered {d.session}).Has relay ↔ d.session = relay := by
      change relay ∈ ({d.session} : BTreeSet RelayUrl) ↔ _
      rw [BTreeSet.mem_singleton, eq_comm]
    rw [if_pos inside, and_iff_left inside, ← alone, ← has_mergeEntry]
    simp
  · rw [if_neg inside]
    simp [inside]

theorem covered_coverDestinations : Covered (destinations.foldl coverDestination coverage) relay target ↔
    Covered coverage relay target ∨ ∃ d ∈ destinations, d.session = relay ∧ target ∈ d.targets := by
  induction destinations generalizing coverage with
  | nil => simp
  | cons d rest ih =>
    rw [List.foldl_cons, ih, covered_coverDestination, or_assoc, List.exists_mem_cons_iff]

theorem planned_planDestination :
    (∃ p, (planDestination planned d)[relay]? = some p ∧ target ∈ p.targets) ↔
      (∃ p, planned[relay]? = some p ∧ target ∈ p.targets) ∨ d.session = relay ∧ target ∈ d.targets := by
  rw [find_planDestination]
  by_cases here : d.session = relay
  · rw [if_pos here, and_iff_right here]
    simp only [Option.some.injEq, exists_eq_left', PlannedRelay.add, ExtTreeSet.mem_union_iff]
    refine or_congr ?_ Iff.rfl
    cases planned[relay]? with
    | none => simp
    | some p => simp
  · rw [if_neg here]
    simp [here]

theorem planned_planDestinations :
    (∃ p, (destinations.foldl planDestination planned)[relay]? = some p ∧ target ∈ p.targets) ↔
      (∃ p, planned[relay]? = some p ∧ target ∈ p.targets) ∨
        ∃ d ∈ destinations, d.session = relay ∧ target ∈ d.targets := by
  induction destinations generalizing planned with
  | nil => simp
  | cons d rest ih =>
    rw [List.foldl_cons, ih, planned_planDestination, or_assoc, List.exists_mem_cons_iff]

/-- The plan of a contribution plans what the contribution selects. -/
theorem plans_iff (made : RoutePlan.fromContribution revision c = .ok plan) :
    plan.Plans relay target ↔ c.Selects relay target := by
  obtain ⟨-, rfl⟩ := fromContribution_eq_ok made
  refine planned_planDestinations.trans (or_iff_right ?_)
  rintro ⟨p, found, -⟩
  rw [ExtTreeMap.getElem?_empty] at found
  cases found

theorem exact_fromContribution (made : RoutePlan.fromContribution revision c = .ok plan)
    (exact : c.Exact) : plan.Exact := by
  intro relay target
  rw [plans_iff made]
  obtain ⟨-, rfl⟩ := fromContribution_eq_ok made
  refine Iff.trans ?_ covered_coverDestinations.symm
  rw [← exact relay target]
  exact (or_self_iff).symm

/-- A plan for relays that the application selects. -/
def RoutePlan.explicit (relays : List RelayUrl) (targets : BTreeSet RouteTarget) :
    Except RouterError RoutePlan :=
  RoutePlan.fromContribution 1
    { destinations := relays.map fun relay => ⟨relay, targets, "explicit", "application-selected relay"⟩
      coverage := ∅
      unresolved := ∅
      shortfalls := [] }

/-- It plans these relays, and no others, for every target. -/
theorem explicit_exact {relays : List RelayUrl} (made : RoutePlan.explicit relays targets = .ok plan) :
    plan.Exact ∧ ∀ relay target, plan.Plans relay target ↔ relay ∈ relays ∧ target ∈ targets := by
  have selects (relay : RelayUrl) (target : RouteTarget) : plan.Plans relay target ↔
      relay ∈ relays ∧ target ∈ targets := by
    rw [plans_iff made]
    simp [RouteContribution.Selects]
  refine ⟨fun relay target => ?_, selects⟩
  rw [plans_iff made]
  obtain ⟨-, rfl⟩ := fromContribution_eq_ok made
  refine Iff.trans ?_ covered_coverDestinations.symm
  refine (or_iff_right ?_).symm
  rintro ⟨relays, found, -⟩
  rw [ExtTreeMap.getElem?_empty] at found
  cases found

end Fava.Routing
