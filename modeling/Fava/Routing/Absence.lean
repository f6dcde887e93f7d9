import Fava.Routing.FallbackRelays

namespace Fava.Routing

open Std Fava.Lib Fava.Nostr Fava.Relay Fava.Queries Fava.Write

variable {contributions : List RouteContribution} {c : RouteContribution} {target : RouteTarget}
  {state : CoverageState} {targets : BTreeSet RouteTarget} {allAnswered : Bool}
  {composer : Composer} {revision : Nat} {plan : RoutePlan}
  {coverage : BTreeMap RouteTarget CoverageState}

/-- What the contributions say of one target. -/
def statesOf (target : RouteTarget) (contributions : List RouteContribution) : List CoverageState :=
  contributions.filterMap (·.coverage[target]?)

/-- Merge what several routers say of one target. -/
def mergeStates (entry : Option CoverageState) (states : List CoverageState) : Option CoverageState :=
  states.foldl (fun entry state => some (mergeEntry state entry)) entry

theorem combine_coverage :
    (combine contributions).coverage[target]? = mergeStates none (statesOf target contributions) := by
  suffices from_entry : ∀ coverage : BTreeMap RouteTarget CoverageState,
      (contributions.foldl (fun coverage c =>
        BTreeMap.updateAll coverage (fun _ => mergeEntry) c.coverage.toList) coverage)[target]? =
          mergeStates coverage[target]? (statesOf target contributions) from by
    rw [combine, from_entry, ExtTreeMap.getElem?_empty]
  induction contributions with
  | nil => exact fun _ => rfl
  | cons c rest ih =>
    intro coverage
    rw [List.foldl_cons, ih, BTreeMap.find_updateAll_toList]
    simp only [statesOf, List.filterMap_cons]
    cases c.coverage[target]? <;> rfl

theorem completeTarget_coverage {other : RouteTarget} (found : c.coverage[target]? = some state) :
    (completeTarget allAnswered c other).coverage[target]? = some state := by
  unfold completeTarget
  split
  · exact found
  · rename_i absent
    have apart : other ≠ target := by
      rintro rfl
      refine absurd (ExtTreeMap.contains_iff_mem.mpr ?_) absent
      exact ExtTreeMap.mem_iff_isSome_getElem?.mpr (Option.isSome_of_eq_some found)
    split
    · exact (BTreeMap.find_insert_of_ne apart).trans found
    · exact (BTreeMap.find_insert_of_ne apart).trans found

/-- What a router says of a target stands. -/
theorem completeTargets_coverage (found : c.coverage[target]? = some state) :
    (completeTargets c targets allAnswered).coverage[target]? = some state := by
  unfold completeTargets
  induction targets.toList generalizing c with
  | nil => exact found
  | cons other rest ih => exact ih (completeTarget_coverage found)

theorem completeTargets_destinations :
    (completeTargets c targets allAnswered).destinations = c.destinations := by
  unfold completeTargets
  induction targets.toList generalizing c with
  | nil => rfl
  | cons other rest ih =>
    rw [List.foldl_cons, ih, completeTarget]
    split
    · rfl
    · split <;> rfl

theorem coverDestination_of_not_mem {d : RouteDestination} (away : target ∉ d.targets) :
    (coverDestination coverage d)[target]? = coverage[target]? := by
  unfold coverDestination
  rw [← ExtTreeSet.mem_toList] at away
  generalize d.targets.toList = listed at away ⊢
  induction listed generalizing coverage with
  | nil => rfl
  | cons other rest ih =>
    rw [List.mem_cons, not_or] at away
    rw [List.foldl_cons, ih away.2, BTreeMap.find_insert_of_ne (Ne.symm away.1)]

theorem coverDestinations_of_not_mem {destinations : List RouteDestination}
    (away : ∀ d ∈ destinations, target ∉ d.targets) :
    (destinations.foldl coverDestination coverage)[target]? = coverage[target]? := by
  induction destinations generalizing coverage with
  | nil => rfl
  | cons d rest ih =>
    rw [List.forall_mem_cons] at away
    rw [List.foldl_cons, ih away.2, coverDestination_of_not_mem away.1]

theorem mem_unresolvedTargets (found : coverage[target]? = some .unresolved) :
    target ∈ unresolvedTargets coverage := by
  rw [unresolvedTargets, ExtTreeSet.mem_ofList, List.contains_iff_mem, List.mem_map]
  refine ⟨(target, .unresolved), List.mem_filter.mpr ⟨?_, rfl⟩, rfl⟩
  exact ExtTreeMap.mem_toList_iff_getElem?_eq_some.mpr found

theorem fromContribution_eq_ok (h : RoutePlan.fromContribution revision c = .ok plan) :
    c.validateBounds = .ok () ∧ plan =
      { revision
        destinations := c.destinations.foldl planDestination ∅
        coverage := c.destinations.foldl coverDestination c.coverage
        unresolved := c.unresolved ∪ unresolvedTargets c.coverage
        shortfalls := c.shortfalls } := by
  obtain ⟨_, within, h⟩ := bind_eq_ok.mp h
  exact ⟨within, (Except.ok.inj h).symm⟩

/-- Where nothing covers a target, whatever is said of it merges to unresolved. -/
theorem mergeStates_uncovered {states : List CoverageState}
    (uncovered : ∀ state ∈ states, ∀ relays, state ≠ .covered relays) {entry : Option CoverageState}
    (start : entry = none ∨ entry = some .unresolved) :
    mergeStates entry states = if states = [] then entry else some .unresolved := by
  induction states generalizing entry with
  | nil => rfl
  | cons state rest ih =>
    rw [List.forall_mem_cons] at uncovered
    have next : mergeEntry state entry = .unresolved := by
      obtain rfl | rfl := start <;>
        cases state with
        | covered relays => exact absurd rfl (uncovered.1 relays)
        | unresolved => rfl
        | settledAbsent => rfl
    change mergeStates (some (mergeEntry state entry)) rest = _
    rw [next, ih uncovered.2 (.inr rfl), if_neg (List.cons_ne_nil state rest)]
    split <;> rfl

/-- An absence that a router reports is never what the routers make of it together, for the
entry it is merged into starts out unresolved. -/
theorem settled_absence_lost
    (reported : ∃ c ∈ composer.contributions, c.coverage[target]? = some .settledAbsent)
    (uncovered : ∀ c ∈ composer.contributions, ∀ relays, c.coverage[target]? ≠ some (.covered relays))
    (undestined : ∀ c ∈ composer.contributions, ∀ d ∈ c.destinations, target ∉ d.targets)
    (h : composer.plan revision = .ok plan) :
    plan.coverage[target]? = some .unresolved ∧ target ∈ plan.unresolved := by
  obtain ⟨c, here, said⟩ := reported
  have found : composer.combined.coverage[target]? = some .unresolved := by
    apply completeTargets_coverage
    have listed : CoverageState.settledAbsent ∈ statesOf target composer.contributions :=
      List.mem_filterMap.mpr ⟨c, here, said⟩
    rw [combine_coverage, mergeStates_uncovered ?_ (.inl rfl), if_neg (List.ne_nil_of_mem listed)]
    rintro state listed relays rfl
    obtain ⟨c, here, said⟩ := List.mem_filterMap.mp listed
    exact uncovered c here relays said
  obtain ⟨-, rfl⟩ := fromContribution_eq_ok h
  refine ⟨(coverDestinations_of_not_mem ?_).trans found, ?_⟩
  · intro d listed
    change d ∈ (completeTargets _ _ _).destinations at listed
    rw [completeTargets_destinations] at listed
    obtain ⟨c, here, listed⟩ := List.mem_flatMap.mp listed
    exact undestined c here d listed
  · rw [ExtTreeSet.mem_union_iff]
    exact .inr (mem_unresolvedTargets found)

section Samples

/-- A reader that makes nothing of a tag. -/
def noTags : TagReader := ⟨fun _ => none, fun _ => none⟩

/-- A write of one author, without tags. -/
def plainWrite : RouteRequest := .write (.unsigned ⟨some 9, 4, 20, 1, [], ""⟩) .unauthenticated

/-- A fallback without relays. -/
def emptyFallback : FallbackRelayRouter := ⟨"fallback", ∅, 1, true, true⟩

/-- A chain of one router, which has no relay for the author and says so: the plan still
waits for the author. -/
theorem reported_absence_stays_unresolved :
    let contributed := emptyFallback.contribution noTags plainWrite .none
    let planned := (preview noTags plainWrite [emptyFallback.router noTags] [[]]).bind Except.toOption
    (contributed.coverage.toList.map Prod.fst = [.author 4] ∧
        contributed.coverage.values.all (fun | .settledAbsent => true | _ => false) ∧
        contributed.destinations.length = 0 ∧ contributed.unresolved.toList = []) ∧
      (planned.map fun plan => (plan.unresolved.toList, plan.coverage.values.all isUnresolved)) =
        some ([.author 4], true) := by
  decide +kernel

/-- The composer of that chain. -/
def absentComposer : Composer :=
  (Composer.new 1 (plainWrite.targets noTags)).put 0 (emptyFallback.contribution noTags plainWrite .none)

theorem settled_absence_lost_fallback : ∃ plan, absentComposer.plan 1 = .ok plan ∧
    .author 4 ∈ plan.unresolved := by
  have only : ∀ c ∈ absentComposer.contributions,
      c = emptyFallback.contribution noTags plainWrite .none := fun _ => List.mem_singleton.mp
  have said : (emptyFallback.contribution noTags plainWrite .none).coverage[RouteTarget.author 4]? =
      some .settledAbsent := by
    have computed : ((emptyFallback.contribution noTags plainWrite .none).coverage[RouteTarget.author 4]?.any
        fun | .settledAbsent => true | _ => false) = true := by
      decide +kernel
    obtain ⟨state, found, is⟩ := (Option.any_eq_true _ _).mp computed
    rw [found]
    cases state <;> first | rfl | cases is
  have nowhere : (emptyFallback.contribution noTags plainWrite .none).destinations.length = 0 := by
    decide +kernel
  have computed : (absentComposer.plan 1).isOk = true := by
    decide +kernel
  obtain ⟨plan, h⟩ := isOk_iff.mp computed
  refine ⟨plan, h, (settled_absence_lost ⟨_, List.mem_singleton_self _, said⟩ ?_ ?_ h).2⟩
  · intro c here relays covered
    rw [only c here, said] at covered
    cases covered
  · intro d here e listed
    rw [only d here, List.length_eq_zero_iff.mp nowhere] at listed
    cases listed

end Samples

end Fava.Routing
