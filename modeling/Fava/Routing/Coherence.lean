import Fava.Routing.Bounds

namespace Fava.Routing

open Std Fava.Lib Fava.Nostr Fava.Relay Fava.Queries Fava.Write

/-- Every target of a destination is covered by its relay, and no relay is planned twice. -/
structure RoutePlan.Coherent (plan : RoutePlan) : Prop where
  covered : ∀ planned ∈ plan.destinations.values, ∀ target ∈ planned.targets,
    ∃ relays, plan.coverage[target]? = some (.covered relays) ∧ planned.session ∈ relays
  apart : (plan.destinations.values.map (·.session)).Nodup

/-- The same contributions put together in another order. -/
structure RouteContribution.Reordered (c c' : RouteContribution) : Prop where
  destinations : c.destinations.Perm c'.destinations
  coverage : c.coverage = c'.coverage
  unresolved : c.unresolved = c'.unresolved
  shortfalls : c.shortfalls.Perm c'.shortfalls

section Merging

variable {current incoming other : CoverageState} {entry : Option CoverageState}

theorem mergeCoverage_right_comm : mergeCoverage (mergeCoverage current incoming) other =
    mergeCoverage (mergeCoverage current other) incoming := by
  have union_comm (s t : BTreeSet RelayUrl) : s ∪ t = t ∪ s := by
    apply ExtTreeSet.ext_mem
    intro relay
    rw [ExtTreeSet.mem_union_iff, ExtTreeSet.mem_union_iff, or_comm]
  have union_right_comm (r s t : BTreeSet RelayUrl) : r ∪ s ∪ t = r ∪ t ∪ s := by
    apply ExtTreeSet.ext_mem
    intro relay
    simp only [ExtTreeSet.mem_union_iff, or_right_comm]
  cases current <;> cases incoming <;> cases other <;>
    first
      | rfl
      | exact congrArg CoverageState.covered (union_comm _ _)
      | exact congrArg CoverageState.covered (union_right_comm _ _ _)

theorem mergeEntry_right_comm : mergeEntry other (some (mergeEntry incoming entry)) =
    mergeEntry incoming (some (mergeEntry other entry)) := mergeCoverage_right_comm

/-- In whatever order the routers speak of a target, it comes to the same. -/
theorem mergeStates_perm {states states' : List CoverageState} (reordered : states.Perm states') :
    mergeStates entry states = mergeStates entry states' := by
  refine reordered.foldl_eq' (fun state _ other _ entry => ?_) entry
  exact congrArg some mergeEntry_right_comm

/-- A relay that covers a target goes on covering it, whatever is merged in. -/
theorem mergeEntry_covered (incoming : CoverageState) {relay : RelayUrl} {relays : BTreeSet RelayUrl} (inside : relay ∈ relays) :
    ∃ more, mergeEntry incoming (some (.covered relays)) = .covered more ∧ relay ∈ more := by
  cases incoming with
  | covered others => exact ⟨relays ∪ others, rfl, ExtTreeSet.mem_union_iff.mpr (.inl inside)⟩
  | unresolved => exact ⟨relays, rfl, inside⟩
  | settledAbsent => exact ⟨relays, rfl, inside⟩

theorem mergeEntry_self (relay : RelayUrl) (entry : Option CoverageState) :
    ∃ relays, mergeEntry (.covered {relay}) entry = .covered relays ∧ relay ∈ relays := by
  have alone : relay ∈ ({relay} : BTreeSet RelayUrl) := BTreeSet.mem_singleton.mpr rfl
  obtain _ | state := entry
  · exact ⟨_, rfl, alone⟩
  · cases state with
    | covered relays => exact ⟨relays ∪ {relay}, rfl, ExtTreeSet.mem_union_iff.mpr (.inr alone)⟩
    | unresolved => exact ⟨_, rfl, alone⟩
    | settledAbsent => exact ⟨_, rfl, alone⟩

end Merging

section Destinations

variable {d e : RouteDestination} {destinations destinations' : List RouteDestination}
  {coverage : BTreeMap RouteTarget CoverageState} {planned : BTreeMap RelayUrl PlannedRelay}
  {target : RouteTarget} {relay : RelayUrl} {p : PlannedRelay}

theorem find_coverDestination : (coverDestination coverage d)[target]? =
    if target ∈ d.targets then some (mergeEntry (.covered {d.session}) coverage[target]?)
    else coverage[target]? := by
  unfold coverDestination
  rw [BTreeMap.find_foldl_update BTreeSet.nodup_toList]
  exact if_congr ExtTreeSet.mem_toList rfl rfl

theorem coverDestination_right_comm : coverDestination (coverDestination coverage d) e =
    coverDestination (coverDestination coverage e) d := by
  apply ExtTreeMap.ext_getElem?
  intro target
  simp only [find_coverDestination]
  by_cases first : target ∈ d.targets
  · by_cases second : target ∈ e.targets
    · simp only [if_pos first, if_pos second, mergeEntry_right_comm]
    · simp only [if_pos first, if_neg second]
  · simp only [if_neg first]

/-- What a destination adds to the plan for its relay. -/
def PlannedRelay.add (p : PlannedRelay) (d : RouteDestination) : PlannedRelay :=
  { p with
    targets := p.targets ∪ d.targets
    reasons := p.reasons.insert ⟨d.router, d.reason⟩ }

theorem PlannedRelay.add_right_comm : (p.add d).add e = (p.add e).add d := by
  have targets : p.targets ∪ d.targets ∪ e.targets = p.targets ∪ e.targets ∪ d.targets := by
    apply ExtTreeSet.ext_mem
    intro target
    simp only [ExtTreeSet.mem_union_iff, or_right_comm]
  have reasons : (p.reasons.insert ⟨d.router, d.reason⟩).insert ⟨e.router, e.reason⟩ =
      (p.reasons.insert ⟨e.router, e.reason⟩).insert ⟨d.router, d.reason⟩ := by
    apply ExtTreeSet.ext_mem
    intro reason
    simp only [BTreeSet.mem_insert, or_left_comm]
  unfold add
  rw [targets, reasons]

theorem find_planDestination : (planDestination planned d)[relay]? =
    if d.session = relay then some ((planned[relay]?.getD ⟨relay, ∅, ∅⟩).add d)
    else planned[relay]? := by
  unfold planDestination
  rw [BTreeMap.find_insert]
  split
  · rename_i here
    rw [← here]
    rfl
  · rfl

theorem planDestination_right_comm : planDestination (planDestination planned d) e =
    planDestination (planDestination planned e) d := by
  apply ExtTreeMap.ext_getElem?
  intro relay
  simp only [find_planDestination]
  by_cases first : d.session = relay
  · by_cases second : e.session = relay
    · simp only [if_pos first, if_pos second, Option.getD_some, PlannedRelay.add_right_comm]
    · simp only [if_pos first, if_neg second]
  · simp only [if_neg first]

/-- The plan for a relay names the relay, and the relay covers what is planned for it. -/
def Placed (planned : BTreeMap RelayUrl PlannedRelay) (coverage : BTreeMap RouteTarget CoverageState) :
    Prop :=
  ∀ (relay : RelayUrl) (p : PlannedRelay), planned[relay]? = some p → p.session = relay ∧
    ∀ target ∈ p.targets, ∃ relays, coverage[target]? = some (.covered relays) ∧ relay ∈ relays

theorem placed_empty : Placed ∅ coverage := by
  intro relay p found
  rw [ExtTreeMap.getElem?_empty] at found
  cases found

theorem Placed.step (placed : Placed planned coverage) :
    Placed (planDestination planned d) (coverDestination coverage d) := by
  have kept {relay : RelayUrl} {target : RouteTarget}
      (covered : ∃ relays, coverage[target]? = some (.covered relays) ∧ relay ∈ relays) :
      ∃ relays, (coverDestination coverage d)[target]? = some (.covered relays) ∧ relay ∈ relays := by
    obtain ⟨relays, found, inside⟩ := covered
    rw [find_coverDestination, found]
    split
    · obtain ⟨more, merged, inside⟩ := mergeEntry_covered (.covered {d.session}) inside
      exact ⟨more, congrArg some merged, inside⟩
    · exact ⟨relays, rfl, inside⟩
  intro relay p found
  rw [find_planDestination] at found
  split at found
  · rename_i here
    subst here
    cases found
    have before : (planned[d.session]?.getD ⟨d.session, ∅, ∅⟩).session = d.session ∧
        ∀ target ∈ (planned[d.session]?.getD ⟨d.session, ∅, ∅⟩).targets,
          ∃ relays, coverage[target]? = some (.covered relays) ∧ d.session ∈ relays := by
      cases was : planned[d.session]? with
      | none => exact ⟨rfl, fun target inside => absurd inside ExtTreeSet.not_mem_empty⟩
      | some p => exact placed d.session p was
    refine ⟨before.1, fun target inside => ?_⟩
    obtain old | new := ExtTreeSet.mem_union_iff.mp inside
    · exact kept (before.2 target old)
    · obtain ⟨relays, merged, inside⟩ := mergeEntry_self d.session coverage[target]?
      rw [find_coverDestination, if_pos new]
      exact ⟨relays, congrArg some merged, inside⟩
  · obtain ⟨named, covered⟩ := placed relay p found
    exact ⟨named, fun target inside => kept (covered target inside)⟩

theorem Placed.run (placed : Placed planned coverage) :
    Placed (destinations.foldl planDestination planned) (destinations.foldl coverDestination coverage) := by
  induction destinations generalizing planned coverage with
  | nil => exact placed
  | cons d rest ih => exact ih placed.step

theorem Placed.apart (placed : Placed planned coverage) :
    (planned.values.map (·.session)).Nodup := by
  have keys : planned.values.map (·.session) = planned.toList.map Prod.fst := by
    rw [BTreeMap.values_eq, List.map_map]
    refine List.map_congr_left fun entry listed => ?_
    exact (placed entry.1 entry.2 (ExtTreeMap.mem_toList_iff_getElem?_eq_some.mp listed)).1
  rw [keys, ExtTreeMap.map_fst_toList_eq_keys]
  exact BTreeMap.nodup_keys

/-- What a destination asks for is in the plan for its relay. -/
def Kept (planned : BTreeMap RelayUrl PlannedRelay) (d : RouteDestination) : Prop :=
  ∃ p, planned[d.session]? = some p ∧ (∀ target ∈ d.targets, target ∈ p.targets) ∧
    ⟨d.router, d.reason⟩ ∈ p.reasons

theorem kept_planDestination : Kept (planDestination planned d) d := by
  refine ⟨_, find_planDestination.trans (if_pos rfl), fun target inside => ?_, ?_⟩
  · exact ExtTreeSet.mem_union_iff.mpr (.inr inside)
  · exact BTreeSet.mem_insert.mpr (.inl rfl)

theorem Kept.step (kept : Kept planned d) : Kept (planDestination planned e) d := by
  obtain ⟨p, found, targets, reasons⟩ := kept
  by_cases here : e.session = d.session
  · refine ⟨p.add e, ?_, fun target inside => ?_, ?_⟩
    · rw [find_planDestination, if_pos here, found, Option.getD_some]
    · exact ExtTreeSet.mem_union_iff.mpr (.inl (targets target inside))
    · exact BTreeSet.mem_insert.mpr (.inr reasons)
  · exact ⟨p, find_planDestination.trans ((if_neg here).trans found), targets, reasons⟩

theorem kept_run (known : d ∈ destinations ∨ Kept planned d) :
    Kept (destinations.foldl planDestination planned) d := by
  induction destinations generalizing planned with
  | nil => exact known.resolve_left List.not_mem_nil
  | cons e rest ih =>
    refine ih ?_
    obtain listed | kept := known
    · obtain rfl | later := List.mem_cons.mp listed
      · exact .inr kept_planDestination
      · exact .inl later
    · exact .inr kept.step

end Destinations

section Reordering

variable {contributions contributions' : List RouteContribution} {c c' : RouteContribution}
  {targets : BTreeSet RouteTarget} {target : RouteTarget} {allAnswered : Bool} {revision : Nat}
  {plan : RoutePlan}

theorem combine_reordered (reordered : contributions.Perm contributions') :
    (combine contributions).Reordered (combine contributions') where
  destinations := reordered.flatMap_right _
  coverage := by
    apply ExtTreeMap.ext_getElem?
    intro target
    rw [combine_coverage, combine_coverage]
    exact mergeStates_perm (reordered.filterMap _)
  unresolved := by
    refine reordered.foldl_eq' (fun c _ d _ unresolved => ?_) ∅
    apply ExtTreeSet.ext_mem
    intro target
    simp only [ExtTreeSet.mem_union_iff, or_right_comm]
  shortfalls := reordered.flatMap_right _

theorem RouteContribution.Reordered.completeTarget (reordered : c.Reordered c') :
    (completeTarget allAnswered c target).Reordered (Routing.completeTarget allAnswered c' target) := by
  obtain ⟨destinations, coverage, unresolved, shortfalls⟩ := reordered
  unfold Routing.completeTarget
  rw [coverage, unresolved]
  split
  · exact ⟨destinations, coverage, unresolved, shortfalls⟩
  · split
    · exact ⟨destinations, rfl, rfl, shortfalls⟩
    · exact ⟨destinations, rfl, rfl, shortfalls⟩

theorem RouteContribution.Reordered.completeTargets (reordered : c.Reordered c') :
    (completeTargets c targets allAnswered).Reordered (Routing.completeTargets c' targets allAnswered) := by
  unfold Routing.completeTargets
  induction targets.toList generalizing c c' with
  | nil => exact reordered
  | cons target rest ih => exact ih reordered.completeTarget

/-- An order of its parts takes a contribution neither into its bounds nor out of them. -/
theorem RouteContribution.Reordered.validateBounds (reordered : c.Reordered c')
    (within : c.validateBounds = .ok ()) : c'.validateBounds = .ok () := by
  obtain ⟨sessions, reasons, coverage, shortfalls⟩ := validateBounds_eq_ok.mp within
  have same : c'.sessions = c.sessions := by
    apply ExtTreeSet.ext_mem
    intro relay
    unfold RouteContribution.sessions
    simp only [ExtTreeSet.mem_ofList, List.contains_iff_mem]
    exact (reordered.destinations.map _).symm.mem_iff
  refine validateBounds_eq_ok.mpr ⟨same ▸ sessions, fun d listed => ?_, ?_, fun shortfall listed => ?_⟩
  · exact reasons d (reordered.destinations.mem_iff.mpr listed)
  · exact reordered.coverage ▸ coverage
  · exact shortfalls shortfall (reordered.shortfalls.mem_iff.mpr listed)

/-- The same contributions in another order make the same plan, up to the order of what is
said of their shortfalls. -/
theorem RouteContribution.Reordered.fromContribution (reordered : c.Reordered c')
    (h : RoutePlan.fromContribution revision c = .ok plan) :
    ∃ plan', RoutePlan.fromContribution revision c' = .ok plan' ∧
      plan'.destinations = plan.destinations ∧ plan'.coverage = plan.coverage ∧
      plan'.unresolved = plan.unresolved := by
  obtain ⟨within, rfl⟩ := fromContribution_eq_ok h
  have made := reordered.validateBounds within
  refine ⟨_, by unfold RoutePlan.fromContribution; rw [made]; rfl, ?_, ?_, ?_⟩
  · exact reordered.destinations.symm.foldl_eq' (fun _ _ _ _ _ => planDestination_right_comm) ∅
  · change c'.destinations.foldl coverDestination c'.coverage = _
    rw [← reordered.coverage]
    exact reordered.destinations.symm.foldl_eq' (fun _ _ _ _ _ => coverDestination_right_comm) c.coverage
  · change c'.unresolved ∪ unresolvedTargets c'.coverage = _
    rw [← reordered.coverage, ← reordered.unresolved]

theorem fromContribution_coherent (h : RoutePlan.fromContribution revision c = .ok plan) :
    plan.Coherent := by
  obtain ⟨-, rfl⟩ := fromContribution_eq_ok h
  have placed : Placed (c.destinations.foldl planDestination ∅)
      (c.destinations.foldl coverDestination c.coverage) := placed_empty.run
  refine ⟨fun p listed target inside => ?_, placed.apart⟩
  obtain ⟨relay, found⟩ := BTreeMap.mem_values.mp listed
  obtain ⟨rfl, covered⟩ := placed relay p found
  exact covered target inside

/-- The plan of a combination covers what its destinations name, and does not depend on the
order of the contributions. Where there are no targets to complete, it is the plan of the
combination itself. -/
theorem combined_plan_coherent (reordered : contributions.Perm contributions')
    (h : RoutePlan.fromContribution revision
      (completeTargets (combine contributions) targets allAnswered) = .ok plan) :
    plan.Coherent ∧
      (∀ c ∈ contributions, ∀ d ∈ c.destinations, Kept plan.destinations d) ∧
      ∃ plan', RoutePlan.fromContribution revision
          (completeTargets (combine contributions') targets allAnswered) = .ok plan' ∧
        plan'.destinations = plan.destinations ∧ plan'.coverage = plan.coverage ∧
        plan'.unresolved = plan.unresolved := by
  refine ⟨fromContribution_coherent h, fun c here d listed => ?_,
    (combine_reordered reordered).completeTargets.fromContribution h⟩
  obtain ⟨-, rfl⟩ := fromContribution_eq_ok h
  refine kept_run (.inl ?_)
  rw [completeTargets_destinations]
  exact List.mem_flatMap.mpr ⟨c, here, listed⟩

example : completeTargets c ∅ allAnswered = c := rfl

end Reordering

section Samples

/-- One router has the author at a relay. -/
def firstRelay : RouteContribution :=
  ⟨[⟨"wss://a.example/", {.author 4}, "outbox", "listed"⟩], .constant [.author 4] .unresolved, {.author 4}, []⟩

/-- Another one has the author and an event at two. -/
def otherRelays : RouteContribution :=
  ⟨[⟨"wss://b.example/", {.author 4}, "hints", "named"⟩,
      ⟨"wss://a.example/", {.referencedEvent 7}, "hints", "named"⟩],
    .constant [.author 4] (.covered {"wss://b.example/"}), ∅, []⟩

theorem swapped_plan_coherent : ∃ plan plan',
    RoutePlan.fromContribution 1 (completeTargets (combine [firstRelay, otherRelays])
        {.author 4, .referencedEvent 7} true) = .ok plan ∧
      RoutePlan.fromContribution 1 (completeTargets (combine [otherRelays, firstRelay])
        {.author 4, .referencedEvent 7} true) = .ok plan' ∧
      plan.Coherent ∧ plan'.destinations = plan.destinations ∧ plan'.coverage = plan.coverage ∧
      plan'.unresolved = plan.unresolved := by
  have computed : (RoutePlan.fromContribution 1 (completeTargets (combine [firstRelay, otherRelays])
      {.author 4, .referencedEvent 7} true)).isOk = true := by
    decide +kernel
  obtain ⟨plan, h⟩ := isOk_iff.mp computed
  obtain ⟨coherent, -, plan', h', same⟩ := combined_plan_coherent (.swap otherRelays firstRelay []) h
  exact ⟨plan, plan', h, h', coherent, same⟩

end Samples

end Fava.Routing
