import Fava.Queries.Binding
import Fava.Routing.Absence

namespace Fava.Routing

open Std Fava.Lib Fava.Nostr Fava.Relay Fava.Queries Fava.Write

/-- Where a query's events are asked for. -/
inductive QueryAcquisition
  | automatic
  | explicit (relays : BTreeSet RelayUrl)

/-- A query as a router declares it. -/
structure DeclaredQuery where
  query : Query
  acquisition : QueryAcquisition
  freshness : Freshness

/-- The authority that a request is to be served under. -/
def RouteRequest.access : RouteRequest → Authority
  | .read query => query.access
  | .write _ access => access

/-- What a router knows of one target. -/
inductive Answer
  | unknown
  | absent
  | relays (relays : BTreeSet RelayUrl) (reason : String)

/-- A target that a router does not look at is left out. -/
def answerTarget (answer : RouteTarget → Option Answer) (c : RouteContribution)
    (target : RouteTarget) : RouteContribution :=
  match answer target with
  | none => c
  | some .absent => { c with coverage := c.coverage.insert target .settledAbsent }
  | some .unknown =>
    { c with
      coverage := c.coverage.insert target .unresolved
      unresolved := c.unresolved.insert target }
  | some (.relays relays reason) =>
    if relays.isEmpty then { c with coverage := c.coverage.insert target .settledAbsent }
    else
      { c with
        coverage := c.coverage.insert target (.covered relays)
        destinations := c.destinations ++ relays.toList.map fun session =>
          ⟨session, {target}, "", reason⟩ }

/-- What a router contributes that answers each target by itself. -/
def answerTargets (answer : RouteTarget → Option Answer) (targets : BTreeSet RouteTarget)
    (shortfalls : List String) : RouteContribution :=
  targets.toList.foldl (answerTarget answer) ⟨[], ∅, ∅, shortfalls⟩

/-- What an answer says of the coverage of its target. -/
def Answer.state : Answer → CoverageState
  | .unknown => .unresolved
  | .absent => .settledAbsent
  | .relays sessions _ => if sessions.isEmpty then .settledAbsent else .covered sessions

/-- A contribution selects a relay for a target. -/
def RouteContribution.Selects (c : RouteContribution) (relay : RelayUrl) (target : RouteTarget) : Prop :=
  ∃ d ∈ c.destinations, d.session = relay ∧ target ∈ d.targets

/-- Coverage has a relay cover a target. -/
def Covered (coverage : BTreeMap RouteTarget CoverageState) (relay : RelayUrl) (target : RouteTarget) :
    Prop :=
  ∃ relays, coverage[target]? = some (.covered relays) ∧ relay ∈ relays

/-- A contribution has those relays cover a target that it selects for it. -/
def RouteContribution.Exact (c : RouteContribution) : Prop :=
  ∀ relay target, c.Selects relay target ↔ Covered c.coverage relay target

variable {answer : RouteTarget → Option Answer} {c : RouteContribution} {target other : RouteTarget}
  {targets : BTreeSet RouteTarget} {shortfalls : List String} {d : RouteDestination} {relay : RelayUrl}
  {listed : List RouteTarget}

theorem answerTarget_coverage : (answerTarget answer c target).coverage[other]? =
    if target = other then ((answer target).map Answer.state).or c.coverage[other]?
    else c.coverage[other]? := by
  by_cases here : target = other
  · subst here
    rw [if_pos rfl]
    unfold answerTarget
    cases is : answer target with
    | none => rfl
    | some known =>
      cases known with
      | unknown =>
        change (c.coverage.insert target .unresolved)[target]? = _
        exact BTreeMap.find_insert_self
      | absent =>
        change (c.coverage.insert target .settledAbsent)[target]? = _
        exact BTreeMap.find_insert_self
      | relays relays reason =>
        dsimp only [Option.map_some, Answer.state]
        split <;> exact BTreeMap.find_insert_self
  · rw [if_neg here]
    unfold answerTarget
    split
    · rfl
    · exact BTreeMap.find_insert_of_ne here
    · exact BTreeMap.find_insert_of_ne here
    · split <;> exact BTreeMap.find_insert_of_ne here

theorem answerTargets_coverage : (answerTargets answer targets shortfalls).coverage[other]? =
    if other ∈ targets then (answer other).map Answer.state else none := by
  suffices from_entry : ∀ (listed : List RouteTarget) (c : RouteContribution),
      (listed.foldl (answerTarget answer) c).coverage[other]? =
        if other ∈ listed then ((answer other).map Answer.state).or c.coverage[other]?
        else c.coverage[other]? from by
    unfold answerTargets
    rw [from_entry, ExtTreeMap.getElem?_empty, Option.or_none]
    exact if_congr ExtTreeSet.mem_toList rfl rfl
  intro listed
  induction listed with
  | nil => exact fun c => (if_neg List.not_mem_nil).symm
  | cons target rest ih =>
    intro c
    rw [List.foldl_cons, ih, answerTarget_coverage]
    by_cases here : target = other
    · subst here
      rw [if_pos rfl, if_pos List.mem_cons_self, ← Option.or_assoc, Option.or_self, ite_self]
    · rw [if_neg here]
      refine if_congr ?_ rfl rfl
      rw [List.mem_cons, or_iff_right (Ne.symm here)]

theorem mem_answerTarget_destinations : d ∈ (answerTarget answer c target).destinations ↔
    d ∈ c.destinations ∨ ∃ relays reason, answer target = some (.relays relays reason) ∧
      ∃ relay ∈ relays, d = ⟨relay, {target}, "", reason⟩ := by
  unfold answerTarget
  cases is : answer target with
  | none => simp
  | some known =>
    cases known with
    | unknown => simp
    | absent => simp
    | relays relays reason =>
      dsimp only
      split
      · rename_i none
        constructor
        · exact .inl
        · rintro (before | ⟨relays', reason', same, relay, inside, -⟩)
          · exact before
          · cases same
            exact absurd inside (BTreeSet.isEmpty_iff.mp none relay)
      · rw [List.mem_append, List.mem_map]
        refine or_congr Iff.rfl ⟨?_, ?_⟩
        · rintro ⟨relay, inside, rfl⟩
          exact ⟨relays, reason, rfl, relay, ExtTreeSet.mem_toList.mp inside, rfl⟩
        · rintro ⟨relays', reason', same, relay, inside, rfl⟩
          cases same
          exact ⟨relay, ExtTreeSet.mem_toList.mpr inside, rfl⟩

/-- The destinations of a contribution are the relays of its answers, each for its target. -/
theorem mem_answerTargets_destinations : d ∈ (answerTargets answer targets shortfalls).destinations ↔
    ∃ target ∈ targets, ∃ relays reason, answer target = some (.relays relays reason) ∧
      ∃ relay ∈ relays, d = ⟨relay, {target}, "", reason⟩ := by
  suffices from_entry : ∀ (listed : List RouteTarget) (c : RouteContribution),
      d ∈ (listed.foldl (answerTarget answer) c).destinations ↔ d ∈ c.destinations ∨
        ∃ target ∈ listed, ∃ relays reason, answer target = some (.relays relays reason) ∧
          ∃ relay ∈ relays, d = ⟨relay, {target}, "", reason⟩ from by
    unfold answerTargets
    rw [from_entry, or_iff_right List.not_mem_nil]
    simp only [ExtTreeSet.mem_toList]
  intro listed
  induction listed with
  | nil => simp
  | cons target rest ih =>
    intro c
    rw [List.foldl_cons, ih, mem_answerTarget_destinations, or_assoc, List.exists_mem_cons_iff]

theorem selects_answerTargets : (answerTargets answer targets shortfalls).Selects relay target ↔
    target ∈ targets ∧ ∃ relays reason, answer target = some (.relays relays reason) ∧
      relay ∈ relays := by
  constructor
  · rintro ⟨d, selected, rfl, inside⟩
    obtain ⟨of, known, relays, reason, is, relay, there, rfl⟩ :=
      mem_answerTargets_destinations.mp selected
    obtain rfl := BTreeSet.mem_singleton.mp inside
    exact ⟨known, relays, reason, is, there⟩
  · rintro ⟨known, relays, reason, is, there⟩
    exact ⟨_, mem_answerTargets_destinations.mpr ⟨target, known, relays, reason, is, relay, there, rfl⟩,
      rfl, BTreeSet.mem_singleton.mpr rfl⟩

/-- A router that answers each target by itself selects what it has cover the target. -/
theorem answerTargets_exact : (answerTargets answer targets shortfalls).Exact := by
  intro relay target
  rw [selects_answerTargets]
  constructor
  · rintro ⟨known, relays, reason, is, there⟩
    refine ⟨relays, ?_, there⟩
    rw [answerTargets_coverage, if_pos known, is, Option.map_some, Answer.state, if_neg]
    exact fun none => BTreeSet.isEmpty_iff.mp none relay there
  · rintro ⟨relays, covered, inside⟩
    rw [answerTargets_coverage, Option.ite_none_right_eq_some] at covered
    obtain ⟨known, covered⟩ := covered
    obtain ⟨said, is, covered⟩ := Option.map_eq_some_iff.mp covered
    cases said with
    | unknown => cases covered
    | absent => cases covered
    | relays others reason =>
      change (if others.isEmpty then CoverageState.settledAbsent else .covered others) = _ at covered
      split at covered
      · cases covered
      · cases covered
        exact ⟨known, relays, reason, is, inside⟩

end Fava.Routing
