import Fava.Routing.Absence

namespace Fava.Routing

open Std Fava.Lib Fava.Nostr Fava.Relay Fava.Queries Fava.Write

variable {c : RouteContribution} {label : String} {actual maximum : Nat} {state : CoverageState}

theorem bounded_eq_ok {u : Unit} : bounded label actual maximum = .ok u ↔ actual ≤ maximum := by
  unfold bounded
  split
  · rename_i beyond
    exact iff_of_false nofun (Nat.not_le_of_lt beyond)
  · rename_i within
    exact iff_of_true rfl (Nat.le_of_not_lt within)

/-- A state names no more relays than may cover a target. -/
def Covers (state : CoverageState) : Prop :=
  ∀ relays, state = .covered relays → relays.size ≤ maxCoveredSessions

/-- The relays that cover a target are counted, and nothing else of a state is. -/
theorem coverage_eq_ok (state : CoverageState) : (match state with
    | .covered sessions => bounded "covered relay sessions" sessions.size maxCoveredSessions
    | _ => .ok ()) = .ok () ↔ Covers state := by
  cases state with
  | covered sessions =>
    refine bounded_eq_ok.trans ⟨?_, fun covers => covers sessions rfl⟩
    rintro within _ is
    cases is
    exact within
  | unresolved | settledAbsent => exact iff_of_true rfl fun _ is => by cases is

theorem validateBounds_eq_ok :
    c.validateBounds = .ok () ↔ c.sessions.size ≤ maxDestinations ∧
      (∀ d ∈ c.destinations, d.reason.utf8ByteSize ≤ maxTextBytes) ∧
      (∀ state ∈ c.coverage.values, Covers state) ∧
      ∀ shortfall ∈ c.shortfalls, shortfall.utf8ByteSize ≤ maxTextBytes := by
  unfold RouteContribution.validateBounds
  simp only [bind_eq_ok, forM_eq_ok, bounded_eq_ok]
  constructor
  · rintro ⟨_, sessions, _, reasons, _, coverage, shortfalls⟩
    exact ⟨sessions, reasons, fun state listed => (coverage_eq_ok state).mp (coverage state listed),
      shortfalls⟩
  · rintro ⟨sessions, reasons, coverage, shortfalls⟩
    exact ⟨(), sessions, (), reasons, (),
      fun state listed => (coverage_eq_ok state).mpr (coverage state listed), shortfalls⟩

/-- Whatever is said beside it, a contribution is within its bounds if what is said is. -/
theorem validateBounds_of_shortfalls {shortfalls : List String} (within : c.validateBounds = .ok ())
    (short : ∀ shortfall ∈ shortfalls, shortfall.utf8ByteSize ≤ maxTextBytes) :
    { c with shortfalls := shortfalls }.validateBounds = .ok () := by
  obtain ⟨sessions, reasons, coverage, -⟩ := validateBounds_eq_ok.mp within
  exact validateBounds_eq_ok.mpr ⟨sessions, reasons, coverage, short⟩

theorem boundedError_fits {router text : String} {error : RouterError}
    (recorded : boundedError router error = some text) : text.utf8ByteSize ≤ maxTextBytes := by
  obtain ⟨kept, cut, rfl⟩ := Option.map_eq_some_iff.mp recorded
  rw [String.utf8ByteSize_ofList]
  exact (prefix_of_cutAt cut).2.1

/-- A failure that is short enough is recorded in its own words. -/
theorem boundedError_of_short {router : String} {error : RouterError}
    (short : (router ++ ": " ++ error.text).utf8ByteSize ≤ maxTextBytes) :
    boundedError router error = some (router ++ ": " ++ error.text) := by
  have fits : String.utf8Len (router ++ ": " ++ error.text).toList ≤ maxTextBytes := by
    rw [← String.utf8ByteSize_ofList, String.ofList_toList]
    exact short
  unfold boundedError truncateText
  rw [cutAt_of_le fits, Option.map_some, String.ofList_toList]

theorem validateBounds_of_crowded (many : maxDestinations < c.sessions.size) :
    c.validateBounds = .error (.refused ("route destinations exceed bound: " ++
      toString c.sessions.size ++ " > " ++ toString maxDestinations)) := by
  unfold RouteContribution.validateBounds bounded
  rw [if_pos many]
  rfl

theorem shortfallBound_fits {discarded : Nat} (word : discarded < 2 ^ 64) :
    (Composer.shortfallBound discarded).utf8ByteSize ≤ maxTextBytes := by
  have first := utf8ByteSize_toString_le word
  have second : (toString maxShortfalls).utf8ByteSize ≤ 80 := utf8ByteSize_toString_le (by decide)
  have words : "chain: ".utf8ByteSize +
      " further route shortfalls discarded beyond the ".utf8ByteSize + "-entry bound".utf8ByteSize = 66 := by
    decide
  unfold Composer.shortfallBound maxTextBytes
  simp only [String.utf8ByteSize_append]
  omega

/-- No target is covered by more relays than may be. -/
def Uncrowded (c : RouteContribution) : Prop :=
  ∀ (target : RouteTarget) (state : CoverageState), c.coverage[target]? = some state → Covers state

theorem completeTarget_uncrowded {allAnswered : Bool} {target : RouteTarget}
    (uncrowded : Uncrowded c) : Uncrowded (completeTarget allAnswered c target) := by
  have inserted {state : CoverageState} (covers : Covers state) (other : RouteTarget)
      (found : CoverageState) (here : (c.coverage.insert target state)[other]? = some found) :
      Covers found := by
    rw [BTreeMap.find_insert] at here
    split at here
    · cases here
      exact covers
    · exact uncrowded other found here
  unfold completeTarget
  split
  · exact uncrowded
  · split
    · exact inserted nofun
    · exact inserted nofun

theorem completeTargets_uncrowded {allAnswered : Bool} {targets : BTreeSet RouteTarget}
    (uncrowded : Uncrowded c) : Uncrowded (completeTargets c targets allAnswered) := by
  unfold completeTargets
  induction targets.toList generalizing c with
  | nil => exact uncrowded
  | cons target rest ih => exact ih (completeTarget_uncrowded uncrowded)

theorem completeTargets_shortfalls {allAnswered : Bool} {targets : BTreeSet RouteTarget} :
    (completeTargets c targets allAnswered).shortfalls = c.shortfalls := by
  unfold completeTargets
  induction targets.toList generalizing c with
  | nil => rfl
  | cons other rest ih =>
    rw [List.foldl_cons, ih, completeTarget]
    split
    · rfl
    · split <;> rfl

/-- A contribution that covers nothing and has no shortfalls, for reasons that are short. -/
structure Plain (c : RouteContribution) : Prop where
  reasons : ∀ d ∈ c.destinations, d.reason.utf8ByteSize ≤ maxTextBytes
  coverage : c.coverage = ∅
  shortfalls : c.shortfalls = []

theorem plain_none : Plain .none := ⟨fun _ listed => absurd listed List.not_mem_nil, rfl, rfl⟩

/-- What counts for contributions that cover nothing is how many relays they name. -/
theorem validateBounds_of_plain {contributions : List RouteContribution} {allAnswered : Bool}
    {targets : BTreeSet RouteTarget} (plain : ∀ c ∈ contributions, Plain c) :
    (completeTargets (combine contributions) targets allAnswered).validateBounds = .ok () ↔
      (combine contributions).sessions.size ≤ maxDestinations := by
  have uncovered (target : RouteTarget) : (combine contributions).coverage[target]? = none := by
    rw [combine_coverage]
    have nothing : statesOf target contributions = [] := by
      refine List.filterMap_eq_nil_iff.mpr fun c listed => ?_
      rw [(plain c listed).coverage]
      exact ExtTreeMap.getElem?_empty
    rw [nothing]
    rfl
  have uncrowded : Uncrowded (completeTargets (combine contributions) targets allAnswered) := by
    refine completeTargets_uncrowded fun target state found => ?_
    rw [uncovered target] at found
    cases found
  have silent : (combine contributions).shortfalls = [] :=
    List.flatMap_eq_nil_iff.mpr fun c listed => (plain c listed).shortfalls
  have sessions : (completeTargets (combine contributions) targets allAnswered).sessions =
      (combine contributions).sessions := by
    unfold RouteContribution.sessions
    rw [completeTargets_destinations]
  rw [validateBounds_eq_ok, completeTargets_destinations, completeTargets_shortfalls, silent, sessions]
  refine ⟨And.left, fun within => ⟨within, ?_, ?_, ?_⟩⟩
  · intro d listed
    obtain ⟨c, here, listed⟩ := List.mem_flatMap.mp listed
    exact (plain c here).reasons d listed
  · intro state listed
    obtain ⟨target, entry⟩ := BTreeMap.mem_values.mp listed
    exact uncrowded target state entry
  · exact fun _ listed => absurd listed List.not_mem_nil

namespace Composer

variable {C : Composer} {index : Nat} {router : String}
  {result : Except RouterError RouteContribution}

/-- The whole is within its bounds, and so is what was recorded beside it. -/
structure Sound (C : Composer) : Prop where
  merged : C.merged.validateBounds = .ok ()
  shortfalls : ∀ shortfall ∈ C.shortfalls, shortfall.utf8ByteSize ≤ maxTextBytes
  discarded : C.discarded < 2 ^ 64

theorem sound_new {routers : Nat} {targets : BTreeSet RouteTarget} : (new routers targets).Sound := by
  refine ⟨?_, fun _ listed => absurd listed List.not_mem_nil, Nat.two_pow_pos 64⟩
  refine (validateBounds_of_plain fun c listed => ?_).mpr ?_
  · rw [List.eq_of_mem_replicate listed]
    exact plain_none
  · have nothing : (combine (new routers targets).contributions).destinations = [] := by
      refine List.flatMap_eq_nil_iff.mpr fun c listed => ?_
      rw [List.eq_of_mem_replicate listed]
      rfl
    unfold RouteContribution.sessions
    rw [nothing]
    decide

theorem Sound.record {shortfall : String} (sound : C.Sound)
    (short : shortfall.utf8ByteSize ≤ maxTextBytes) : (C.record shortfall).Sound := by
  unfold Composer.record
  split
  · refine ⟨sound.merged, fun other listed => ?_, sound.discarded⟩
    obtain here | new := List.mem_append.mp listed
    · exact sound.shortfalls other here
    · exact List.mem_singleton.mp new ▸ short
  · refine ⟨sound.merged, sound.shortfalls, ?_⟩
    change min (C.discarded + 1) (2 ^ 64 - 1) < 2 ^ 64
    omega

theorem Sound.fail {error : RouterError} (sound : C.Sound) : (C.fail router error).Sound := by
  unfold Composer.fail
  split
  · rename_i recorded
    exact sound.record (boundedError_fits recorded)
  · exact ⟨sound.merged, sound.shortfalls, sound.discarded⟩

theorem Sound.take (sound : C.Sound) : (C.take index router result).Sound := by
  unfold Composer.take
  split
  · unfold accept
    split
    · rename_i fits
      exact ⟨fits, sound.shortfalls, sound.discarded⟩
    · exact sound.fail
  · exact sound.fail

theorem Sound.combined (sound : C.Sound) : C.combined.validateBounds = .ok () := by
  obtain ⟨-, -, -, merged⟩ := validateBounds_eq_ok.mp sound.merged
  have both : ∀ shortfall ∈ C.merged.shortfalls ++ C.shortfalls,
      shortfall.utf8ByteSize ≤ maxTextBytes := fun shortfall listed =>
    (List.mem_append.mp listed).elim (merged shortfall) (sound.shortfalls shortfall)
  have bounded {shortfalls : List String} {discarded : Nat}
      (short : ∀ shortfall ∈ shortfalls, shortfall.utf8ByteSize ≤ maxTextBytes)
      (word : discarded < 2 ^ 64) : ∀ shortfall ∈
        (if 0 < discarded then shortfalls ++ [shortfallBound discarded] else shortfalls),
          shortfall.utf8ByteSize ≤ maxTextBytes := by
    split
    · intro shortfall listed
      obtain here | new := List.mem_append.mp listed
      · exact short shortfall here
      · rw [List.mem_singleton.mp new]
        exact shortfallBound_fits word
    · exact short
  unfold Composer.combined
  by_cases full : maxShortfalls ≤ (C.merged.shortfalls ++ C.shortfalls).length
  · simp only [if_pos full]
    refine validateBounds_of_shortfalls sound.merged (bounded (fun shortfall listed =>
      both shortfall (List.mem_of_mem_take listed)) ?_)
    omega
  · simp only [if_neg full]
    exact validateBounds_of_shortfalls sound.merged (bounded both sound.discarded)

/-- What is within its bounds makes a plan. -/
theorem Sound.plan {revision : Nat} (sound : C.Sound) : C.plan revision =
    .ok
      { revision
        destinations := C.combined.destinations.foldl planDestination ∅
        coverage := C.combined.destinations.foldl coverDestination C.combined.coverage
        unresolved := C.combined.unresolved ∪ unresolvedTargets C.combined.coverage
        shortfalls := C.combined.shortfalls } := by
  unfold Composer.plan RoutePlan.fromContribution
  rw [sound.combined]
  rfl

end Composer

variable {Session : Type} {request : RouteRequest}

theorem previewAll_sound {C : Composer} {index : Nat}
    {inputs : List (Router Session × List QuerySnapshot)} (sound : C.Sound) :
    (previewAll request C index inputs).Sound := by
  induction inputs generalizing C index with
  | nil => exact sound
  | cons first rest ih => exact ih sound.take

end Fava.Routing
