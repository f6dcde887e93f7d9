import Fava.WriteStore.Memory.Bounds

namespace Fava.WriteStore.Memory

open Std Fava.Lib Fava.Nostr Fava.Relay Fava.Routing Fava.Write

variable {N : Library} {receipt routed candidate : Receipt} {plan : RoutePlan}

/-- What settling makes of the outcome is decided by what it keeps. -/
theorem outcome_settleRoute_congr {first second : Receipt}
    (settled : first.routeSettled = second.routeSettled)
    (desired : first.desiredDestinations = second.desiredDestinations)
    (lanes : first.destinations = second.destinations) :
    (settleRoute first).outcome = (settleRoute second).outcome := by
  have terminal : first.allTerminal = second.allTerminal := by
    rw [Receipt.allTerminal, Receipt.allTerminal, lanes]
  unfold settleRoute
  rw [settled, desired, terminal]
  split
  · rfl
  · split <;> rfl

/-- Two receipts that take the same newer plan agree on all that the plan says itself. -/
theorem applyNewer_agree {other : Receipt} (applied : applyNewerRouteToReceipt N receipt plan = .ok routed)
    (also : applyNewerRouteToReceipt N other plan = .ok candidate) :
    candidate.routeRevision = routed.routeRevision ∧ candidate.routeSettled = routed.routeSettled ∧
    candidate.routeShortfalls = routed.routeShortfalls ∧
    candidate.desiredDestinations = routed.desiredDestinations ∧
    (candidate.destinations = routed.destinations → candidate.outcome = routed.outcome) := by
  obtain ⟨_, -, applied⟩ := bind_eq_ok.mp applied
  obtain ⟨_, -, also⟩ := bind_eq_ok.mp also
  obtain rfl := Except.ok.inj applied
  obtain rfl := Except.ok.inj also
  have frame : ∀ receipt : Receipt, (settleRoute receipt).routeRevision = receipt.routeRevision ∧
      (settleRoute receipt).routeShortfalls = receipt.routeShortfalls := by
    intro receipt
    unfold settleRoute
    split
    · exact ⟨rfl, rfl⟩
    · split <;> exact ⟨rfl, rfl⟩
  simp only [frame, settleRoute_keeps, true_and]
  exact outcome_settleRoute_congr rfl rfl

/-- A plan of another revision than the last is applied, not compared. -/
theorem newer_of_applyRoute (applied : applyRouteToReceipt N receipt plan = .ok routed)
    (fresh : plan.revision ≠ receipt.routeRevision) :
    receipt.routing = .automatic ∧ receipt.routeRevision < plan.revision ∧
      applyNewerRouteToReceipt N receipt plan = .ok routed := by
  unfold applyRouteToReceipt at applied
  split_ifs at applied with explicit stale
  exact ⟨not_not.mp explicit, Nat.lt_of_le_of_ne (Nat.le_of_not_lt stale) fresh.symm, applied⟩

/-- Nothing of a receipt outlives the plan but lanes that the plan opens itself: every lane
still waits for its first attempt, and is planned or withdrawn with what was counted for it. -/
structure Untried (receipt : Receipt) (plan : RoutePlan) : Prop where
  lanes : ∀ (session : RelayUrl) (outcome : RelayDeliveryOutcome),
    receipt.destinations[session]? = some outcome → outcome = .pending ∧
      (session ∈ plan.destinations ∨ session ∈ receipt.desiredDestinations)
  attempts : ∀ session ∈ receipt.attempts, receipt.destinations[session]? = some .pending ∧
    session ∈ receipt.desiredDestinations ∧ session ∉ plan.destinations

/-- The lanes that a plan gives a receipt without any. -/
theorem applyNewer_unrouted (also : applyNewerRouteToReceipt N (unrouted receipt) plan = .ok candidate) :
    candidate.attempts = ∅ ∧ ∀ session : RelayUrl, candidate.destinations[session]? =
      if session ∈ plan.destinations then some .pending else none := by
  constructor
  · refine ExtTreeMap.eq_empty_iff_forall_not_mem.mpr fun session counted => ?_
    exact ExtTreeMap.not_mem_empty ((mem_attempts_applyNewer also).mp counted).1
  · intro session
    have blank : (unrouted receipt).destinations[session]? = none := ExtTreeMap.getElem?_empty
    have unwanted : session ∉ (unrouted receipt).desiredDestinations := ExtTreeSet.not_mem_empty
    rw [(applyNewer_lanes also).2, blank, if_neg unwanted]
    rfl

/-- The lanes a newer plan leaves are its own exactly if no lane was tried before. -/
theorem lanes_eq_iff (applied : applyNewerRouteToReceipt N receipt plan = .ok routed)
    (also : applyNewerRouteToReceipt N (unrouted receipt) plan = .ok candidate) :
    candidate.attempts = routed.attempts ∧ candidate.destinations = routed.destinations ↔
      Untried receipt plan := by
  obtain ⟨none, opened⟩ := applyNewer_unrouted also
  have lanes := (applyNewer_lanes applied).2
  constructor
  · rintro ⟨counts, same⟩
    have own : ∀ session : RelayUrl, routed.destinations[session]? =
        if session ∈ plan.destinations then some .pending else Option.none := by
      intro session
      rw [← same]
      exact opened session
    refine ⟨fun session outcome found => ?_, fun session counted => ?_⟩
    · have after := own session
      rw [lanes session, found] at after
      by_cases planned : session ∈ plan.destinations
      · simp only [if_pos planned, Option.getD_some, Option.some.injEq] at after
        exact ⟨after, .inl planned⟩
      · simp only [if_neg planned] at after
        split at after
        · rename_i wanted
          refine ⟨?_, .inr wanted⟩
          cases outcome <;> first | rfl | cases after
        · cases after
    · -- A count that stays is one the candidate does not have.
      by_contra kept
      have still : session ∈ routed.attempts := by
        refine (mem_attempts_applyNewer applied).mpr ⟨counted, fun pending wanted => ?_⟩
        by_contra unplanned
        exact kept ⟨pending, wanted, unplanned⟩
      rw [← counts, none] at still
      exact ExtTreeMap.not_mem_empty still
  · intro untried
    constructor
    · rw [none]
      refine (ExtTreeMap.eq_empty_iff_forall_not_mem.mpr fun session counted => ?_).symm
      obtain ⟨before, planned⟩ := (mem_attempts_applyNewer applied).mp counted
      obtain ⟨pending, wanted, unplanned⟩ := untried.attempts session before
      exact unplanned (planned pending wanted)
    · refine ExtTreeMap.ext_getElem? fun session => ?_
      rw [opened, lanes]
      cases found : receipt.destinations[session]? with
      | none => simp [withdrawnLane]
      | some outcome =>
        obtain ⟨rfl, listed⟩ := untried.lanes session outcome found
        by_cases planned : session ∈ plan.destinations
        · simp [planned]
        · simp [planned, listed.resolve_left planned, withdrawnLane]

/-- The plan applied last is taken again exactly if it was itself a replay, or nothing on
the receipt was tried when it was applied. -/
theorem replay_accepted_iff (applied : applyRouteToReceipt N receipt plan = .ok routed) :
    applyRouteToReceipt N routed plan = .ok routed ↔
      plan.revision = receipt.routeRevision ∨ Untried receipt plan := by
  by_cases replayed : plan.revision = receipt.routeRevision
  · obtain rfl | ⟨-, newer, -⟩ := applyRoute_cases applied
    · exact iff_of_true applied (.inl replayed)
    · omega
  · obtain ⟨automatic, newer, applied⟩ := newer_of_applyRoute applied replayed
    rw [or_iff_right replayed]
    obtain ⟨valid, same⟩ := applyNewer_eq_ok applied
    obtain ⟨candidate, also⟩ : ∃ candidate,
        applyNewerRouteToReceipt N (unrouted receipt) plan = .ok candidate := by
      rw [applyNewerRouteToReceipt, valid]
      exact ⟨_, rfl⟩
    obtain ⟨revision, settled, shortfalls, desired, outcome⟩ := applyNewer_agree applied also
    have routing : routed.routing = .automatic :=
      (show routed.routing = receipt.routing from congrArg (·.routing) same).trans automatic
    have current : plan.revision = routed.routeRevision := by
      obtain ⟨_, -, applied⟩ := bind_eq_ok.mp applied
      obtain rfl := Except.ok.inj applied
      unfold settleRoute
      split
      · rfl
      · split <;> rfl
    rw [← lanes_eq_iff applied also]
    have compared : applyRouteToReceipt N routed plan = .ok routed ↔
        persistedRouteEffectMatches N routed plan = true := by
      unfold applyRouteToReceipt
      rw [if_neg (not_not.mpr routing), if_neg (by omega), if_pos current, if_neg (by omega)]
      split <;> simp [*]
    rw [compared, persistedRouteEffectMatches, same, also]
    simp only [revision, settled, shortfalls, desired, Bool.and_eq_true, decide_eq_true_eq, and_true]
    constructor
    · rintro ⟨⟨-, counts⟩, lanes⟩
      exact ⟨counts, lanes⟩
    · rintro ⟨counts, lanes⟩
      exact ⟨⟨outcome lanes, counts⟩, lanes⟩

/-- Before its first attempt the receipt takes its second plan as often as it comes. -/
theorem second_plan_taken_again : ∃ s receipt routed,
    Run (step plainLibrary 10) Free .default (firstAttempt.take 2) s ∧ s.writes[1]? = some receipt ∧
      applyRouteToReceipt plainLibrary receipt (planTo 2 "wss://b.example") = .ok routed ∧
      (applyRouteToReceipt plainLibrary routed (planTo 2 "wss://b.example") = .ok routed ↔
        (planTo 2 "wss://b.example").revision = receipt.routeRevision ∨
          Untried receipt (planTo 2 "wss://b.example")) := by
  obtain ⟨s, run, checked⟩ := Run.of_any (show (exec (step plainLibrary 10) Free .default
    (firstAttempt.take 2)).any (fun s => (s.writes[1]?).any fun receipt =>
      (applyRouteToReceipt plainLibrary receipt (planTo 2 "wss://b.example")).isOk) = true
    by decide +kernel)
  obtain ⟨receipt, found, checked⟩ := (Option.any_eq_true _ _).mp checked
  cases applied : applyRouteToReceipt plainLibrary receipt (planTo 2 "wss://b.example") with
  | error _ =>
    rw [applied] at checked
    cases checked
  | ok routed => exact ⟨s, receipt, routed, run, found, applied, replay_accepted_iff applied⟩

/-- The plan is taken, and what it leads to passes a check. -/
def takes (plan : RoutePlan) (receipt : Receipt) (check : Receipt → Bool) : Bool :=
  match applyRouteToReceipt plainLibrary receipt plan with
  | .error _ => false
  | .ok routed => check routed

theorem takes_iff {plan : RoutePlan} {check : Receipt → Bool} : takes plan receipt check = true ↔
    ∃ routed, applyRouteToReceipt plainLibrary receipt plan = .ok routed ∧ check routed = true := by
  unfold takes
  cases applied : applyRouteToReceipt plainLibrary receipt plan with
  | error error => simp
  | ok routed => simp

/-- The plan is refused, for the reason that is given. -/
def refuses (plan : RoutePlan) (reason : String) (receipt : Receipt) : Bool :=
  match applyRouteToReceipt plainLibrary receipt plan with
  | .error (.refused given) => given = reason
  | _ => false

theorem refuses_iff {plan : RoutePlan} {reason : String} : refuses plan reason receipt = true ↔
    applyRouteToReceipt plainLibrary receipt plan = .error (.refused reason) := by
  unfold refuses
  split
  · rename_i given refused
    simp [refused]
  · rename_i other
    refine iff_of_false Bool.false_ne_true fun refused => ?_
    exact other reason refused

/-- A first attempt is under way when the receipt takes its second plan. The store takes the
plan once, and refuses it the second time as one of another effect. -/
theorem second_plan_refused_again : ∃ s receipt routed,
    Run (step plainLibrary 10) Free .default firstAttempt s ∧ s.writes[1]? = some receipt ∧
      applyRouteToReceipt plainLibrary receipt (planTo 2 "wss://b.example") = .ok routed ∧
      applyRouteToReceipt plainLibrary routed (planTo 2 "wss://b.example") =
        .error (.refused "route revision 2 has a different persisted effect") := by
  obtain ⟨s, run, checked⟩ := Run.of_any (show (exec (step plainLibrary 10) Free .default
    firstAttempt).any (fun s => (s.writes[1]?).any fun receipt =>
      takes (planTo 2 "wss://b.example") receipt
        (refuses (planTo 2 "wss://b.example") "route revision 2 has a different persisted effect")) = true
    by decide +kernel)
  obtain ⟨receipt, found, checked⟩ := (Option.any_eq_true _ _).mp checked
  obtain ⟨routed, applied, refused⟩ := takes_iff.mp checked
  exact ⟨s, receipt, routed, run, found, applied, refuses_iff.mp refused⟩

/-- No attempt for the lane can have reached its relay. -/
def isUnsent : Option RelayDeliveryOutcome → Bool
  | none | some .cancelledBeforeHandoff => true
  | some outcome => outcome.isPreHandoff

/-- A newer plan has a relay tried that nothing was handed to, unless its lane was closed. -/
theorem deliverable_of_unclosed {session : RelayUrl}
    (applied : applyRouteToReceipt N receipt plan = .ok routed)
    (newer : receipt.routeRevision < plan.revision) (planned : session ∈ plan.destinations)
    (unclosed : receipt.destinations[session]? ≠ some .cancelledBeforeHandoff)
    (unsent : isUnsent receipt.destinations[session]? = true) :
    (routed.destinations[session]?).any RelayDeliveryOutcome.isPreHandoff = true := by
  rw [(applyNewer_lanes (newer_of_applyRoute applied (by omega)).2.2).2, if_pos planned]
  cases found : receipt.destinations[session]? with
  | none => rfl
  | some outcome =>
    rw [found] at unsent
    cases outcome with
    | cancelledBeforeHandoff => exact absurd found unclosed
    | _ => exact unsent

/-- A planned relay that nothing was handed to is tried after the plan, exactly if its lane
was not closed before handoff. -/
theorem redesired_deliverable_iff (applied : applyRouteToReceipt N receipt plan = .ok routed)
    (newer : receipt.routeRevision < plan.revision) :
    (∀ session ∈ plan.destinations, isUnsent receipt.destinations[session]? = true →
      (routed.destinations[session]?).any RelayDeliveryOutcome.isPreHandoff = true) ↔
    ∀ session ∈ plan.destinations,
      receipt.destinations[session]? ≠ some .cancelledBeforeHandoff := by
  constructor
  · intro deliverable session planned closed
    have awaited := deliverable session planned (by rw [closed]; rfl)
    rw [(applyNewer_lanes (newer_of_applyRoute applied (by omega)).2.2).2, if_pos planned,
      closed] at awaited
    cases awaited
  · exact fun unclosed session planned =>
      deliverable_of_unclosed applied newer planned (unclosed session planned)

/-- An attempt fails before handoff, its relay is withdrawn, and is planned once more: the
receipt wants the relay again, and its lane stays closed. -/
theorem restored_lane_stays_closed : ∃ s receipt routed,
    Run (step plainLibrary 10) Free .default (firstAttempt ++ [offline, rerouted]) s ∧
      s.writes[1]? = some receipt ∧ receipt.isTerminal = false ∧ receipt.routeRevision < 3 ∧
      applyRouteToReceipt plainLibrary receipt (planTo 3 "wss://a.example") = .ok routed ∧
      ¬∀ session ∈ (planTo 3 "wss://a.example").destinations,
        isUnsent receipt.destinations[session]? = true →
          (routed.destinations[session]?).any RelayDeliveryOutcome.isPreHandoff = true := by
  obtain ⟨s, run, checked⟩ := Run.of_any (show (exec (step plainLibrary 10) Free .default
    (firstAttempt ++ [offline, rerouted])).any (fun s => (s.writes[1]?).any fun receipt =>
      !receipt.isTerminal && decide (receipt.routeRevision < 3) &&
        isUnsent receipt.destinations["wss://a.example"]? &&
        takes (planTo 3 "wss://a.example") receipt fun routed =>
          !(routed.destinations["wss://a.example"]?).any RelayDeliveryOutcome.isPreHandoff) = true
    by decide +kernel)
  obtain ⟨receipt, found, checked⟩ := (Option.any_eq_true _ _).mp checked
  simp only [Bool.and_eq_true, Bool.not_eq_true', decide_eq_true_eq, takes_iff] at checked
  obtain ⟨⟨⟨isOpen, newer⟩, unsent⟩, routed, applied, closed⟩ := checked
  refine ⟨s, receipt, routed, run, found, isOpen, newer, applied, fun deliverable => ?_⟩
  have planned : "wss://a.example" ∈ (planTo 3 "wss://a.example").destinations := by
    rw [planTo, BTreeMap.mem_constant]
    exact List.mem_singleton_self _
  rw [deliverable _ planned unsent] at closed
  cases closed

/-- A relay that was not tried when it was withdrawn is tried once it is planned again. -/
theorem untried_lane_restored : ∃ s receipt routed,
    Run (step plainLibrary 10) Free .default (firstAttempt.take 2 ++ [rerouted]) s ∧
      s.writes[1]? = some receipt ∧
      applyRouteToReceipt plainLibrary receipt (planTo 3 "wss://a.example") = .ok routed ∧
      ((∀ session ∈ (planTo 3 "wss://a.example").destinations,
        isUnsent receipt.destinations[session]? = true →
          (routed.destinations[session]?).any RelayDeliveryOutcome.isPreHandoff = true) ↔
        ∀ session ∈ (planTo 3 "wss://a.example").destinations,
          receipt.destinations[session]? ≠ some .cancelledBeforeHandoff) := by
  obtain ⟨s, run, checked⟩ := Run.of_any (show (exec (step plainLibrary 10) Free .default
    (firstAttempt.take 2 ++ [rerouted])).any (fun s => (s.writes[1]?).any fun receipt =>
      decide (receipt.routeRevision < 3) &&
        (applyRouteToReceipt plainLibrary receipt (planTo 3 "wss://a.example")).isOk) = true
    by decide +kernel)
  obtain ⟨receipt, found, checked⟩ := (Option.any_eq_true _ _).mp checked
  simp only [Bool.and_eq_true, decide_eq_true_eq] at checked
  cases applied : applyRouteToReceipt plainLibrary receipt (planTo 3 "wss://a.example") with
  | error _ =>
    rw [applied] at checked
    cases checked.2
  | ok routed =>
    exact ⟨s, receipt, routed, run, found, applied, redesired_deliverable_iff applied checked.1⟩

section Retirement

variable {s : WriteState} {r : ReceiptId}

/-- The plan withdraws a relay whose last attempt failed before handoff. -/
def retiresLane (receipt : Receipt) (plan : RoutePlan) : Bool :=
  receipt.routeRevision < plan.revision && receipt.desiredDestinations.toList.any fun session =>
    !plan.destinations.contains session &&
      (receipt.destinations[session]?).any RelayDeliveryOutcome.isRetryable

/-- The action closes one lane before handoff and leaves the receipt open. -/
def closesLane (s : WriteState) : Action → Bool
  | .applyRoute _ r _ _ plan => (s.writes[r]?).any fun receipt => retiresLane receipt plan
  | .recordOutcome _ _ _ _ _ _ outcome => outcome = .cancelledBeforeHandoff
  | _ => false

def KeepsLanes (s : WriteState) (action : Action) : Prop := closesLane s action = false

instance (s : WriteState) (action : Action) : Decidable (KeepsLanes s action) :=
  inferInstanceAs (Decidable (_ = false))

/-- No lane of an open receipt is closed before handoff. -/
def Unclosed (receipt : Receipt) : Prop :=
  receipt.isTerminal = false → ∀ session : RelayUrl,
    receipt.destinations[session]? ≠ some .cancelledBeforeHandoff

theorem Unclosed.of_pending (pending : ∀ (session : RelayUrl) (outcome : RelayDeliveryOutcome),
    receipt.destinations[session]? = some outcome → outcome = .pending) : Unclosed receipt := by
  intro _ session closed
  cases pending session _ closed

/-- A plan closes only the lanes it retires. -/
theorem Unclosed.applyRoute (unclosed : ∀ session : RelayUrl,
      receipt.destinations[session]? ≠ some .cancelledBeforeHandoff)
    (kept : retiresLane receipt plan = false)
    (applied : applyRouteToReceipt N receipt plan = .ok routed) : Unclosed routed := by
  obtain rfl | ⟨-, newer, applied⟩ := applyRoute_cases applied
  · exact fun _ => unclosed
  · intro _ session closed
    rw [(applyNewer_lanes applied).2] at closed
    split at closed
    · cases found : receipt.destinations[session]? with
      | none =>
        rw [found] at closed
        cases closed
      | some outcome =>
        rw [found] at closed
        exact unclosed session (found.trans closed)
    · rename_i unplanned
      split at closed
      · rename_i wanted
        cases found : receipt.destinations[session]? with
        | none =>
          rw [found] at closed
          cases closed
        | some outcome =>
          rw [found] at closed
          cases outcome with
          | retryable reason =>
            refine absurd kept (ne_false_of_eq_true ?_)
            simp only [retiresLane, Bool.and_eq_true, decide_eq_true_eq, List.any_eq_true]
            refine ⟨newer, session, ExtTreeSet.mem_toList.mpr wanted, ?_, by rw [found]; rfl⟩
            simpa [← ExtTreeMap.contains_iff_mem] using unplanned
          | cancelledBeforeHandoff => exact unclosed session found
          | _ => cases closed
      · exact unclosed session closed

/-- A receipt whose lanes all wait for their first attempt takes any first route. -/
theorem Unclosed.applyInitialRoute {route : Option RoutePlan}
    (pending : ∀ (session : RelayUrl) (outcome : RelayDeliveryOutcome),
      receipt.destinations[session]? = some outcome → outcome = .pending)
    (applied : applyInitialRoute N receipt route = .ok routed) : Unclosed routed := by
  cases route with
  | none =>
    obtain rfl := Except.ok.inj applied
    exact .of_pending pending
  | some plan =>
    refine Unclosed.applyRoute (fun session closed => by cases pending session _ closed) ?_ applied
    rw [retiresLane, Bool.and_eq_false_iff]
    refine .inr (List.any_eq_false.mpr fun session _ => ?_)
    cases found : receipt.destinations[session]? with
    | none => simp
    | some outcome =>
      obtain rfl := pending session outcome found
      simp [RelayDeliveryOutcome.isRetryable]

theorem unclosed_of_enters (enters : Enters N r receipt) : Unclosed receipt := by
  obtain ⟨event, signature, source, routing, access, -, -, made, applied⟩ := enters
  obtain ⟨lanes, -⟩ := lanes_of_acceptedReceipt made
  refine Unclosed.applyInitialRoute (fun session outcome found => ?_) applied
  rw [lanes] at found
  exact pending_of_destinations found

theorem Unclosed.change {action : Action} (unclosed : Unclosed receipt)
    (found : s.writes[r]? = some receipt) (kept : KeepsLanes s action)
    (changes : Changes N r receipt action routed) : Unclosed routed := by
  cases changes with
  | sign _ isOpen => exact fun _ => unclosed isOpen
  | refuse isOpen => exact fun _ => unclosed isOpen
  | retry isOpen => exact fun _ => unclosed isOpen
  | authorize _ isOpen => exact fun _ => unclosed isOpen
  | fail _ isOpen => exact fun _ => unclosed isOpen
  | @route _ _ _ plan _ isOpen _ applied =>
    have keeps : (s.writes[r]?).any (fun receipt => retiresLane receipt plan) = false := kept
    rw [found] at keeps
    exact Unclosed.applyRoute (unclosed isOpen) keeps applied
  | @begin _ _ _ session _ _ isOpen =>
    intro _ other closed
    change (receipt.destinations.insert session .attempting)[other]? = _ at closed
    rw [BTreeMap.find_insert] at closed
    split at closed
    · cases closed
    · exact unclosed isOpen other closed
  | @outcome _ _ _ session _ outcome _ isOpen =>
    intro _ other closed
    rw [(settle_lanes _).1] at closed
    change (receipt.destinations.insert session outcome)[other]? = _ at closed
    rw [BTreeMap.find_insert] at closed
    split at closed
    · -- The attempt would have to report the closing itself.
      exact absurd (Option.some.inj closed) (of_decide_eq_false kept)
    · exact unclosed isOpen other closed
  | cancel =>
    intro isOpen
    cases isOpen
  | restart event source lanes _ origin generated applied =>
    obtain ⟨id, -, rfl⟩ := nextGeneration_eq_ok generated
    refine Unclosed.applyInitialRoute (fun session outcome lane => ?_) applied
    obtain rfl | rfl := origin
    · exact pending_of_destinations lane
    · exact pending_of_constant lane
  | correct event source _ _ _ generated applied =>
    obtain ⟨id, -, rfl⟩ := nextGeneration_eq_ok generated
    exact Unclosed.applyInitialRoute (fun _ _ lane => pending_of_constant lane) applied

/-- In every run in which no failed lane is withdrawn, every relay that a newer plan names
and that nothing was handed to is tried after the plan. -/
theorem redesired_deliverable_of_run {capacity : Nat} {actions : List Action}
    (run : Run (step N capacity) KeepsLanes .default actions s)
    (found : s.writes[r]? = some receipt) (isOpen : receipt.isTerminal = false)
    (applied : applyRouteToReceipt N receipt plan = .ok routed)
    (newer : receipt.routeRevision < plan.revision) :
    ∀ session ∈ plan.destinations, isUnsent receipt.destinations[session]? = true →
      (routed.destinations[session]?).any RelayDeliveryOutcome.isPreHandoff = true := by
  have unclosed : Unclosed receipt := run_receipts (fun _ => Unclosed)
    (fun _ _ => unclosed_of_enters)
    (fun _ _ _ _ _ kept found unclosed changes => unclosed.change found kept changes) run r receipt found
  exact fun session planned => deliverable_of_unclosed applied newer planned (unclosed isOpen session)

end Retirement

end Fava.WriteStore.Memory
