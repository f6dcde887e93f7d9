import Fava.WriteStore.Semantic

namespace Fava.WriteStore

open Std Fava.Lib Fava.Nostr Fava.Relay Fava.Routing Fava.Write

/-- The outcome a receipt has by its route and its lanes. -/
def derivedOutcome (receipt : Receipt) : ReceiptOutcome :=
  if ¬receipt.routeSettled ∨ ¬receipt.allTerminal then .isOpen
  else if receipt.desiredDestinations.isEmpty then .noDestination
  else .complete

/-- A receipt that is not cancelled is open while its route is unsettled or a lane is not
terminal, and then says whether there was anywhere to go. -/
structure OutcomeCoherent (receipt : Receipt) : Prop where
  isOpen : receipt.outcome = .isOpen ↔ receipt.routeSettled = false ∨
    ∃ (session : RelayUrl) (outcome : RelayDeliveryOutcome),
      receipt.destinations[session]? = some outcome ∧ outcome.isTerminal = false
  noDestination : receipt.outcome ≠ .isOpen →
    (receipt.outcome = .noDestination ↔ receipt.desiredDestinations.isEmpty = true)
  complete : receipt.outcome ≠ .isOpen →
    (receipt.outcome = .complete ↔ receipt.desiredDestinations.isEmpty = false)

/-- The outcome on record is the derived one. -/
def Agrees (receipt : Receipt) : Prop :=
  receipt.outcome = .cancelled ∨ receipt.outcome = derivedOutcome receipt

/-- A route that is complete and names no relay. -/
def settlesNowhere (plan : RoutePlan) : Bool := plan.settled && plan.destinations.isEmpty

variable {N : Library} {receipt updated : Receipt} {plan : RoutePlan} {route : Option RoutePlan}

theorem allTerminal_iff : receipt.allTerminal = true ↔
    ∀ (session : RelayUrl) (outcome : RelayDeliveryOutcome),
      receipt.destinations[session]? = some outcome → outcome.isTerminal = true := by
  rw [Receipt.allTerminal, List.all_eq_true]
  constructor
  · intro all session outcome lane
    exact all outcome (BTreeMap.mem_values.mpr ⟨session, lane⟩)
  · intro all outcome listed
    obtain ⟨session, lane⟩ := BTreeMap.mem_values.mp listed
    exact all session outcome lane

theorem derivedOutcome_eq_isOpen : derivedOutcome receipt = .isOpen ↔
    receipt.routeSettled = false ∨ receipt.allTerminal = false := by
  unfold derivedOutcome
  by_cases undecided : ¬receipt.routeSettled ∨ ¬receipt.allTerminal
  · rw [if_pos undecided]
    exact iff_of_true rfl (by simpa using undecided)
  · rw [if_neg undecided]
    refine iff_of_false ?_ (by simpa using undecided)
    split <;> exact nofun

theorem derivedOutcome_of_lane (session : RelayUrl) (outcome : RelayDeliveryOutcome)
    (lane : receipt.destinations[session]? = some outcome) (waits : outcome.isTerminal = false) :
    derivedOutcome receipt = .isOpen := by
  rw [derivedOutcome_eq_isOpen]
  right
  rw [← Bool.not_eq_true, allTerminal_iff]
  intro all
  rw [all session outcome lane] at waits
  cases waits

theorem Agrees.coherent (agrees : Agrees receipt) (live : receipt.outcome ≠ .cancelled) :
    OutcomeCoherent receipt := by
  have outcome := agrees.resolve_left live
  have waits : receipt.allTerminal = false ↔
      ∃ (session : RelayUrl) (outcome : RelayDeliveryOutcome),
        receipt.destinations[session]? = some outcome ∧ outcome.isTerminal = false := by
    rw [← Bool.not_eq_true, allTerminal_iff]
    push Not
    simp only [ne_eq, Bool.not_eq_true]
  have decided : receipt.outcome ≠ .isOpen → receipt.outcome =
      if receipt.desiredDestinations.isEmpty then .noDestination else .complete := by
    intro closed
    rw [outcome, ne_eq, derivedOutcome_eq_isOpen] at closed
    rw [outcome, derivedOutcome, if_neg (by simpa using closed)]
  refine ⟨?_, fun closed => ?_, fun closed => ?_⟩
  · rw [outcome, derivedOutcome_eq_isOpen, waits]
  · rw [decided closed]
    cases receipt.desiredDestinations.isEmpty <;> simp
  · rw [decided closed]
    cases receipt.desiredDestinations.isEmpty <;> simp

theorem outcome_settleRoute : (settleRoute receipt).outcome = derivedOutcome receipt := by
  unfold settleRoute derivedOutcome
  repeat' split
  all_goals rfl

theorem derivedOutcome_congr (settled : updated.routeSettled = receipt.routeSettled)
    (lanes : updated.destinations = receipt.destinations)
    (desired : updated.desiredDestinations = receipt.desiredDestinations) :
    derivedOutcome updated = derivedOutcome receipt := by
  rw [derivedOutcome, derivedOutcome, Receipt.allTerminal, Receipt.allTerminal, settled, lanes, desired]

/-- While a receipt is open, recording an outcome settles it as applying a route does. -/
theorem settle_eq_settleRoute (isOpen : receipt.outcome = .isOpen) :
    settle receipt = settleRoute receipt := by
  unfold settle settleRoute
  by_cases undecided : ¬receipt.routeSettled ∨ ¬receipt.allTerminal
  · rw [if_pos undecided, if_neg fun both => undecided.elim (· both.1) (· both.2), ← isOpen]
  · rw [if_neg undecided, if_pos (by simpa using undecided)]
    cases receipt.desiredDestinations.isEmpty <;> rfl

theorem applyNewer_outcome (applied : applyNewerRouteToReceipt N receipt plan = .ok updated) :
    updated.routeSettled = plan.settled ∧ updated.outcome = derivedOutcome updated := by
  obtain ⟨_, -, applied⟩ := bind_eq_ok.mp applied
  obtain rfl := Except.ok.inj applied
  obtain ⟨settled, desired, lanes⟩ := settleRoute_keeps _
  exact ⟨settled, outcome_settleRoute.trans (derivedOutcome_congr settled lanes desired).symm⟩

theorem Agrees.applyRoute (agrees : Agrees receipt)
    (applied : applyRouteToReceipt N receipt plan = .ok updated) : Agrees updated := by
  obtain rfl | ⟨-, -, newer⟩ := applyRoute_cases applied
  · exact agrees
  · exact .inr (applyNewer_outcome newer).2

theorem Agrees.applyInitialRoute (agrees : Agrees receipt)
    (applied : applyInitialRoute N receipt route = .ok updated) : Agrees updated := by
  obtain rfl | ⟨_, -, -, -, newer⟩ := applyInitialRoute_cases applied
  · exact agrees
  · exact .inr (applyNewer_outcome newer).2

/-- A generation that was not tried yet ends with its first route only if that leads
nowhere. -/
theorem settlesNowhere_of_terminal (isOpen : receipt.isTerminal = false)
    (untried : ∀ (session : RelayUrl) (outcome : RelayDeliveryOutcome),
      receipt.destinations[session]? = some outcome → outcome = .pending)
    (applied : applyInitialRoute N receipt route = .ok updated)
    (terminal : updated.isTerminal = true) :
    ∃ plan ∈ route, settlesNowhere plan = true ∧ receipt.routing = .automatic ∧
      receipt.routeRevision < plan.revision := by
  obtain rfl | ⟨plan, given, automatic, later, newer⟩ := applyInitialRoute_cases applied
  · rw [isOpen] at terminal
    cases terminal
  obtain ⟨settled, outcome⟩ := applyNewer_outcome newer
  have closed : derivedOutcome updated ≠ .isOpen := by
    rw [← outcome]
    simpa [Receipt.isTerminal] using terminal
  refine ⟨plan, given, ?_, automatic, later⟩
  rw [settlesNowhere, Bool.and_eq_true]
  refine ⟨?_, ?_⟩
  · rw [← settled]
    by_contra unsettled
    exact closed (derivedOutcome_eq_isOpen.mpr (.inl (Bool.not_eq_true _ ▸ unsettled)))
  · rw [ExtTreeMap.isEmpty_iff, ExtTreeMap.eq_empty_iff_forall_not_mem]
    intro session planned
    -- The lane of a planned destination waits.
    refine closed (derivedOutcome_of_lane session .pending ?_ rfl)
    rw [(applyNewer_lanes newer).2, if_pos planned]
    cases lane : receipt.destinations[session]? with
    | none => rfl
    | some outcome => rw [untried session outcome lane]; rfl

end Fava.WriteStore
