import Fava.WriteStore.Outcome
import Fava.WriteStore.Memory.Transition

namespace Fava.WriteStore.Memory

open Std Fava.Lib Fava.Nostr Fava.Relay Fava.Routing Fava.Write

/-- The outcome on record is the derived one, and an explicit route keeps its lanes. -/
structure Settled (receipt : Receipt) : Prop where
  agrees : Agrees receipt
  lanes : receipt.routing.isExplicit = true → ∃ session, session ∈ receipt.destinations

variable {N : Library} {receipt updated : Receipt} {action : Action} {r : ReceiptId}
  {route : Option RoutePlan}

/-- A receipt that waits for its route, or for the lanes it was given, is open. -/
theorem Settled.of_pending (isOpen : receipt.outcome = .isOpen)
    (routed : receipt.routeSettled = receipt.routing.isExplicit)
    (pending : ∀ (session : RelayUrl) (outcome : RelayDeliveryOutcome),
      receipt.destinations[session]? = some outcome → outcome = .pending)
    (lanes : receipt.routing.isExplicit = true → ∃ session, session ∈ receipt.destinations) :
    Settled receipt := by
  refine ⟨.inr ?_, lanes⟩
  rw [isOpen]
  symm
  by_cases explicit : receipt.routing.isExplicit = true
  · obtain ⟨session, lane⟩ := lanes explicit
    obtain ⟨outcome, found⟩ := Option.isSome_iff_exists.mp (ExtTreeMap.mem_iff_isSome_getElem?.mp lane)
    refine derivedOutcome_of_lane session outcome found ?_
    rw [pending session outcome found]
    rfl
  · rw [derivedOutcome_eq_isOpen, routed]
    exact .inl (Bool.eq_false_iff.mpr explicit)

theorem Settled.applyRoute {plan : RoutePlan} (settled : Settled receipt)
    (applied : applyRouteToReceipt N receipt plan = .ok updated) : Settled updated := by
  refine ⟨settled.agrees.applyRoute applied, fun explicit => ?_⟩
  obtain rfl | ⟨automatic, -, newer⟩ := applyRoute_cases applied
  · exact settled.lanes explicit
  · have same : updated.routing = receipt.routing := congrArg (·.routing) (applyNewer_eq_ok newer).2
    rw [same, automatic] at explicit
    cases explicit

theorem Settled.applyInitialRoute (settled : Settled receipt)
    (applied : applyInitialRoute N receipt route = .ok updated) : Settled updated := by
  cases route with
  | none =>
    obtain rfl := Except.ok.inj applied
    exact settled
  | some plan => exact settled.applyRoute applied

/-- What concerns neither the route nor a lane leaves the outcome right. -/
theorem Settled.of_same (settled : Settled receipt) (outcome : updated.outcome = receipt.outcome)
    (routed : updated.routeSettled = receipt.routeSettled)
    (lanes : updated.destinations = receipt.destinations)
    (desired : updated.desiredDestinations = receipt.desiredDestinations)
    (routing : updated.routing = receipt.routing) : Settled updated := by
  refine ⟨?_, ?_⟩
  · rw [Agrees, outcome, derivedOutcome_congr routed lanes desired]
    exact settled.agrees
  · rw [routing, lanes]
    exact settled.lanes

theorem lanes_of_destinations {routing : WriteRouting} (valid : routing.validate = .ok ())
    (explicit : routing.isExplicit = true) : ∃ session, session ∈ destinations routing := by
  cases routing with
  | automatic => cases explicit
  | explicit relays =>
    cases relays with
    | nil => cases valid
    | cons relay relays => exact ⟨relay, BTreeMap.mem_constant.mpr List.mem_cons_self⟩

theorem settled_of_enters (enters : Enters N r receipt)
    (valid : receipt.routing.validate = .ok ()) : Settled receipt := by
  obtain ⟨event, signature, source, routing, access, -, -, made, applied⟩ := enters
  have same := congrArg (·.routing) (applyInitialRoute_eq_ok applied).1
  obtain ⟨current, generated, made⟩ := bind_eq_ok.mp made
  obtain rfl := Except.ok.inj made
  change receipt.routing = routing at same
  rw [same] at valid
  rw [mapError_eq_ok, LocalWriteEvent.new] at generated
  split at generated
  · cases generated
  · obtain rfl := Except.ok.inj generated
    refine Settled.applyInitialRoute (.of_pending rfl rfl ?_ ?_) applied
    · exact fun _ _ => pending_of_destinations
    · exact lanes_of_destinations valid

/-- An open receipt keeps something to correct. -/
theorem Settled.correction {current : LocalWriteEvent} {fresh : Receipt} (settled : Settled receipt)
    (isOpen : receipt.isTerminal = false)
    (is : fresh = { receipt with
      current := current
      outcome := .isOpen
      desiredDestinations := correctionDestinations receipt
      attempts := ∅ })
    (lanes : fresh.destinations =
      BTreeMap.constant (correctionDestinations receipt).toList .pending) : Settled fresh := by
  have kept : ∀ session ∈ receipt.destinations, fresh.destinations[session]? = some .pending := by
    intro session lane
    rw [lanes, BTreeMap.find_constant, if_pos]
    rw [ExtTreeSet.mem_toList]
    exact ExtTreeSet.mem_union_iff.mpr (.inr (BTreeMap.mem_keySet.mpr lane))
  have routing : fresh.routing = receipt.routing := by rw [is]
  refine ⟨.inr ?_, fun explicit => ?_⟩
  · rw [show fresh.outcome = .isOpen by rw [is]]
    symm
    have outcome : receipt.outcome = .isOpen := by simpa [Receipt.isTerminal] using isOpen
    have derived := settled.agrees.resolve_left (fun cancelled => by rw [outcome] at cancelled; cases cancelled)
    rw [outcome, eq_comm, derivedOutcome_eq_isOpen] at derived
    obtain unsettled | waits := derived
    · rw [derivedOutcome_eq_isOpen, show fresh.routeSettled = receipt.routeSettled by rw [is]]
      exact .inl unsettled
    · rw [← Bool.not_eq_true, allTerminal_iff] at waits
      push Not at waits
      obtain ⟨session, outcome, lane, -⟩ := waits
      have present := ExtTreeMap.mem_iff_isSome_getElem?.mpr (Option.isSome_of_eq_some lane)
      exact derivedOutcome_of_lane session .pending (kept session present) rfl
  · rw [routing] at explicit
    obtain ⟨session, lane⟩ := settled.lanes explicit
    exact ⟨session, ExtTreeMap.mem_iff_isSome_getElem?.mpr (by rw [kept session lane]; rfl)⟩

/-- Settling an open receipt gives it the derived outcome. -/
theorem Settled.of_settle (isOpen : receipt.outcome = .isOpen)
    (lanes : receipt.routing.isExplicit = true → ∃ session, session ∈ receipt.destinations) :
    Settled (settle receipt) := by
  have routing := congrArg (·.routing) (unrouted_settle receipt)
  change (settle receipt).routing = receipt.routing at routing
  rw [settle_eq_settleRoute isOpen] at routing ⊢
  obtain ⟨routed, desired, same⟩ := settleRoute_keeps receipt
  refine ⟨.inr (outcome_settleRoute.trans (derivedOutcome_congr routed same desired).symm), ?_⟩
  rw [routing, same]
  exact lanes

/-- Every change of a receipt leaves the outcome on record the derived one. -/
theorem Settled.change (settled : Settled receipt) (valid : receipt.routing.validate = .ok ())
    (changes : Changes N r receipt action updated) : Settled updated := by
  cases changes with
  | sign | refuse | retry | authorize | fail => exact settled.of_same rfl rfl rfl rfl rfl
  | route _ _ applied => exact settled.applyRoute applied
  | @begin _ _ _ session attempt _ isOpen _ found _ =>
    have outcome : receipt.outcome = .isOpen := by simpa [Receipt.isTerminal] using isOpen
    refine ⟨.inr (outcome.trans ?_), fun _ => ⟨session, ExtTreeMap.mem_insert_self⟩⟩
    exact (derivedOutcome_of_lane session .attempting BTreeMap.find_insert_self rfl).symm
  | @outcome _ _ _ session _ outcome _ isOpen =>
    have same : receipt.outcome = .isOpen := by simpa [Receipt.isTerminal] using isOpen
    exact Settled.of_settle same fun _ => ⟨session, ExtTreeMap.mem_insert_self⟩
  | cancel =>
    refine ⟨.inl rfl, fun explicit => ?_⟩
    obtain ⟨session, lane⟩ := settled.lanes explicit
    exact ⟨session, ExtTreeMap.mem_map.mpr lane⟩
  | restart _ _ lanes _ origin generated applied =>
    obtain ⟨id, -, rfl⟩ := nextGeneration_eq_ok generated
    refine Settled.applyInitialRoute (.of_pending rfl rfl ?_ ?_) applied
    · exact fun _ _ => pending_of_origin origin
    · intro explicit
      obtain rfl | rfl := origin
      · exact lanes_of_destinations valid explicit
      · obtain ⟨session, lane⟩ := settled.lanes explicit
        refine ⟨session, BTreeMap.mem_constant.mpr (ExtTreeSet.mem_toList.mpr ?_)⟩
        exact ExtTreeSet.mem_union_iff.mpr (.inr (BTreeMap.mem_keySet.mpr lane))
  | correct _ _ isOpen _ _ generated applied =>
    obtain ⟨id, -, rfl⟩ := nextGeneration_eq_ok generated
    exact (settled.correction isOpen rfl rfl).applyInitialRoute applied

/-- In every ledger the store can reach, the outcome of a receipt that is not cancelled
says whether there is work left. -/
theorem settled_of_run {capacity : Nat} {actions : List Action} {s : WriteState}
    (run : Run (step N capacity) Free .default actions s) :
    ∀ (r : ReceiptId) (receipt : Receipt), s.writes[r]? = some receipt →
      receipt.routing.validate = .ok () → Settled receipt := by
  refine run_receipts (fun _ receipt => receipt.routing.validate = .ok () → Settled receipt) ?_ ?_ run
  · exact fun r receipt enters => settled_of_enters enters
  · intro t action q before after _ _ settled changes valid
    rw [routing_of_changes changes] at valid
    exact (settled valid).change valid changes

end Fava.WriteStore.Memory
