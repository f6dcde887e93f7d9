import Fava.Lib.Fallible
import Fava.Routing.Plan
import Fava.Write.Receipt

namespace Fava.WriteStore

open Std Fava.Lib Fava.Nostr Fava.Relay Fava.Routing Fava.Write

inductive WriteStoreError
  | closed
  | invalidEvent (error : InvalidEventValue)
  | invalidIntent (error : WriteIntentError)
  | refused (reason : String)

structure AcceptedWrite where
  writeId : WriteId
  receiptId : ReceiptId
  current : LocalWriteEvent

def maxReceiptTextBytes : Nat := 4096

/-- The bound on every count kept with one receipt. -/
def destinationEvidenceCapacity : Nat := 256

def validateReceiptText (value : String) : Except WriteStoreError Unit :=
  if value.utf8ByteSize ≤ maxReceiptTextBytes then .ok ()
  else .error (.refused ("receipt text exceeds bound: " ++ toString value.utf8ByteSize ++ " > " ++
    toString maxReceiptTextBytes))

def validateDeliveryOutcome : RelayDeliveryOutcome → Except WriteStoreError Unit
  | .retryable reason | .authenticationDenied reason | .givenUp reason | .unknown reason =>
    validateReceiptText reason
  | .acknowledged message | .rejected message => validateReceiptText message
  | .pending | .attempting | .cancelledBeforeHandoff => .ok ()

def validateCurrentRevision (receipt : Receipt) (writeId : WriteId) (revisionId : RevisionId)
    (eventId : EventId) : Except WriteStoreError Unit :=
  if receipt.isTerminal ∨ receipt.writeId ≠ writeId ∨
      receipt.current.publication.revisionId ≠ revisionId ∨ receipt.current.id ≠ eventId then
    .error (.refused "write revision is not current")
  else .ok ()

theorem open_of_validateCurrentRevision {receipt : Receipt} {writeId : WriteId}
    {revisionId : RevisionId} {eventId : EventId} {u : Unit}
    (h : validateCurrentRevision receipt writeId revisionId eventId = .ok u) :
    receipt.isTerminal = false := by
  unfold validateCurrentRevision at h
  split at h
  · cases h
  · rename_i current
    simpa using fun terminal => current (.inl terminal)

section Route

variable (N : Library)

/-- The plan's shortfalls, and one for every target that settled without a relay. -/
def planShortfalls (plan : RoutePlan) : List String :=
  plan.shortfalls ++ plan.coverage.toList.filterMap fun (target, state) =>
    match state with
    | .settledAbsent => some ("no relay destination for " ++ target.debug N)
    | .covered _ | .unresolved => none

/-- The bounds a plan meets before any of it is applied. -/
def validatePlan (plan : RoutePlan) : Except WriteStoreError Unit :=
  if plan.destinations.size > destinationEvidenceCapacity then
    .error (.refused ("route destination fan-out exceeds bound: " ++
      toString plan.destinations.size ++ " > " ++ toString destinationEvidenceCapacity))
  else if (planShortfalls N plan).length > destinationEvidenceCapacity then
    .error (.refused ("route shortfall count exceeds bound: " ++
      toString (planShortfalls N plan).length ++ " > " ++ toString destinationEvidenceCapacity))
  else (planShortfalls N plan).forM validateReceiptText

/-- Withdraw one destination: it is dropped while nothing was tried, closed after a
failure before handoff, and kept otherwise. -/
def withdraw (receipt : Receipt) (session : RelayUrl) : Receipt :=
  match receipt.destinations[session]? with
  | some .pending =>
    { receipt.withDestinations (receipt.destinations.erase session) with
      attempts := receipt.attempts.erase session }
  | some (.retryable _) =>
    receipt.withDestinations (receipt.destinations.insert session .cancelledBeforeHandoff)
  | _ => receipt

/-- Open a lane for a destination that has none. -/
def provide (receipt : Receipt) (session : RelayUrl) : Receipt :=
  receipt.withDestinations (receipt.destinations.insertIfNew session .pending)

def settleRoute (receipt : Receipt) : Receipt :=
  if ¬receipt.routeSettled ∨ ¬receipt.allTerminal then { receipt with outcome := .isOpen }
  else if receipt.desiredDestinations.isEmpty then { receipt with outcome := .noDestination }
  else { receipt with outcome := .complete }

def applyNewerRouteToReceipt (receipt : Receipt) (plan : RoutePlan) :
    Except WriteStoreError Receipt := do
  validatePlan N plan
  let removed := receipt.desiredDestinations.toList.filter fun session =>
    !plan.destinations.contains session
  let withdrawn := removed.foldl withdraw receipt
  let provided := plan.destinations.keys.foldl provide withdrawn
  .ok (settleRoute { provided with
    routeRevision := plan.revision
    routeSettled := plan.settled
    routeShortfalls := planShortfalls N plan
    desiredDestinations := plan.destinations.keySet })

/-- The receipt before any route was applied to it. -/
def unrouted (receipt : Receipt) : Receipt :=
  { receipt.withDestinations ∅ with
    outcome := .isOpen
    routeRevision := 0
    routeSettled := false
    routeShortfalls := []
    desiredDestinations := ∅
    attempts := ∅ }

def persistedRouteEffectMatches (receipt : Receipt) (plan : RoutePlan) : Bool :=
  match applyNewerRouteToReceipt N (unrouted receipt) plan with
  | .error _ => false
  | .ok candidate =>
    candidate.outcome = receipt.outcome && candidate.routeRevision = receipt.routeRevision &&
    candidate.routeSettled = receipt.routeSettled &&
    candidate.routeShortfalls = receipt.routeShortfalls &&
    candidate.desiredDestinations = receipt.desiredDestinations &&
    candidate.attempts = receipt.attempts && candidate.destinations = receipt.destinations

/-- Apply one newer complete route plan, or accept the replay of the one applied last. -/
def applyRouteToReceipt (receipt : Receipt) (plan : RoutePlan) : Except WriteStoreError Receipt :=
  if receipt.routing ≠ .automatic then
    .error (.refused "automatic route cannot mutate an explicit receipt")
  else if plan.revision < receipt.routeRevision then
    .error (.refused ("route revision is stale: " ++ toString plan.revision ++ " < " ++
      toString receipt.routeRevision))
  else if plan.revision = receipt.routeRevision then
    if plan.revision = 0 then
      .error (.refused "route revision zero has no persisted effect to replay")
    else if persistedRouteEffectMatches N receipt plan then .ok receipt
    else .error (.refused ("route revision " ++ toString plan.revision ++
      " has a different persisted effect"))
  else applyNewerRouteToReceipt N receipt plan

end Route

section Frame

variable {N : Library} {receipt routed : Receipt} {plan : RoutePlan}

theorem unrouted_withdraw (receipt : Receipt) (session : RelayUrl) :
    unrouted (withdraw receipt session) = unrouted receipt := by
  unfold withdraw
  split <;> rfl

theorem unrouted_foldl_withdraw (sessions : List RelayUrl) (receipt : Receipt) :
    unrouted (sessions.foldl withdraw receipt) = unrouted receipt := by
  induction sessions generalizing receipt with
  | nil => rfl
  | cons session sessions ih => rw [List.foldl_cons, ih, unrouted_withdraw]

theorem unrouted_foldl_provide (sessions : List RelayUrl) (receipt : Receipt) :
    unrouted (sessions.foldl provide receipt) = unrouted receipt := by
  induction sessions generalizing receipt with
  | nil => rfl
  | cons session sessions ih =>
    rw [List.foldl_cons, ih]
    rfl

theorem unrouted_settleRoute (receipt : Receipt) :
    unrouted (settleRoute receipt) = unrouted receipt := by
  unfold settleRoute
  split
  · rfl
  · split <;> rfl

theorem applyNewer_eq_ok (h : applyNewerRouteToReceipt N receipt plan = .ok routed) :
    validatePlan N plan = .ok () ∧ unrouted routed = unrouted receipt := by
  obtain ⟨_, valid, h⟩ := bind_eq_ok.mp h
  refine ⟨valid, ?_⟩
  obtain rfl := Except.ok.inj h
  rw [unrouted_settleRoute]
  exact (unrouted_foldl_provide _ _).trans (unrouted_foldl_withdraw _ _)

/-- A plan that a receipt takes has a revision of its own and meets the bounds. -/
structure PlanFits (N : Library) (routing : WriteRouting) (plan : RoutePlan) : Prop where
  automatic : routing = .automatic
  revised : 0 < plan.revision
  valid : validatePlan N plan = .ok ()

theorem PlanFits.of_applyRoute (h : applyRouteToReceipt N receipt plan = .ok routed) :
    PlanFits N receipt.routing plan := by
  unfold applyRouteToReceipt at h
  split_ifs at h with explicit stale replayed zero same
  · -- A replay was checked by applying the plan to the receipt without its route.
    unfold persistedRouteEffectMatches at same
    split at same
    · cases same
    · rename_i applied
      exact ⟨not_not.mp explicit, Nat.pos_of_ne_zero zero, (applyNewer_eq_ok applied).1⟩
  · exact ⟨not_not.mp explicit, by omega, (applyNewer_eq_ok h).1⟩

/-- A plan that is taken is the replay of the last one, or newer than it. -/
theorem applyRoute_cases (h : applyRouteToReceipt N receipt plan = .ok routed) :
    routed = receipt ∨ receipt.routing = .automatic ∧ receipt.routeRevision < plan.revision ∧
      applyNewerRouteToReceipt N receipt plan = .ok routed := by
  unfold applyRouteToReceipt at h
  split_ifs at h with explicit stale replayed zero same
  · exact .inl (Except.ok.inj h).symm
  · exact .inr ⟨not_not.mp explicit,
      Nat.lt_of_le_of_ne (Nat.le_of_not_lt stale) (Ne.symm replayed), h⟩

/-- Routing a receipt changes its lanes and nothing else. -/
theorem unrouted_of_applyRoute (h : applyRouteToReceipt N receipt plan = .ok routed) :
    unrouted routed = unrouted receipt := by
  obtain rfl | ⟨-, -, h⟩ := applyRoute_cases h
  · rfl
  · exact (applyNewer_eq_ok h).2

/-- What a plan was once taken for, a receipt that has no route yet takes too. -/
theorem PlanFits.applyRoute (fits : PlanFits N receipt.routing plan)
    (fresh : receipt.routeRevision = 0) :
    ∃ routed, applyRouteToReceipt N receipt plan = .ok routed := by
  have newer : applyRouteToReceipt N receipt plan = applyNewerRouteToReceipt N receipt plan := by
    have revised := fits.revised
    unfold applyRouteToReceipt
    rw [if_neg (not_not.mpr fits.automatic), if_neg (by omega), if_neg (by omega)]
  rw [newer, applyNewerRouteToReceipt, fits.valid]
  exact ⟨_, rfl⟩

/-- What withdrawing makes of one lane. -/
def withdrawnLane : Option RelayDeliveryOutcome → Option RelayDeliveryOutcome
  | some .pending => none
  | some (.retryable _) => some .cancelledBeforeHandoff
  | lane => lane

theorem withdrawnLane_withdrawnLane (lane : Option RelayDeliveryOutcome) :
    withdrawnLane (withdrawnLane lane) = withdrawnLane lane := by
  obtain _ | outcome := lane
  · rfl
  · cases outcome <;> rfl

theorem destinations_withdraw (receipt : Receipt) (session other : RelayUrl) :
    (withdraw receipt session).destinations[other]? =
      if session = other then withdrawnLane receipt.destinations[other]?
      else receipt.destinations[other]? := by
  by_cases same : session = other
  · subst same
    rw [if_pos rfl, withdraw]
    split
    · rename_i found
      rw [found]
      exact BTreeMap.find_erase.trans (if_pos rfl)
    · rename_i found
      rw [found]
      exact BTreeMap.find_insert.trans (if_pos rfl)
    · rename_i pending retryable
      cases found : receipt.destinations[session]? with
      | none => rfl
      | some outcome =>
        cases outcome with
        | pending => exact absurd found pending
        | retryable reason => exact absurd found (retryable reason)
        | _ => rfl
  · rw [if_neg same, withdraw]
    split
    · exact BTreeMap.find_erase.trans (if_neg same)
    · exact BTreeMap.find_insert.trans (if_neg same)
    · rfl

theorem destinations_foldl_withdraw (sessions : List RelayUrl) (receipt : Receipt)
    (other : RelayUrl) :
    (sessions.foldl withdraw receipt).destinations[other]? =
      if other ∈ sessions then withdrawnLane receipt.destinations[other]?
      else receipt.destinations[other]? := by
  induction sessions generalizing receipt with
  | nil => simp
  | cons session sessions ih =>
    rw [List.foldl_cons, ih, destinations_withdraw]
    by_cases here : session = other
    · subst here
      by_cases again : session ∈ sessions
      · simp [again, withdrawnLane_withdrawnLane]
      · simp [again]
    · simp [here, Ne.symm here]

theorem destinations_foldl_provide (sessions : List RelayUrl) (receipt : Receipt)
    (other : RelayUrl) :
    (sessions.foldl provide receipt).destinations[other]? =
      if other ∈ sessions then some (receipt.destinations[other]?.getD .pending)
      else receipt.destinations[other]? := by
  have one : ∀ (receipt : Receipt) session, (provide receipt session).destinations[other]? =
      if session = other then some (receipt.destinations[other]?.getD .pending)
      else receipt.destinations[other]? := by
    intro receipt session
    show (receipt.destinations.insertIfNew session .pending)[other]? = _
    rw [ExtTreeMap.getElem?_insertIfNew]
    simp only [LawfulEqCmp.compare_eq_iff_eq, ExtTreeMap.mem_iff_isSome_getElem?]
    by_cases same : session = other
    · subst same
      cases receipt.destinations[session]? <;> simp
    · simp [same]
  induction sessions generalizing receipt with
  | nil => simp
  | cons session sessions ih =>
    rw [List.foldl_cons, ih, one]
    by_cases here : session = other
    · subst here
      by_cases again : session ∈ sessions <;> simp [again]
    · simp [here, Ne.symm here]

/-- Settling a route changes nothing but the outcome. -/
theorem settleRoute_keeps (receipt : Receipt) :
    (settleRoute receipt).routeSettled = receipt.routeSettled ∧
    (settleRoute receipt).desiredDestinations = receipt.desiredDestinations ∧
    (settleRoute receipt).destinations = receipt.destinations := by
  unfold settleRoute
  split
  · exact ⟨rfl, rfl, rfl⟩
  · split <;> exact ⟨rfl, rfl, rfl⟩

/-- A newer route withdraws what was wanted and is not planned any more. -/
theorem mem_removed {session : RelayUrl} :
    session ∈ receipt.desiredDestinations.toList.filter (fun session =>
      !plan.destinations.contains session) ↔
      session ∈ receipt.desiredDestinations ∧ session ∉ plan.destinations := by
  simp [List.mem_filter, ← ExtTreeMap.contains_iff_mem]

/-- What a newer route makes of every lane, and of the destinations it wants. -/
theorem applyNewer_lanes (h : applyNewerRouteToReceipt N receipt plan = .ok routed) :
    routed.desiredDestinations = plan.destinations.keySet ∧
    ∀ session : RelayUrl, routed.destinations[session]? =
      if session ∈ plan.destinations then some (receipt.destinations[session]?.getD .pending)
      else if session ∈ receipt.desiredDestinations then
        withdrawnLane receipt.destinations[session]?
      else receipt.destinations[session]? := by
  obtain ⟨_, -, h⟩ := bind_eq_ok.mp h
  obtain rfl := Except.ok.inj h
  obtain ⟨-, desired, lanes⟩ := settleRoute_keeps { plan.destinations.keys.foldl provide
      ((receipt.desiredDestinations.toList.filter fun session =>
        !plan.destinations.contains session).foldl withdraw receipt) with
    routeRevision := plan.revision
    routeSettled := plan.settled
    routeShortfalls := planShortfalls N plan
    desiredDestinations := plan.destinations.keySet }
  refine ⟨desired, ?_⟩
  intro session
  rw [lanes]
  refine (destinations_foldl_provide _ _ _).trans ?_
  rw [destinations_foldl_withdraw]
  simp only [ExtTreeMap.mem_keys, mem_removed]
  by_cases wanted : session ∈ plan.destinations
  · simp only [wanted, if_true, not_true_eq_false, and_false, if_false]
  · simp only [wanted, if_false, not_false_eq_true, and_true]

end Frame

end Fava.WriteStore
