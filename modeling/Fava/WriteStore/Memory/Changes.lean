import Fava.WriteStore.Memory.Lifecycle

namespace Fava.WriteStore.Memory

open Std Fava.Lib Fava.Nostr Fava.Relay Fava.Routing Fava.Write

/-- The action reports how the signing of the receipt's current generation ended: with
its signed event, or with a failure. -/
def Concludes (N : Library) (r : ReceiptId) (receipt : Receipt) : Action → Prop
  | .installSigned writeId receiptId revisionId eventId event =>
    receiptId = r ∧ validateCurrentRevision receipt writeId revisionId eventId = .ok () ∧
      N.verify event = .ok () ∧
        ∃ unsigned, receipt.current.event = .unsigned unsigned ∧ signs event unsigned
  | .recordSignerRetryable writeId receiptId revisionId eventId reason
  | .recordSignerRefusal writeId receiptId revisionId eventId reason =>
    receiptId = r ∧ validateReceiptText reason = .ok () ∧
      validateCurrentRevision receipt writeId revisionId eventId = .ok ()
  | _ => False

/-- How one operation can change a receipt it finds. -/
inductive Changes (N : Library) (r : ReceiptId) (receipt : Receipt) : Action → Receipt → Prop
  | sign {writeId : WriteId} {revisionId : RevisionId} {eventId : EventId}
      {event : Event} (unsigned : UnsignedEvent) (isOpen : receipt.isTerminal = false)
      (verified : N.verify event = .ok ()) (holding : receipt.current.event = .unsigned unsigned)
      (signed : signs event unsigned)
      (allowed : receipt.current.publication.signature = .authorized ∨
        receipt.current.publication.signature = .signed) :
      Changes N r receipt (.installSigned writeId r revisionId eventId event)
        { receipt.withSignature .signed with
          current := { (receipt.withSignature .signed).current with event := .signed event } }
  | refuse {writeId : WriteId} {revisionId : RevisionId}
      {eventId : EventId} {reason : String} (isOpen : receipt.isTerminal = false)
      (bounded : validateReceiptText reason = .ok ())
      (authorized : receipt.current.publication.signature = .authorized) :
      Changes N r receipt (.recordSignerRefusal writeId r revisionId eventId reason)
        (receipt.withSignature (.refused reason))
  | retry {writeId : WriteId} {revisionId : RevisionId}
      {eventId : EventId} {reason : String} (isOpen : receipt.isTerminal = false)
      (bounded : validateReceiptText reason = .ok ())
      (undecided : receipt.current.publication.signature ≠ .signed ∧
        ∀ text, receipt.current.publication.signature ≠ .refused text) :
      Changes N r receipt (.recordSignerRetryable writeId r revisionId eventId reason)
        (receipt.withSignature (.retryable reason))
  | authorize {writeId : WriteId} {revisionId : RevisionId}
      {eventId : EventId} (s : WriteState) (isOpen : receipt.isTerminal = false)
      (undecided : receipt.current.publication.signature ≠ .signed ∧
        ∀ text, receipt.current.publication.signature ≠ .refused text)
      (holding : ∃ unsigned, receipt.current.event = .unsigned unsigned) :
      Changes N r receipt (.authorizeSigning writeId r revisionId eventId)
        (receipt.withSignature (authorization N s writeId r revisionId eventId))
  | fail {writeId : WriteId} {expected : RevisionId}
      {expectedSource : Option EventId} {source : Option EventValue} {reason : String}
      (failedSource : Option Source) (isOpen : receipt.isTerminal = false) :
      Changes N r receipt
        (.recordRevisionFailure writeId r expected expectedSource source reason)
        (receipt.withPublication { receipt.current.publication with
          revisionFailure :=
            some (attributedFailure N expected (failedSource.map Prod.fst) reason) })
  | route {writeId : WriteId} {revisionId : RevisionId}
      {eventId : EventId} {plan : RoutePlan} {updated : Receipt}
      (isOpen : receipt.isTerminal = false)
      (current : validateCurrentRevision receipt writeId revisionId eventId = .ok ())
      (applied : applyRouteToReceipt N receipt plan = .ok updated) :
      Changes N r receipt (.applyRoute writeId r revisionId eventId plan) updated
  | begin {writeId : WriteId} {revisionId : RevisionId}
      {eventId : EventId} {session : RelayUrl} {attempt : Nat} (outcome : RelayDeliveryOutcome)
      (isOpen : receipt.isTerminal = false)
      (later : attempt = (receipt.attempts[session]?).getD 0 + 1)
      (found : receipt.destinations[session]? = some outcome) (fresh : outcome.isPreHandoff = true) :
      Changes N r receipt (.beginAttempt writeId r revisionId eventId session attempt)
        { receipt.withDestinations (receipt.destinations.insert session .attempting) with
          attempts := receipt.attempts.insert session attempt }
  | outcome {writeId : WriteId} {revisionId : RevisionId}
      {eventId : EventId} {session : RelayUrl} {attempt : Nat} {outcome : RelayDeliveryOutcome}
      (current : RelayDeliveryOutcome) (isOpen : receipt.isTerminal = false)
      (bounded : validateDeliveryOutcome outcome = .ok ())
      (decided : outcome.isTerminal = true ∨ outcome.isRetryable = true)
      (tried : receipt.attempts[session]? = some attempt)
      (found : receipt.destinations[session]? = some current)
      (moves : current = .attempting ∨ current.isRetryable = true ∧ outcome.isGivenUp = true) :
      Changes N r receipt
        (.recordOutcome writeId r revisionId eventId session attempt outcome)
        (settle (receipt.withDestinations (receipt.destinations.insert session outcome)))
  | cancel (isOpen : receipt.isTerminal = false)
      (untouched : receipt.destinations.values.all RelayDeliveryOutcome.isPreHandoff = true) :
      Changes N r receipt (.cancel r) (cancelled receipt)
  | restart {action : Action} {updated : Receipt} {current : LocalWriteEvent}
      {route : Option RoutePlan} (event : UnsignedEvent)
      (source : Option EventId) (lanes : BTreeMap RelayUrl RelayDeliveryOutcome)
      (due : receipt.current.publication.signature ≠ .authorized ∨ Concludes N r receipt action)
      (origin : lanes = destinations receipt.routing ∨
        lanes = BTreeMap.constant (correctionDestinations receipt).toList .pending)
      (generated : nextGeneration r receipt event source lanes = .ok current)
      (applied : applyInitialRoute N (restarted receipt current) route = .ok updated) :
      Changes N r receipt action updated
  | correct {action : Action} {updated : Receipt} {current : LocalWriteEvent}
      {route : Option RoutePlan} (event : UnsignedEvent)
      (source : Option EventId) (isOpen : receipt.isTerminal = false)
      (unauthorized : receipt.current.publication.signature ≠ .authorized)
      (bounded : (correctionDestinations receipt).size ≤ destinationEvidenceCapacity)
      (generated : nextGeneration r receipt event source
        (BTreeMap.constant (correctionDestinations receipt).toList .pending) = .ok current)
      (applied : applyInitialRoute N
        { receipt with
          current := current
          outcome := .isOpen
          desiredDestinations := correctionDestinations receipt
          attempts := ∅ } route = .ok updated) :
      Changes N r receipt action updated

/-- How a receipt enters the ledger. -/
inductive Enters (N : Library) : ReceiptId → Receipt → Prop
  | accepted {fresh receipt : Receipt} {route : Option RoutePlan} {identity : Nat}
      (event : EventValue) (signature : SignatureState) (source : Option EventId)
      (routing : WriteRouting) (access : Authority) (counted : identity + 1 < counterBound)
      (undecided : (∃ unsigned, event = .unsigned unsigned) ∧ signature = .unsigned ∨
        (∃ signed, event = .signed signed) ∧ signature = .signed)
      (made : acceptedReceipt identity event signature source routing access = .ok fresh)
      (applied : applyInitialRoute N fresh route = .ok receipt) : Enters N identity receipt

variable {N : Library} {r : ReceiptId} {receipt updated : Receipt}

theorem pending_of_destinations {routing : WriteRouting} {session : RelayUrl}
    {outcome : RelayDeliveryOutcome} (h : (destinations routing)[session]? = some outcome) :
    outcome = .pending := by
  cases routing with
  | automatic => cases h
  | explicit relays =>
    rw [destinations, BTreeMap.find_constant] at h
    split at h
    · exact (Option.some.inj h).symm
    · cases h

theorem pending_of_constant {sessions : List RelayUrl} {session : RelayUrl}
    {outcome : RelayDeliveryOutcome}
    (h : (BTreeMap.constant sessions RelayDeliveryOutcome.pending)[session]? = some outcome) :
    outcome = .pending := by
  rw [BTreeMap.find_constant] at h
  split at h
  · exact (Option.some.inj h).symm
  · cases h

theorem pending_of_origin {lanes : BTreeMap RelayUrl RelayDeliveryOutcome}
    (origin : lanes = destinations receipt.routing ∨
      lanes = BTreeMap.constant (correctionDestinations receipt).toList .pending)
    {session : RelayUrl} {outcome : RelayDeliveryOutcome} (h : lanes[session]? = some outcome) :
    outcome = .pending := by
  obtain rfl | rfl := origin
  · exact pending_of_destinations h
  · exact pending_of_constant h

/-- No operation changes how a receipt is routed. -/
theorem routing_of_changes {action : Action} (changes : Changes N r receipt action updated) :
    updated.routing = receipt.routing := by
  cases changes with
  | route _ _ applied => exact congrArg (·.routing) (unrouted_of_applyRoute applied)
  | outcome => exact congrArg (·.routing) (unrouted_settle _)
  | restart _ _ _ _ _ _ applied => exact congrArg (·.routing) (applyInitialRoute_eq_ok applied).1
  | correct _ _ _ _ _ _ applied => exact congrArg (·.routing) (applyInitialRoute_eq_ok applied).1
  | _ => rfl

theorem names_of_unrouted (same : unrouted updated = unrouted receipt) :
    updated.receiptId = receipt.receiptId ∧ updated.writeId = receipt.writeId :=
  ⟨congrArg (·.receiptId) same, congrArg (·.writeId) same⟩

/-- No operation changes what a receipt is called. -/
theorem names_of_changes {action : Action} (changes : Changes N r receipt action updated) :
    updated.receiptId = receipt.receiptId ∧ updated.writeId = receipt.writeId := by
  cases changes with
  | route _ _ applied => exact names_of_unrouted (unrouted_of_applyRoute applied)
  | outcome => exact names_of_unrouted (unrouted_settle _)
  | restart _ _ _ _ _ _ applied | correct _ _ _ _ _ _ applied =>
    have same := names_of_unrouted (applyInitialRoute_eq_ok applied).1
    exact same
  | _ => exact ⟨rfl, rfl⟩

theorem names_of_enters (enters : Enters N r receipt) :
    receipt.receiptId = r ∧ receipt.writeId = r ∧ r + 1 < counterBound := by
  obtain ⟨event, signature, source, routing, access, counted, -, made, applied⟩ := enters
  obtain ⟨receiptId, writeId⟩ := names_of_unrouted (applyInitialRoute_eq_ok applied).1
  obtain ⟨current, -, made⟩ := bind_eq_ok.mp made
  obtain rfl := Except.ok.inj made
  exact ⟨receiptId, writeId, counted⟩

end Fava.WriteStore.Memory
