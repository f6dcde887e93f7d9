import Fava.WriteStore.Receipt

namespace Fava.WriteStore

open Std Fava.Lib Fava.Nostr Fava.Relay Fava.Routing Fava.Write

/-- An event an edit was applied to, by its identifier and its time. -/
abbrev Source := EventId × Timestamp

/-- A generation that waits until the signing of the current one is decided. -/
structure Successor where
  edit : Option EventEdit
  event : UnsignedEvent
  source : Option Source
  route : Option RoutePlan

def nextIdentity (current : Nat) : Except WriteStoreError Nat :=
  if current + 1 < counterBound then .ok (current + 1)
  else .error (.refused "write identity exhausted")

def nextRevision (revision : Nat) : Except WriteStoreError Nat :=
  if revision + 1 < counterBound then .ok (revision + 1)
  else .error (.refused "source revision exhausted")

def destinations : WriteRouting → BTreeMap RelayUrl RelayDeliveryOutcome
  | .automatic => ∅
  | .explicit relays => BTreeMap.constant relays .pending

def settle (receipt : Receipt) : Receipt :=
  if receipt.routeSettled ∧ receipt.allTerminal then
    { receipt with
      outcome := if receipt.desiredDestinations.isEmpty then .noDestination else .complete }
  else receipt

/-- The signed event is the unsigned one with a signature. -/
def signs (event : Event) (unsigned : UnsignedEvent) : Prop :=
  unsigned = ⟨some event.id, event.pubkey, event.createdAt, event.kind, event.tags, event.content⟩

instance (event : Event) (unsigned : UnsignedEvent) : Decidable (signs event unsigned) :=
  inferInstanceAs (Decidable (unsigned = _))

/-- The start of the text that attributes a failure to a generation and a source. -/
def failureAttribution (N : Library) (revisionId : RevisionId) (source : Option EventId) : String :=
  "revision " ++ toString revisionId ++ " from source " ++
    (source.map N.idToHex).getD "empty state" ++ " failed"

def attributedFailure (N : Library) (revisionId : RevisionId) (source : Option EventId)
    (reason : String) : String :=
  let attribution := failureAttribution N revisionId source
  let attributed := attribution ++ ": " ++ reason
  if (validateReceiptText attributed).isOk then attributed else attribution

/-- A source qualifies if it is newer than the current one, or one of them is absent. -/
def qualified : Option Source → Option Source → Bool
  | none, some _ | some _, none => true
  | some (currentId, currentTime), some (candidateId, candidateTime) =>
    eventIsNewer (candidateTime, candidateId) (currentTime, currentId)
  | none, none => false

def requireQualifiedSource (current candidate : Option Source) : Except WriteStoreError Unit :=
  require (qualified current candidate) (.refused "source event is equal, older, or already consumed")

def requireFailureSource (current failed : Option Source) : Except WriteStoreError Unit :=
  if current = failed then .ok () else requireQualifiedSource current failed

def requireCurrent (receipt : Receipt) (writeId : WriteId) (expected : RevisionId)
    (expectedSource : Option EventId) (currentSource : Option Source) :
    Except WriteStoreError Unit :=
  if receipt.isTerminal ∨ receipt.writeId ≠ writeId ∨
      receipt.current.publication.revisionId ≠ expected ∨
      currentSource.map Prod.fst ≠ expectedSource then
    .error (.refused "semantic revision is not current")
  else .ok ()

section Validation

variable (N : Library)

def verifySource : EventValue → Except WriteStoreError Unit
  | .signed event => (N.verify event).mapError .refused
  | .unsigned event => (N.verifyId event).mapError .refused

def validateSource (edit : EventEdit) (author : PublicKey) (source : Option EventValue) :
    Except WriteStoreError (Option Source) :=
  match source with
  | none => .ok none
  | some source => do
    verifySource N source
    let id ← demand source.id (.refused "revision source has no event id")
    require (eventCoordinate N id source.author source.kind source.tags = editCoordinate edit author)
      (.refused "revision source does not match edit coordinate")
    .ok (some (id, source.createdAt))

def eventCoordinateOfUnsigned (event : UnsignedEvent) : Except WriteStoreError EventCoordinate := do
  let id ← demand event.id (.refused "revision has no event id")
  .ok (eventCoordinate N id event.pubkey event.kind event.tags)

/-- Check that an event is a sound revision of an edit's coordinate, newer than the
source it was made from. -/
def validateRevision (now : Timestamp) (edit : EventEdit) (author : PublicKey)
    (event : UnsignedEvent) (source : Option EventValue) (routing : WriteRouting) :
    Except WriteStoreError (Option Source) := do
  let _ ← (WriteIntent.event N now event routing).mapError .invalidIntent
  let mismatch := WriteStoreError.refused "revision actor or coordinate does not match edit"
  require (event.pubkey = author) mismatch
  let coordinate ← eventCoordinateOfUnsigned N event
  require (coordinate = editCoordinate edit author) mismatch
  let selected ← validateSource N edit author source
  match selected with
  | none => .ok none
  | some (sourceId, sourceTime) => do
    let eventId ← demand event.id (.refused "revision has no stable id")
    require (eventIsNewer (event.createdAt, eventId) (sourceTime, sourceId))
      (.refused "revision is not newer than its selected source")
    .ok selected

end Validation

/-- The receipt of a newly accepted write. -/
def acceptedReceipt (identity : Nat) (event : EventValue) (signature : SignatureState)
    (source : Option EventId) (routing : WriteRouting) (access : Authority) :
    Except WriteStoreError Receipt := do
  let lanes := destinations routing
  let current ← (LocalWriteEvent.new event
    { receiptId := identity
      writeId := identity
      revisionId := RevisionId.first
      revisionSource := source
      revisionFailure := none
      retiredRevisions := []
      signature := signature
      destinations := lanes }).mapError .invalidEvent
  .ok
    { writeId := identity
      receiptId := identity
      current := current
      routing := routing
      access := access
      outcome := .isOpen
      routeRevision := routing.isExplicit.toNat
      routeSettled := routing.isExplicit
      routeShortfalls := []
      desiredDestinations := lanes.keySet
      attempts := ∅ }

/-- The generation that replaces the current one of a receipt. -/
def nextGeneration (receiptId : ReceiptId) (receipt : Receipt) (event : UnsignedEvent)
    (source : Option EventId) (lanes : BTreeMap RelayUrl RelayDeliveryOutcome) :
    Except WriteStoreError LocalWriteEvent := do
  let revisionId ← demand (RevisionId.checkedNext receipt.current.publication.revisionId)
    (.refused "revision identity exhausted")
  (LocalWriteEvent.new (.unsigned event)
    { receiptId := receiptId
      writeId := receipt.writeId
      revisionId := revisionId
      revisionSource := source
      revisionFailure := none
      retiredRevisions := receipt.current.publication.retiredRevisions ++ [receipt.retirement]
      signature := .unsigned
      destinations := lanes }).mapError .invalidEvent

/-- A receipt whose new generation is routed from the beginning. -/
def restarted (receipt : Receipt) (current : LocalWriteEvent) : Receipt :=
  { receipt with
    current := current
    outcome := .isOpen
    routeRevision := receipt.routing.isExplicit.toNat
    routeSettled := receipt.routing.isExplicit
    routeShortfalls := []
    desiredDestinations := current.publication.destinations.keySet
    attempts := ∅ }

/-- Every relay a receipt still wants or has tried. -/
def correctionDestinations (receipt : Receipt) : BTreeSet RelayUrl :=
  receipt.desiredDestinations.union receipt.destinations.keySet

/-- Apply a plan when there is one. -/
def applyInitialRoute (N : Library) (receipt : Receipt) :
    Option RoutePlan → Except WriteStoreError Receipt
  | none => .ok receipt
  | some plan => applyRouteToReceipt N receipt plan

theorem unrouted_settle (receipt : Receipt) : unrouted (settle receipt) = unrouted receipt := by
  unfold settle
  split <;> rfl

theorem open_of_requireCurrent {receipt : Receipt} {writeId : WriteId} {expected : RevisionId}
    {expectedSource : Option EventId} {currentSource : Option Source} {u : Unit}
    (h : requireCurrent receipt writeId expected expectedSource currentSource = .ok u) :
    receipt.isTerminal = false := by
  unfold requireCurrent at h
  split at h
  · cases h
  · rename_i current
    simpa using fun terminal => current (.inl terminal)

section Specifications

variable {N : Library} {now : Timestamp} {edit : EventEdit} {author : PublicKey}
  {event : UnsignedEvent} {source : Option EventValue} {routing : WriteRouting}
  {selected : Option Source} {receipt updated : Receipt} {route : Option RoutePlan}

theorem eventCoordinateOfUnsigned_eq_ok {coordinate : EventCoordinate}
    (h : eventCoordinateOfUnsigned N event = .ok coordinate) :
    (EventValue.unsigned event).coordinate N = .ok coordinate := by
  obtain ⟨id, known, h⟩ := demand_bind_eq_ok.mp h
  rw [← Except.ok.inj h, EventValue.coordinate]
  simp only [EventValue.id, known, EventValue.author, EventValue.kind, EventValue.tags]

/-- A validated revision is the edit author's event at the edit's coordinate. -/
theorem validateRevision_eq_ok
    (h : validateRevision N now edit author event source routing = .ok selected) :
    event.pubkey = author ∧
      (EventValue.unsigned event).coordinate N = .ok (editCoordinate edit author) := by
  obtain ⟨_, -, h⟩ := bind_eq_ok.mp h
  obtain ⟨written, h⟩ := require_bind_eq_ok.mp h
  obtain ⟨coordinate, found, h⟩ := bind_eq_ok.mp h
  obtain ⟨rfl, -⟩ := require_bind_eq_ok.mp h
  exact ⟨written, eventCoordinateOfUnsigned_eq_ok found⟩

theorem applyInitialRoute_eq_ok (h : applyInitialRoute N receipt route = .ok updated) :
    unrouted updated = unrouted receipt ∧ ∀ plan ∈ route, PlanFits N receipt.routing plan := by
  cases route with
  | none =>
    obtain rfl := Except.ok.inj h
    exact ⟨rfl, by simp⟩
  | some plan =>
    refine ⟨unrouted_of_applyRoute h, ?_⟩
    rintro _ ⟨⟩
    exact PlanFits.of_applyRoute h

/-- A first route that changes a receipt is newer than the one it follows. -/
theorem applyInitialRoute_cases (h : applyInitialRoute N receipt route = .ok updated) :
    updated = receipt ∨ ∃ plan ∈ route, receipt.routing = .automatic ∧
      receipt.routeRevision < plan.revision ∧
      applyNewerRouteToReceipt N receipt plan = .ok updated := by
  cases route with
  | none => exact .inl (Except.ok.inj h).symm
  | some plan =>
    obtain same | newer := applyRoute_cases h
    · exact .inl same
    · exact .inr ⟨plan, rfl, newer⟩

theorem nextGeneration_eq_ok {r : ReceiptId} {source : Option EventId}
    {lanes : BTreeMap RelayUrl RelayDeliveryOutcome} {current : LocalWriteEvent}
    (h : nextGeneration r receipt event source lanes = .ok current) :
    ∃ id, event.id = some id ∧ current = ⟨id, .unsigned event,
      { receiptId := r
        writeId := receipt.writeId
        revisionId := receipt.current.publication.revisionId + 1
        revisionSource := source
        revisionFailure := none
        retiredRevisions := receipt.current.publication.retiredRevisions ++ [receipt.retirement]
        signature := .unsigned
        destinations := lanes }⟩ := by
  obtain ⟨next, counted, h⟩ := demand_bind_eq_ok.mp h
  rw [RevisionId.checkedNext] at counted
  split at counted
  · obtain rfl := Option.some.inj counted
    rw [mapError_eq_ok, LocalWriteEvent.new] at h
    split at h
    · cases h
    · rename_i id known
      exact ⟨id, known, (Except.ok.inj h).symm⟩
  · cases counted

theorem lanes_of_acceptedReceipt {identity : Nat} {value : EventValue}
    {signature : SignatureState} {selected : Option EventId} {access : Authority}
    (h : acceptedReceipt identity value signature selected routing access = .ok receipt) :
    receipt.destinations = destinations routing ∧
      receipt.desiredDestinations = (destinations routing).keySet := by
  obtain ⟨current, made, h⟩ := bind_eq_ok.mp h
  rw [mapError_eq_ok, LocalWriteEvent.new] at made
  split at made
  · cases made
  · obtain rfl := Except.ok.inj made
    obtain rfl := Except.ok.inj h
    exact ⟨rfl, rfl⟩

end Specifications

end Fava.WriteStore
