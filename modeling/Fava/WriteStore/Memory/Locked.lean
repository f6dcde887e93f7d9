import Fava.Lib.Guarded
import Fava.WriteStore.Memory.Transition

namespace Fava.WriteStore.Memory.Locked

open Std Fava.Lib Fava.Nostr Fava.Relay Fava.Routing Fava.Write

/-- The ledger behind the store's lock, and the changes of receipts it has sent so far. -/
structure MemoryWriteStore extends WriteState where
  receiptChanges : List (ReceiptId × Option Receipt)

def MemoryWriteStore.default : MemoryWriteStore := ⟨.default, []⟩

/-- An operation on the store, its writes in the order it makes them. -/
abbrev Transaction := Mutator WriteStoreError MemoryWriteStore

section Writes

def setRevision (revision : Nat) : Transaction Unit :=
  modify fun state => { state with revision := revision }

def insertWrite (receiptId : ReceiptId) (receipt : Receipt) : Transaction Unit :=
  modify fun state => { state with writes := state.writes.insert receiptId receipt }

/-- A write through the reference `get_mut` gave. -/
def changeWrite (receiptId : ReceiptId) (change : Receipt → Receipt) : Transaction Unit :=
  modify fun state => { state with writes := state.writes.modify receiptId change }

def insertEdits (receiptId : ReceiptId) (cell : SemanticCell) : Transaction Unit :=
  modify fun state => { state with edits := state.edits.insert receiptId cell }

def insertSuccessor (receiptId : ReceiptId) (successor : Successor) : Transaction Unit :=
  modify fun state => { state with successors := state.successors.insert receiptId successor }

def recordTaken (receiptId : ReceiptId) (edit : EventEdit) : Transaction Unit :=
  modify fun state => { state with taken := state.taken ++ [(receiptId, edit)] }

/-- Whoever follows receipts is told of one as it is now, or that it is gone. -/
def sendChange (receiptId : ReceiptId) (latest : Option Receipt) : Transaction Unit :=
  modify fun state => { state with
    receiptChanges := state.receiptChanges ++ [(receiptId, latest)] }

def publishReceipt (receipt : Receipt) : Transaction Unit :=
  sendChange receipt.receiptId (some receipt)

def releaseSemantic (receiptId : ReceiptId) : Transaction Unit := do
  modify fun state => { state with successors := state.successors.erase receiptId }
  let state ← get
  modify fun state => { state with edits := state.edits.erase receiptId }
  match state.edits[receiptId]? with
  | none => pure ()
  | some cell =>
    match cell.edits.getLast? with
    | none => pure ()
    | some edit =>
      modify fun state =>
        { state with coordinates := state.coordinates.erase (editCoordinate edit cell.author) }

end Writes

section Reservation

variable (capacity : Nat)

def reserveActiveSlot (edit : EventEdit) (author : PublicKey) : Transaction Nat := do
  let state ← get
  let coordinate := editCoordinate edit author
  ensure (¬isReserved state.toWriteState coordinate)
    (.refused "replaceable coordinate already has an active reservation")
  ensure (¬(state.coordinates[coordinate]?).any state.successors.contains)
    (.refused "replaceable coordinate already has a durable successor")
  ensure (state.coordinates.contains coordinate ∨ ¬capacityReached state.toWriteState capacity)
    (capacityRefusal capacity)
  let reservation := state.nextReservation
  ensure (reservation + 1 < counterBound) (.refused "active reservation exhausted")
  modify fun state => { state with nextReservation := reservation + 1 }
  modify fun state =>
    { state with reservations := state.reservations.insert reservation coordinate }
  return reservation

def releaseActiveSlot (reservation : Nat) : Transaction Unit := do
  let state ← get
  modify fun state => { state with reservations := state.reservations.erase reservation }
  match state.reservations[reservation]? with
  | none => throw (.refused "active reservation is not current")
  | some coordinate =>
    match state.coordinates[coordinate]?.bind (state.writes[·]?) with
    | none => pure ()
    | some receipt => publishReceipt receipt

end Reservation

section Acceptance

variable (N : Library) (capacity : Nat)

def accept (intent : WriteIntent) : Transaction AcceptedWrite := do
  let state ← get
  ensure (¬capacityReached state.toWriteState capacity) (capacityRefusal capacity)
  let identity := state.nextIdentity
  let next ← nextIdentity identity
  let (event, signature) ← completePayload intent.payload
  let receipt ← acceptedReceipt identity event signature none intent.routing intent.access
  let revision ← nextRevision state.revision
  modify fun state => { state with nextIdentity := next }
  setRevision revision
  insertWrite identity receipt
  publishReceipt receipt
  return ⟨identity, identity, receipt.current⟩

def composeSemantic (receiptId : ReceiptId) (edit : EventEdit) (author : PublicKey)
    (routing : WriteRouting) (event : UnsignedEvent) (source : Option EventValue)
    (initialRoute : Option RoutePlan) : Transaction AcceptedWrite := do
  let state ← get
  let receipt ← fetch state.writes[receiptId]? (.refused "coordinate owner is missing")
  let cell ← fetch state.edits[receiptId]? (.refused "semantic custody is missing")
  ensure (cell.author = author ∧ receipt.routing = routing)
    (.refused "same-coordinate edit author or routing differs from the active operation")
  ensure (receipt.current.event matches .unsigned _)
    (.refused "same-coordinate edit composition requires an unsigned current generation")
  let selected ← validateSource N edit author source
  ensure (source = some receipt.current.event ∧ selected.map Prod.fst = some receipt.current.id)
    (.refused "same-coordinate edit source is not the exact current generation")
  ensure (receipt.current.publication.retiredRevisions.length < destinationEvidenceCapacity)
    (.refused "retired revision evidence capacity reached")
  ensure (initialRoute.isNone ∨ receipt.routeRevision + 1 < counterBound)
    (.refused "route revision exhausted")
  let successorRoute := initialRoute.map ({ · with revision := receipt.routeRevision + 1 })
  let _ ← applyInitialRoute N receipt successorRoute
  if receipt.current.publication.signature = .authorized then do
    ensure (receiptId ∉ state.successors)
      (.refused "replaceable coordinate already has a durable successor")
    insertSuccessor receiptId ⟨some edit, event, cell.source, successorRoute⟩
    recordTaken receiptId edit
    publishReceipt receipt
    return ⟨receipt.writeId, receiptId, receipt.current⟩
  else do
    let current ← nextGeneration receiptId receipt event (cell.source.map Prod.fst)
      (destinations routing)
    let updated ← applyInitialRoute N (restarted receipt current) successorRoute
    let revision ← nextRevision state.revision
    setRevision revision
    if updated.isTerminal then do
      modify fun state =>
        { state with coordinates := state.coordinates.erase (editCoordinate edit author) }
      modify fun state => { state with edits := state.edits.erase receiptId }
    else insertEdits receiptId ⟨cell.edits ++ [edit], author, cell.source, none⟩
    insertWrite receiptId updated
    recordTaken receiptId edit
    publishReceipt updated
    return ⟨updated.writeId, receiptId, updated.current⟩

def takeReservation (reservation : Option Nat) (coordinate : EventCoordinate) :
    Transaction Unit :=
  match reservation with
  | none => pure ()
  | some reservation => do
    let state ← get
    let reserved ← fetch state.reservations[reservation]?
      (.refused "active reservation is not current")
    ensure (reserved = coordinate)
      (.refused "active reservation belongs to a different replaceable coordinate")
    modify fun state => { state with reservations := state.reservations.erase reservation }

def acceptEdit (now : Timestamp) (reserved : Bool) (edit : EventEdit) (author : PublicKey)
    (routing : WriteRouting) (access : Authority) (event : UnsignedEvent)
    (source : Option EventValue) (initialRoute : Option RoutePlan) : Transaction AcceptedWrite := do
  let state ← get
  let coordinate := editCoordinate edit author
  let selected ← validateRevision N now edit author event source routing
  match state.coordinates[coordinate]? with
  | some receiptId => do
    let receipt ← fetch state.writes[receiptId]? (.refused "coordinate owner is missing")
    let cell ← fetch state.edits[receiptId]? (.refused "semantic custody is missing")
    if isReplay N receipt cell edit author routing event selected initialRoute then
      return ⟨receipt.writeId, receipt.receiptId, receipt.current⟩
    else composeSemantic N receiptId edit author routing event source initialRoute
  | none => do
    ensure (reserved ∨ ¬capacityReached state.toWriteState capacity) (capacityRefusal capacity)
    let identity := state.nextIdentity
    let next ← nextIdentity identity
    let fresh ← acceptedReceipt identity (.unsigned event) .unsigned (selected.map Prod.fst)
      routing access
    let receipt ← applyInitialRoute N fresh initialRoute
    let revision ← nextRevision state.revision
    modify fun state => { state with nextIdentity := next }
    setRevision revision
    if receipt.isTerminal then pure ()
    else do
      modify fun state =>
        { state with coordinates := state.coordinates.insert coordinate identity }
      insertEdits identity ⟨[edit], author, selected, none⟩
    insertWrite identity receipt
    recordTaken identity edit
    publishReceipt receipt
    return ⟨identity, identity, receipt.current⟩

/-- The reservation is taken before the acceptance is checked. -/
def acceptSemanticInner (now : Timestamp) (reservation : Option Nat) (intent : WriteIntent)
    (event : UnsignedEvent) (source : Option EventValue) (initialRoute : Option RoutePlan) :
    Transaction AcceptedWrite :=
  match intent.payload with
  | .edit edit author => do
    takeReservation reservation (editCoordinate edit author)
    acceptEdit N capacity now reservation.isSome edit author intent.routing intent.access event
      source initialRoute
  | _ => throw (.refused "semantic acceptance requires a replaceable-event edit")

def acceptSemantic (now : Timestamp) (intent : WriteIntent) (event : UnsignedEvent)
    (source : Option EventValue) : Transaction AcceptedWrite :=
  acceptSemanticInner N capacity now none intent event source none

def acceptReservedSemantic (now : Timestamp) (reservation : Nat) (intent : WriteIntent)
    (event : UnsignedEvent) (source : Option EventValue) (initialRoute : Option RoutePlan) :
    Transaction AcceptedWrite :=
  acceptSemanticInner N capacity now (some reservation) intent event source initialRoute

end Acceptance

section Revision

variable (N : Library)

def installSemantic (now : Timestamp) (writeId : WriteId) (receiptId : ReceiptId)
    (expected : RevisionId) (expectedSource : Option EventId) (appliedEdits : List EventEdit)
    (event : UnsignedEvent) (source : Option EventValue) (initialRoute : Option RoutePlan) :
    Transaction Receipt := do
  let state ← get
  let receipt ← fetch state.writes[receiptId]? (.refused "receipt does not exist")
  let cell ← fetch state.edits[receiptId]? (.refused "semantic custody does not exist")
  requireCurrent receipt writeId expected expectedSource cell.source
  ensure (cell.edits = appliedEdits)
    (.refused "successor did not apply the complete durable semantic edit sequence")
  let edit ← fetch cell.edits.getLast? (.refused "semantic edit sequence is empty")
  let selected ← validateRevision N now edit cell.author event source receipt.routing
  if receipt.current.event = .unsigned event ∧
      receipt.current.publication.revisionSource = selected.map Prod.fst then
    return receipt
  else do
    requireQualifiedSource cell.source selected
    let eventId ← fetch event.id (.refused "successor revision has no stable id")
    ensure (eventIsNewer (event.createdAt, eventId)
        (receipt.current.event.createdAt, receipt.current.id))
      (.refused "successor revision is not newer than current event")
    ensure (receipt.current.publication.retiredRevisions.length < destinationEvidenceCapacity)
      (.refused "retired revision evidence capacity reached")
    let _ ← applyInitialRoute N receipt initialRoute
    if receipt.current.publication.signature = .authorized then do
      ensure (receiptId ∉ state.successors)
        (.refused "replaceable coordinate already has a durable successor")
      insertSuccessor receiptId ⟨none, event, selected, initialRoute⟩
      publishReceipt receipt
      return receipt
    else do
      let correction := correctionDestinations receipt
      ensure (correction.size ≤ destinationEvidenceCapacity)
        (.refused "correction destination capacity reached")
      let current ← nextGeneration receiptId receipt event (selected.map Prod.fst)
        (BTreeMap.constant correction.toList .pending)
      let updated ← applyInitialRoute N
        { receipt with
          current := current
          outcome := .isOpen
          desiredDestinations := correction
          attempts := ∅ } initialRoute
      let revision ← nextRevision state.revision
      setRevision revision
      insertEdits receiptId ⟨cell.edits, cell.author, selected, none⟩
      insertWrite receiptId updated
      publishReceipt updated
      return updated

def recordSemanticFailure (writeId : WriteId) (receiptId : ReceiptId) (expected : RevisionId)
    (expectedSource : Option EventId) (source : Option EventValue) (reason : String) :
    Transaction Receipt := do
  let state ← get
  let receipt ← fetch state.writes[receiptId]? (.refused "receipt does not exist")
  let cell ← fetch state.edits[receiptId]? (.refused "semantic custody does not exist")
  requireCurrent receipt writeId expected expectedSource cell.source
  let edit ← fetch cell.edits.getLast? (.refused "semantic edit sequence is empty")
  let failedSource ← validateSource N edit cell.author source
  requireFailureSource cell.source failedSource
  let failedSourceId := failedSource.map Prod.fst
  let failure := attributedFailure N expected failedSourceId reason
  if cell.failedSource = failedSourceId ∧
      receipt.current.publication.revisionFailure = some failure then
    return receipt
  else do
    let updated := receipt.withPublication
      { receipt.current.publication with revisionFailure := some failure }
    let revision ← nextRevision state.revision
    setRevision revision
    insertEdits receiptId { cell with failedSource := failedSourceId }
    insertWrite receiptId updated
    publishReceipt updated
    return updated

end Revision

section Signing

variable (N : Library)

/-- The successor is taken out before anything of it is checked. -/
def promoteAuthorizedSuccessor (receiptId : ReceiptId) : Transaction Receipt := do
  let state ← get
  let revision ← nextRevision state.revision
  modify fun state => { state with successors := state.successors.erase receiptId }
  let successor ← fetch state.successors[receiptId]?
    (.refused "durable semantic successor is missing")
  let receipt ← fetch state.writes[receiptId]? (.refused "coordinate owner is missing")
  let cell ← fetch state.edits[receiptId]? (.refused "semantic custody is missing")
  let lanes :=
    if successor.edit.isNone then
      BTreeMap.constant (correctionDestinations receipt).toList .pending
    else destinations receipt.routing
  let current ← nextGeneration receiptId receipt successor.event
    (successor.source.map Prod.fst) lanes
  let updated ← applyInitialRoute N (restarted receipt current) successor.route
  insertEdits receiptId
    ⟨cell.edits ++ successor.edit.toList, cell.author, successor.source, none⟩
  insertWrite receiptId updated
  setRevision revision
  publishReceipt updated
  return updated

def installSignedCurrent (writeId : WriteId) (receiptId : ReceiptId) (revisionId : RevisionId)
    (eventId : EventId) (event : Event) : Transaction Receipt := do
  (N.verify event).mapError WriteStoreError.refused
  let state ← get
  let receipt ← fetch state.writes[receiptId]? (.refused "receipt does not exist")
  validateCurrentRevision receipt writeId revisionId eventId
  match receipt.current.event with
  | .signed current =>
    if current = event then return receipt
    else throw (.refused "event is already signed differently")
  | .unsigned unsigned => do
    ensure (signs event unsigned) (.refused "signature does not match current unsigned event")
    ensure (receipt.current.publication.signature = .authorized ∨
        receipt.current.publication.signature = .signed)
      (.refused "signature completion was not authorized")
    let revision ← nextRevision state.revision
    if state.successors.contains receiptId then promoteAuthorizedSuccessor N receiptId
    else do
      let signed (receipt : Receipt) : Receipt :=
        { receipt with current := { receipt.current with event := .signed event } }
      changeWrite receiptId signed
      changeWrite receiptId (·.withSignature .signed)
      setRevision revision
      publishReceipt ((signed receipt).withSignature .signed)
      return (signed receipt).withSignature .signed

def recordSignerRefusalCurrent (writeId : WriteId) (receiptId : ReceiptId)
    (revisionId : RevisionId) (eventId : EventId) (reason : String) : Transaction Receipt := do
  validateReceiptText reason
  let state ← get
  let receipt ← fetch state.writes[receiptId]? (.refused "receipt does not exist")
  validateCurrentRevision receipt writeId revisionId eventId
  match receipt.current.publication.signature with
  | .refused current =>
    if current = reason then return receipt
    else throw (.refused "signer refusal is not current")
  | .unsigned | .retryable _ => throw (.refused "signer refusal was not authorized")
  | .signed => throw (.refused "signer refusal is not current")
  | .authorized => do
    let revision ← nextRevision state.revision
    if state.successors.contains receiptId then promoteAuthorizedSuccessor N receiptId
    else do
      changeWrite receiptId (·.withSignature (.refused reason))
      setRevision revision
      publishReceipt (receipt.withSignature (.refused reason))
      return receipt.withSignature (.refused reason)

def recordSignerRetryableCurrent (writeId : WriteId) (receiptId : ReceiptId)
    (revisionId : RevisionId) (eventId : EventId) (reason : String) : Transaction Receipt := do
  validateReceiptText reason
  let state ← get
  let receipt ← fetch state.writes[receiptId]? (.refused "receipt does not exist")
  validateCurrentRevision receipt writeId revisionId eventId
  ensure (receipt.current.publication.signature matches .unsigned | .authorized | .retryable _)
    (.refused "retryable signer failure is not current")
  if receipt.current.publication.signature = .authorized && state.successors.contains receiptId then
    promoteAuthorizedSuccessor N receiptId
  else do
    let revision ← nextRevision state.revision
    changeWrite receiptId (·.withSignature (.retryable reason))
    setRevision revision
    publishReceipt (receipt.withSignature (.retryable reason))
    return receipt.withSignature (.retryable reason)

def authorizeSigningCurrent (writeId : WriteId) (receiptId : ReceiptId) (revisionId : RevisionId)
    (eventId : EventId) : Transaction Receipt := do
  let state ← get
  let receipt ← fetch state.writes[receiptId]? (.refused "receipt does not exist")
  validateCurrentRevision receipt writeId revisionId eventId
  ensure (receipt.current.event matches .unsigned _) (.refused "event is already signed")
  match receipt.current.publication.signature with
  | .authorized => return receipt
  | .signed | .refused _ => throw (.refused "signing authorization is not current")
  | .unsigned | .retryable _ => do
    let signature := authorization N state.toWriteState writeId receiptId revisionId eventId
    if receipt.current.publication.signature = signature then return receipt
    else do
      let revision ← nextRevision state.revision
      changeWrite receiptId (·.withSignature signature)
      setRevision revision
      publishReceipt (receipt.withSignature signature)
      return receipt.withSignature signature

end Signing

section Delivery

variable (N : Library)

def applyRouteCurrent (writeId : WriteId) (receiptId : ReceiptId) (revisionId : RevisionId)
    (eventId : EventId) (plan : RoutePlan) : Transaction Receipt := do
  let state ← get
  let receipt ← fetch state.writes[receiptId]? (.refused "receipt does not exist")
  validateCurrentRevision receipt writeId revisionId eventId
  let updated ← applyRouteToReceipt N receipt plan
  if updated = receipt then return updated
  else do
    let revision ← nextRevision state.revision
    insertWrite receiptId updated
    setRevision revision
    if updated.isTerminal then releaseSemantic receiptId else pure ()
    publishReceipt updated
    return updated

def beginAttemptCurrent (writeId : WriteId) (receiptId : ReceiptId) (revisionId : RevisionId)
    (eventId : EventId) (session : RelayUrl) (attempt : Nat) : Transaction Receipt := do
  let state ← get
  let receipt ← fetch state.writes[receiptId]? (.refused "receipt does not exist")
  validateCurrentRevision receipt writeId revisionId eventId
  let currentAttempt := (receipt.attempts[session]?).getD 0
  if currentAttempt = attempt ∧ receipt.destinations[session]? = some .attempting then
    return receipt
  else do
    ensure (currentAttempt + 1 < 2 ^ 32) (.refused "attempt count exhausted")
    ensure (attempt = currentAttempt + 1) (.refused "attempt is not current")
    let outcome ← fetch receipt.destinations[session]? (.refused "destination does not exist")
    ensure outcome.isPreHandoff (.refused "destination is not pending")
    let revision ← nextRevision state.revision
    let attempting (receipt : Receipt) : Receipt :=
      receipt.withDestinations (receipt.destinations.insert session .attempting)
    let counted (receipt : Receipt) : Receipt :=
      { receipt with attempts := receipt.attempts.insert session attempt }
    changeWrite receiptId attempting
    changeWrite receiptId counted
    setRevision revision
    publishReceipt (counted (attempting receipt))
    return counted (attempting receipt)

def recordOutcomeCurrent (writeId : WriteId) (receiptId : ReceiptId) (revisionId : RevisionId)
    (eventId : EventId) (session : RelayUrl) (attempt : Nat) (outcome : RelayDeliveryOutcome) :
    Transaction Receipt := do
  validateDeliveryOutcome outcome
  ensure (outcome.isTerminal ∨ outcome.isRetryable)
    (.refused "recorded delivery outcome is not terminal or retryable")
  let state ← get
  let receipt ← fetch state.writes[receiptId]? (.refused "receipt does not exist")
  validateCurrentRevision receipt writeId revisionId eventId
  ensure (receipt.attempts[session]? = some attempt) (.refused "attempt is not current")
  let current ← fetch receipt.destinations[session]? (.refused "destination does not exist")
  if current = outcome then return receipt
  else do
    ensure (current = .attempting ∨ current.isRetryable ∧ outcome.isGivenUp)
      (.refused "attempt is not current")
    let revision ← nextRevision state.revision
    let delivered (receipt : Receipt) : Receipt :=
      receipt.withDestinations (receipt.destinations.insert session outcome)
    changeWrite receiptId delivered
    changeWrite receiptId settle
    setRevision revision
    let updated := settle (delivered receipt)
    if updated.isTerminal then releaseSemantic receiptId else pure ()
    publishReceipt updated
    return updated

def cancel (receiptId : ReceiptId) : Transaction (Option Receipt) := do
  let state ← get
  let revision ← nextRevision state.revision
  match state.writes[receiptId]? with
  | none => return none
  | some receipt =>
    if receipt.outcome = .cancelled then return some receipt
    else do
      ensure (¬receipt.isTerminal ∧
          receipt.destinations.values.all RelayDeliveryOutcome.isPreHandoff)
        (.refused "receipt can no longer be cancelled before handoff")
      let dropped (receipt : Receipt) : Receipt :=
        receipt.withDestinations (receipt.destinations.map fun _ _ => .cancelledBeforeHandoff)
      changeWrite receiptId dropped
      changeWrite receiptId ({ · with outcome := .cancelled })
      setRevision revision
      releaseSemantic receiptId
      publishReceipt { dropped receipt with outcome := .cancelled }
      return some { dropped receipt with outcome := .cancelled }

def removeReceipt (receiptId : ReceiptId) : Transaction Bool := do
  let state ← get
  ensure (¬(state.writes[receiptId]?).any fun receipt => !receipt.isTerminal)
    (.refused "active receipt cannot be removed")
  if receiptId ∈ state.writes then do
    let revision ← nextRevision state.revision
    releaseSemantic receiptId
    modify fun state => { state with writes := state.writes.erase receiptId }
    setRevision revision
    sendChange receiptId none
    return true
  else return false

end Delivery

section InOrder

theorem atomically_eq {α : Type} (f : WriteState → Except WriteStoreError (α × WriteState))
    (s : WriteState) : atomically f s = settled s (f s) := by
  unfold atomically settled
  cases f s <;> rfl

/-- Every receipt is kept under its own identity. -/
def Keyed (state : WriteState) : Prop :=
  ∀ (r : ReceiptId) (receipt : Receipt), state.writes[r]? = some receipt → receipt.receiptId = r

/-- Whatever receipt is changed between the two, a change of it is sent. -/
def Announces (s t : MemoryWriteStore) : Prop :=
  ∃ more, t.receiptChanges = s.receiptChanges ++ more ∧ (Keyed s.toWriteState →
    ∀ r : ReceiptId, t.writes[r]? ≠ s.writes[r]? → ∃ change ∈ more, change.1 = r)

/-- A call ends as an operation does that writes at its end, and announces what it changed; it
announces nothing if it is refused. -/
structure EndsAs {α : Type} (s : MemoryWriteStore) (expected : Except WriteStoreError α × WriteState)
    (ended : Except WriteStoreError α × MemoryWriteStore) : Prop where
  same : (ended.1, ended.2.toWriteState) = expected
  announces : Announces s ended.2
  silent : ended.1.isOk = false → ended.2.receiptChanges = s.receiptChanges

variable {α β : Type} {s t : MemoryWriteStore} {receiptId : ReceiptId} {receipt : Receipt}

namespace EndsAs

variable {expected : Except WriteStoreError β × WriteState}
  {ended ended' : Except WriteStoreError β × MemoryWriteStore}

theorem of_eq (is : ended = ended') (ends : EndsAs s expected ended') : EndsAs s expected ended :=
  is ▸ ends

/-- No receipt is changed, and nothing is sent. -/
theorem quiet (same : (ended.1, ended.2.toWriteState) = expected)
    (writes : ended.2.writes = s.writes) (sent : ended.2.receiptChanges = s.receiptChanges) :
    EndsAs s expected ended := by
  refine ⟨same, ⟨[], ?_, fun _ r differs => ?_⟩, fun _ => sent⟩
  · rw [sent, List.append_nil]
  · exact absurd (by rw [writes]) differs

/-- At most one receipt is changed, and it is told of. -/
theorem tells {answer : β} {latest : Option Receipt}
    (same : (ended.1, ended.2.toWriteState) = expected) (done : ended.1 = .ok answer)
    (elsewhere : Keyed s.toWriteState →
      ∀ r : ReceiptId, r ≠ receiptId → ended.2.writes[r]? = s.writes[r]?)
    (sent : ended.2.receiptChanges = s.receiptChanges ++ [(receiptId, latest)]) :
    EndsAs s expected ended := by
  refine ⟨same, ⟨_, sent, fun keyed r differs => ?_⟩, fun refused => ?_⟩
  · refine ⟨_, List.mem_singleton.mpr rfl, ?_⟩
    by_contra other
    exact differs (elsewhere keyed r (Ne.symm other))
  · rw [done] at refused
    cases refused

/-- One receipt is written and published. -/
theorem published {answer : β} (same : (ended.1, ended.2.toWriteState) = expected)
    (done : ended.1 = .ok answer) (writes : ended.2.writes = s.writes.insert receiptId receipt)
    (sent : ended.2.receiptChanges = s.receiptChanges ++ [(receipt.receiptId, some receipt)])
    (named : Keyed s.toWriteState → receipt.receiptId = receiptId) : EndsAs s expected ended := by
  refine tells same done (fun keyed r differs => ?_) sent
  rw [named keyed] at differs
  rw [writes, BTreeMap.find_insert, if_neg (Ne.symm differs)]

/-- What was written before changes no receipt and sends nothing. -/
theorem after (writes : t.writes = s.writes) (sent : t.receiptChanges = s.receiptChanges)
    (ends : EndsAs t expected ended) : EndsAs s expected ended := by
  obtain ⟨same, ⟨more, later, told⟩, silent⟩ := ends
  refine ⟨same, ⟨more, later.trans (by rw [sent]), fun keyed r differs => ?_⟩,
    fun refused => (silent refused).trans sent⟩
  unfold Keyed at keyed told
  rw [← writes] at keyed differs
  exact told keyed r differs

/-- A step that may fail and writes nothing. -/
theorem check {x : Except WriteStoreError α} {next : α → Transaction β}
    {g : α → Except WriteStoreError (β × WriteState)}
    (rest : ∀ a, x = .ok a → EndsAs s (settled s.toWriteState (g a)) (leaves (next a) s)) :
    EndsAs s (settled s.toWriteState (x >>= g)) (leaves (liftM x >>= next) s) :=
  leaves_check (fun expected ended => EndsAs s (settled s.toWriteState expected) ended)
    (fun _ => quiet rfl rfl rfl) rest

theorem record {next : Nat → Transaction β} {g : WriteState → Except WriteStoreError (β × WriteState)}
    (rest : ∀ revision, EndsAs s (settled s.toWriteState (g { s.toWriteState with
      revision := revision, writes := s.writes.insert receiptId receipt })) (leaves (next revision) s)) :
    EndsAs s (settled s.toWriteState (s.record receiptId receipt >>= g))
      (leaves (liftM (nextRevision s.revision) >>= next) s) := by
  unfold WriteState.record
  rw [bind_assoc]
  exact check fun revision _ => rest revision

end EndsAs

/-- What is written through a reference is written in place. -/
theorem leaves_changeWrite (found : s.writes[receiptId]? = some receipt)
    (change : Receipt → Receipt) (next : Unit → Transaction β) :
    leaves (changeWrite receiptId change >>= next) s =
      leaves (next ()) { s with writes := s.writes.insert receiptId (change receipt) } := by
  rw [← BTreeMap.modify_of_getElem? found change]
  rfl

theorem leaves_changeWrites (found : s.writes[receiptId]? = some receipt)
    (first second : Receipt → Receipt) (next : Unit → Transaction β) :
    leaves (changeWrite receiptId first >>= fun _ => changeWrite receiptId second >>= next) s =
      leaves (next ()) { s with writes := s.writes.insert receiptId (second (first receipt)) } := by
  rw [← BTreeMap.modify_of_getElem? found fun receipt => second (first receipt),
    ← BTreeMap.modify_modify]
  rfl

theorem leaves_releaseSemantic (receiptId : ReceiptId) (s : MemoryWriteStore) :
    leaves (releaseSemantic receiptId) s =
      (.ok (), { s with toWriteState := Memory.releaseSemantic s.toWriteState receiptId }) := by
  unfold releaseSemantic Memory.releaseSemantic
  rw [leaves_modify_bind, leaves_get_bind, leaves_modify_bind]
  cases s.edits[receiptId]? with
  | none => rfl
  | some cell =>
    dsimp only
    cases cell.edits.getLast? <;> rfl

theorem leaves_releaseTerminal (receipt : Receipt) (receiptId : ReceiptId) (t : MemoryWriteStore)
    (next : Unit → Transaction β) :
    leaves (if receipt.isTerminal then releaseSemantic receiptId >>= next else next ()) t =
      leaves (next ()) { t with toWriteState :=
        if receipt.isTerminal then Memory.releaseSemantic t.toWriteState receiptId
        else t.toWriteState } := by
  split
  · exact leaves_bind next (leaves_releaseSemantic receiptId t)
  · rfl

variable {N : Library} {capacity : Nat}

theorem named_of_route {route : Option RoutePlan} {updated : Receipt}
    (applied : applyInitialRoute N receipt route = .ok updated) :
    updated.receiptId = receipt.receiptId :=
  congrArg (·.receiptId) (applyInitialRoute_eq_ok applied).1

theorem ends_reserveActiveSlot (edit : EventEdit) (author : PublicKey) :
    EndsAs s (Memory.reserveActiveSlot capacity edit author s.toWriteState)
      (leaves (reserveActiveSlot capacity edit author) s) := by
  unfold reserveActiveSlot Memory.reserveActiveSlot
  rw [leaves_get_bind, atomically_eq]
  refine .check fun _ _ => ?_
  refine .check fun _ _ => ?_
  refine .check fun _ _ => ?_
  exact .check fun _ _ => .quiet rfl rfl rfl

/-- Who holds the coordinate is told that it is free. -/
theorem ends_releaseActiveSlot (reservation : Nat) :
    EndsAs s (Memory.releaseActiveSlot reservation s.toWriteState)
      (leaves (releaseActiveSlot reservation) s) := by
  unfold releaseActiveSlot Memory.releaseActiveSlot
  rw [leaves_get_bind, leaves_modify_bind, atomically_eq]
  cases found : s.reservations[reservation]? with
  | none =>
    have gone : reservation ∉ s.reservations := by simpa using found
    rw [require, if_neg gone]
    refine .quiet ?_ rfl rfl
    change (_, { s.toWriteState with reservations := s.reservations.erase reservation }) = _
    rw [BTreeMap.erase_of_not_mem gone]
    rfl
  | some coordinate =>
    have held : reservation ∈ s.reservations :=
      ExtTreeMap.mem_iff_isSome_getElem?.mpr (Option.isSome_of_eq_some found)
    rw [require, if_pos held]
    dsimp only
    split
    · exact .quiet rfl rfl rfl
    · exact .tells rfl rfl (fun _ _ _ => rfl) rfl

theorem ends_accept (intent : WriteIntent) :
    EndsAs s (Memory.accept capacity intent s.toWriteState) (leaves (accept capacity intent) s) := by
  unfold accept Memory.accept
  rw [leaves_get_bind, atomically_eq]
  refine .check fun _ _ => ?_
  refine .check fun _ _ => ?_
  refine .check fun payload _ => ?_
  refine .check fun receipt made => ?_
  obtain ⟨current, -, made⟩ := bind_eq_ok.mp made
  obtain rfl := Except.ok.inj made
  exact .record fun revision => .published rfl rfl rfl rfl fun _ => rfl

theorem ends_composeSemantic (receiptId : ReceiptId) (edit : EventEdit) (author : PublicKey)
    (routing : WriteRouting) (event : UnsignedEvent) (source : Option EventValue)
    (initialRoute : Option RoutePlan) :
    EndsAs s (settled s.toWriteState
        (Memory.composeSemantic N receiptId edit author routing event source initialRoute s.toWriteState))
      (leaves (composeSemantic N receiptId edit author routing event source initialRoute) s) := by
  unfold composeSemantic Memory.composeSemantic
  rw [leaves_get_bind]
  refine .check fun receipt found => ?_
  refine .check fun cell _ => ?_
  refine .check fun _ _ => ?_
  refine .check fun _ _ => ?_
  refine .check fun _ _ => ?_
  refine .check fun _ _ => ?_
  refine .check fun _ _ => ?_
  refine .check fun _ _ => ?_
  refine .check fun _ _ => ?_
  by_cases authorized : receipt.current.publication.signature = .authorized
  · rw [if_pos authorized, if_pos authorized]
    exact .check fun _ _ => .tells rfl rfl (fun _ _ _ => rfl) rfl
  · rw [if_neg authorized, if_neg authorized]
    refine .check fun current _ => ?_
    refine .check fun updated applied => ?_
    refine .record fun revision => ?_
    have named (keyed : Keyed s.toWriteState) : updated.receiptId = receiptId :=
      (named_of_route applied).trans (keyed _ receipt (of_demand found))
    cases updated.isTerminal <;> exact .published rfl rfl rfl rfl named

/-- What a reservation leaves in the store that was taken, or could not be. -/
def taken (s : MemoryWriteStore) :
    Except WriteStoreError WriteState → Except WriteStoreError Unit × MemoryWriteStore
  | .ok state => (.ok (), { s with toWriteState := state })
  | .error error => (.error error, s)

theorem leaves_takeReservation (reservation : Option Nat) (coordinate : EventCoordinate) :
    leaves (takeReservation reservation coordinate) s =
      taken s (Memory.takeReservation reservation coordinate s.toWriteState) := by
  unfold takeReservation Memory.takeReservation
  cases reservation with
  | none => rfl
  | some reservation =>
    dsimp only
    rw [leaves_get_bind]
    refine leaves_check (fun expected ended => ended = taken s expected) (fun _ => rfl) fun _ _ => ?_
    exact leaves_check (fun expected ended => ended = taken s expected) (fun _ => rfl) fun _ _ => rfl

theorem ends_acceptEdit (now : Timestamp) (reserved : Bool) (edit : EventEdit)
    (author : PublicKey) (routing : WriteRouting) (access : Authority) (event : UnsignedEvent)
    (source : Option EventValue) (initialRoute : Option RoutePlan) :
    EndsAs s (settled s.toWriteState (Memory.acceptEdit N capacity now reserved edit author routing
        access event source initialRoute s.toWriteState))
      (leaves (acceptEdit N capacity now reserved edit author routing access event source
        initialRoute) s) := by
  unfold acceptEdit Memory.acceptEdit
  rw [leaves_get_bind]
  refine .check fun selected _ => ?_
  cases s.coordinates[editCoordinate edit author]? with
  | some receiptId =>
    refine .check fun receipt _ => ?_
    refine .check fun cell _ => ?_
    split
    · exact .quiet rfl rfl rfl
    · exact ends_composeSemantic ..
  | none =>
    refine .check fun _ _ => ?_
    refine .check fun next _ => ?_
    refine .check fun fresh made => ?_
    refine .check fun receipt applied => ?_
    refine .record fun revision => ?_
    obtain ⟨current, -, made⟩ := bind_eq_ok.mp made
    obtain rfl := Except.ok.inj made
    have named (_ : Keyed s.toWriteState) : receipt.receiptId = s.nextIdentity :=
      named_of_route applied
    cases receipt.isTerminal <;> exact .published rfl rfl rfl rfl named

theorem ends_acceptSemanticInner (now : Timestamp) (reservation : Option Nat)
    (intent : WriteIntent) (event : UnsignedEvent) (source : Option EventValue)
    (initialRoute : Option RoutePlan) :
    EndsAs s (Memory.acceptSemanticInner N capacity now reservation intent event source initialRoute
        s.toWriteState)
      (leaves (acceptSemanticInner N capacity now reservation intent event source initialRoute) s) := by
  unfold acceptSemanticInner Memory.acceptSemanticInner
  cases intent.payload with
  | event | presigned => exact .quiet rfl rfl rfl
  | edit edit author =>
    dsimp only
    have writes := leaves_takeReservation (s := s) reservation (editCoordinate edit author)
    cases took : Memory.takeReservation reservation (editCoordinate edit author) s.toWriteState with
    | error error =>
      rw [took] at writes
      exact .of_eq (leaves_bind_error _ writes) (.quiet rfl rfl rfl)
    | ok state =>
      rw [took] at writes
      dsimp only
      rw [atomically_eq]
      have kept : state.writes = s.writes := (receipts_of_takeReservation took).1
      exact .of_eq (leaves_bind _ writes) (.after (t := { s with toWriteState := state }) kept rfl
        (ends_acceptEdit ..))

theorem ends_installSemantic (now : Timestamp) (writeId : WriteId) (receiptId : ReceiptId)
    (expected : RevisionId) (expectedSource : Option EventId) (appliedEdits : List EventEdit)
    (event : UnsignedEvent) (source : Option EventValue) (initialRoute : Option RoutePlan) :
    EndsAs s (Memory.installSemantic N now writeId receiptId expected expectedSource appliedEdits event
        source initialRoute s.toWriteState)
      (leaves (installSemantic N now writeId receiptId expected expectedSource appliedEdits event source
        initialRoute) s) := by
  unfold installSemantic Memory.installSemantic
  rw [leaves_get_bind, atomically_eq]
  refine .check fun receipt found => ?_
  refine .check fun cell _ => ?_
  refine .check fun _ _ => ?_
  refine .check fun _ _ => ?_
  refine .check fun edit _ => ?_
  refine .check fun selected _ => ?_
  split
  · exact .quiet rfl rfl rfl
  · refine .check fun _ _ => ?_
    refine .check fun eventId _ => ?_
    refine .check fun _ _ => ?_
    refine .check fun _ _ => ?_
    refine .check fun _ _ => ?_
    split
    · exact .check fun _ _ => .tells rfl rfl (fun _ _ _ => rfl) rfl
    · refine .check fun _ _ => ?_
      refine .check fun current _ => ?_
      refine .check fun updated applied => ?_
      exact .record fun revision => .published rfl rfl rfl rfl fun keyed =>
        (named_of_route applied).trans (keyed _ receipt (of_demand found))

theorem ends_recordSemanticFailure (writeId : WriteId) (receiptId : ReceiptId)
    (expected : RevisionId) (expectedSource : Option EventId) (source : Option EventValue)
    (reason : String) :
    EndsAs s (Memory.recordSemanticFailure N writeId receiptId expected expectedSource source reason
        s.toWriteState)
      (leaves (recordSemanticFailure N writeId receiptId expected expectedSource source reason) s) := by
  unfold recordSemanticFailure Memory.recordSemanticFailure
  rw [leaves_get_bind, atomically_eq]
  refine .check fun receipt found => ?_
  refine .check fun cell _ => ?_
  refine .check fun _ _ => ?_
  refine .check fun edit _ => ?_
  refine .check fun failedSource _ => ?_
  refine .check fun _ _ => ?_
  dsimp only
  split
  · exact .quiet rfl rfl rfl
  · exact .record fun revision => .published rfl rfl rfl rfl fun keyed => keyed _ receipt (of_demand found)

theorem ends_promoteAuthorizedSuccessor (receiptId : ReceiptId) :
    EndsAs s (Memory.promoteAuthorizedSuccessor N receiptId s.toWriteState)
      (leaves (promoteAuthorizedSuccessor N receiptId) s) := by
  unfold promoteAuthorizedSuccessor Memory.promoteAuthorizedSuccessor
  rw [leaves_get_bind]
  cases later : nextRevision s.revision with
  | error error => exact .quiet rfl rfl rfl
  | ok revision =>
    cases waiting : s.successors[receiptId]? with
    | none =>
      have same : s.successors.erase receiptId = s.successors :=
        BTreeMap.erase_of_not_mem (by simpa using waiting)
      refine .quiet ?_ rfl rfl
      change (_, { s.toWriteState with successors := s.successors.erase receiptId }) = _
      rw [same]
      rfl
    | some successor =>
      dsimp only
      rw [atomically_eq]
      refine .after (t := { s with successors := s.successors.erase receiptId }) rfl rfl ?_
      change EndsAs _ _ (leaves _ { s with successors := s.successors.erase receiptId })
      refine .check fun receipt found => ?_
      refine .check fun cell _ => ?_
      refine .check fun current _ => ?_
      refine .check fun updated applied => ?_
      unfold WriteState.record
      rw [later]
      exact .published rfl rfl rfl rfl fun keyed =>
        (named_of_route applied).trans (keyed _ receipt (of_demand found))

/-- A step that may fail and writes nothing, on the way to what a result of signing stands for. -/
theorem EndsAs.standing {promotes : WriteState → Receipt → Bool} {recorded : Receipt → Receipt}
    {standing : WriteState → Except WriteStoreError Standing} {x : Except WriteStoreError α}
    {next : α → Transaction Receipt} {g : α → Except WriteStoreError Standing}
    (made : standing s.toWriteState = x >>= g)
    (rest : ∀ a, x = .ok a → EndsAs s
      (concludeSigning N receiptId promotes (fun _ => g a) recorded s.toWriteState)
      (leaves (next a) s)) :
    EndsAs s (concludeSigning N receiptId promotes standing recorded s.toWriteState)
      (leaves (liftM x >>= next) s) := by
  unfold concludeSigning
  rw [made]
  cases x with
  | error error => exact .quiet rfl rfl rfl
  | ok a => exact rest a rfl

/-- A result that counts: a successor that waits takes over, and it is recorded otherwise. -/
theorem EndsAs.concluded {recorded : Receipt → Receipt} {record : Nat → Transaction Receipt}
    (written : ∀ revision, leaves (record revision) s = (.ok (recorded receipt), { s with
      revision := revision
      writes := s.writes.insert receiptId (recorded receipt)
      receiptChanges :=
        s.receiptChanges ++ [((recorded receipt).receiptId, some (recorded receipt))] }))
    (named : Keyed s.toWriteState → (recorded receipt).receiptId = receiptId) :
    EndsAs s (concludeSigning N receiptId (fun state _ => state.successors.contains receiptId)
        (fun _ => .ok (.current receipt)) recorded s.toWriteState)
      (leaves (liftM (nextRevision s.revision) >>= fun revision =>
        if s.successors.contains receiptId then promoteAuthorizedSuccessor N receiptId
        else record revision) s) := by
  unfold concludeSigning
  dsimp only
  split
  · cases later : nextRevision s.revision with
    | error error =>
      rw [Memory.promoteAuthorizedSuccessor, later]
      exact .quiet rfl rfl rfl
    | ok revision => exact ends_promoteAuthorizedSuccessor receiptId
  · rw [atomically_eq]
    exact .record fun revision => .of_eq (written revision) (.published rfl rfl rfl rfl named)

theorem ends_installSignedCurrent (writeId : WriteId) (receiptId : ReceiptId)
    (revisionId : RevisionId) (eventId : EventId) (event : Event) :
    EndsAs s (Memory.installSignedCurrent N writeId receiptId revisionId eventId event s.toWriteState)
      (leaves (installSignedCurrent N writeId receiptId revisionId eventId event) s) := by
  unfold installSignedCurrent Memory.installSignedCurrent
  refine .standing rfl fun _ _ => ?_
  rw [leaves_get_bind]
  refine .standing rfl fun receipt found => ?_
  refine .standing rfl fun _ _ => ?_
  cases receipt.current.event with
  | signed current =>
    unfold concludeSigning
    by_cases replay : current = event
    · simp only [if_pos replay]
      exact .quiet rfl rfl rfl
    · simp only [if_neg replay]
      exact .quiet rfl rfl rfl
  | unsigned unsigned =>
    refine .standing rfl fun _ _ => ?_
    refine .standing rfl fun _ _ => ?_
    refine .concluded (fun revision => ?_) fun keyed => keyed _ receipt (of_demand found)
    rw [leaves_changeWrites (of_demand found)]
    rfl

theorem ends_recordSignerRefusalCurrent (writeId : WriteId) (receiptId : ReceiptId)
    (revisionId : RevisionId) (eventId : EventId) (reason : String) :
    EndsAs s
      (Memory.recordSignerRefusalCurrent N writeId receiptId revisionId eventId reason s.toWriteState)
      (leaves (recordSignerRefusalCurrent N writeId receiptId revisionId eventId reason) s) := by
  unfold recordSignerRefusalCurrent Memory.recordSignerRefusalCurrent
  refine .standing rfl fun _ _ => ?_
  rw [leaves_get_bind]
  refine .standing rfl fun receipt found => ?_
  refine .standing rfl fun _ _ => ?_
  cases receipt.current.publication.signature with
  | authorized =>
    refine .concluded (fun revision => ?_) fun keyed => keyed _ receipt (of_demand found)
    rw [leaves_changeWrite (of_demand found)]
    rfl
  | refused current =>
    unfold concludeSigning
    by_cases replay : current = reason
    · simp only [if_pos replay]
      exact .quiet rfl rfl rfl
    · simp only [if_neg replay]
      exact .quiet rfl rfl rfl
  | unsigned | retryable | signed => exact .quiet rfl rfl rfl

theorem ends_recordSignerRetryableCurrent (writeId : WriteId) (receiptId : ReceiptId)
    (revisionId : RevisionId) (eventId : EventId) (reason : String) :
    EndsAs s
      (Memory.recordSignerRetryableCurrent N writeId receiptId revisionId eventId reason s.toWriteState)
      (leaves (recordSignerRetryableCurrent N writeId receiptId revisionId eventId reason) s) := by
  unfold recordSignerRetryableCurrent Memory.recordSignerRetryableCurrent
  refine .standing rfl fun _ _ => ?_
  rw [leaves_get_bind]
  refine .standing rfl fun receipt found => ?_
  refine .standing rfl fun _ _ => ?_
  refine .standing (g := fun _ => .ok (.current receipt)) ?_ fun _ _ => ?_
  · cases receipt.current.publication.signature <;> rfl
  · unfold concludeSigning
    dsimp only
    by_cases promotes : (decide (receipt.current.publication.signature = .authorized) &&
        s.successors.contains receiptId) = true
    · rw [if_pos promotes, if_pos promotes]
      exact ends_promoteAuthorizedSuccessor receiptId
    · rw [if_neg promotes, if_neg promotes, atomically_eq]
      refine .record fun revision => ?_
      rw [leaves_changeWrite (of_demand found)]
      exact .published rfl rfl rfl rfl fun keyed => keyed _ receipt (of_demand found)

theorem ends_authorizeSigningCurrent (writeId : WriteId) (receiptId : ReceiptId)
    (revisionId : RevisionId) (eventId : EventId) :
    EndsAs s (Memory.authorizeSigningCurrent N writeId receiptId revisionId eventId s.toWriteState)
      (leaves (authorizeSigningCurrent N writeId receiptId revisionId eventId) s) := by
  unfold authorizeSigningCurrent Memory.authorizeSigningCurrent
  rw [leaves_get_bind, atomically_eq]
  refine .check fun receipt found => ?_
  refine .check fun _ _ => ?_
  refine .check fun _ _ => ?_
  cases receipt.current.publication.signature with
  | authorized | signed | refused => exact .quiet rfl rfl rfl
  | unsigned | retryable =>
    dsimp only
    split
    · exact .quiet rfl rfl rfl
    · refine .record fun revision => ?_
      rw [leaves_changeWrite (of_demand found)]
      exact .published rfl rfl rfl rfl fun keyed => keyed _ receipt (of_demand found)

theorem ends_applyRouteCurrent (writeId : WriteId) (receiptId : ReceiptId)
    (revisionId : RevisionId) (eventId : EventId) (plan : RoutePlan) :
    EndsAs s (Memory.applyRouteCurrent N writeId receiptId revisionId eventId plan s.toWriteState)
      (leaves (applyRouteCurrent N writeId receiptId revisionId eventId plan) s) := by
  unfold applyRouteCurrent Memory.applyRouteCurrent
  rw [leaves_get_bind, atomically_eq]
  refine .check fun receipt found => ?_
  refine .check fun _ _ => ?_
  refine .check fun updated applied => ?_
  split
  · exact .quiet rfl rfl rfl
  · refine .record fun revision => .of_eq (leaves_releaseTerminal updated receiptId _
      fun _ => publishReceipt updated >>= fun _ => pure updated) ?_
    have named (keyed : Keyed s.toWriteState) : updated.receiptId = receiptId := by
      rw [(names_of_unrouted (unrouted_of_applyRoute applied)).1]
      exact keyed _ receipt (of_demand found)
    cases updated.isTerminal <;> exact .published rfl rfl rfl rfl named

theorem ends_beginAttemptCurrent (writeId : WriteId) (receiptId : ReceiptId)
    (revisionId : RevisionId) (eventId : EventId) (session : RelayUrl) (attempt : Nat) :
    EndsAs s
      (Memory.beginAttemptCurrent writeId receiptId revisionId eventId session attempt s.toWriteState)
      (leaves (beginAttemptCurrent writeId receiptId revisionId eventId session attempt) s) := by
  unfold beginAttemptCurrent Memory.beginAttemptCurrent
  rw [leaves_get_bind, atomically_eq]
  refine .check fun receipt found => ?_
  refine .check fun _ _ => ?_
  dsimp only
  split
  · exact .quiet rfl rfl rfl
  · refine .check fun _ _ => ?_
    refine .check fun _ _ => ?_
    refine .check fun _ _ => ?_
    refine .check fun _ _ => ?_
    refine .record fun revision => ?_
    rw [leaves_changeWrites (of_demand found)]
    exact .published rfl rfl rfl rfl fun keyed => keyed _ receipt (of_demand found)

theorem ends_recordOutcomeCurrent (writeId : WriteId) (receiptId : ReceiptId)
    (revisionId : RevisionId) (eventId : EventId) (session : RelayUrl) (attempt : Nat)
    (outcome : RelayDeliveryOutcome) :
    EndsAs s (Memory.recordOutcomeCurrent writeId receiptId revisionId eventId session attempt outcome
        s.toWriteState)
      (leaves (recordOutcomeCurrent writeId receiptId revisionId eventId session attempt outcome) s) := by
  unfold recordOutcomeCurrent Memory.recordOutcomeCurrent
  rw [atomically_eq]
  refine .check fun _ _ => ?_
  refine .check fun _ _ => ?_
  rw [leaves_get_bind]
  refine .check fun receipt found => ?_
  refine .check fun _ _ => ?_
  refine .check fun _ _ => ?_
  refine .check fun current _ => ?_
  split
  · exact .quiet rfl rfl rfl
  · refine .check fun _ _ => ?_
    refine .record fun revision => ?_
    rw [leaves_changeWrites (of_demand found)]
    generalize is : settle (receipt.withDestinations (receipt.destinations.insert session outcome)) =
      updated
    have named (keyed : Keyed s.toWriteState) : updated.receiptId = receiptId := by
      rw [← is, (names_of_unrouted (unrouted_settle _)).1]
      exact keyed _ receipt (of_demand found)
    refine .of_eq (leaves_releaseTerminal updated receiptId _
      fun _ => publishReceipt updated >>= fun _ => pure updated) ?_
    cases updated.isTerminal <;> exact .published rfl rfl rfl rfl named

theorem ends_cancel (receiptId : ReceiptId) :
    EndsAs s (Memory.cancel receiptId s.toWriteState) (leaves (cancel receiptId) s) := by
  unfold cancel Memory.cancel
  rw [leaves_get_bind, atomically_eq]
  refine .check fun revision _ => ?_
  cases found : s.writes[receiptId]? with
  | none => exact .quiet rfl rfl rfl
  | some receipt =>
    dsimp only
    split
    · exact .quiet rfl rfl rfl
    · refine .check fun _ _ => ?_
      rw [leaves_changeWrites found, setRevision, leaves_modify_bind]
      exact .of_eq (leaves_bind _ (leaves_releaseSemantic receiptId _))
        (.published rfl rfl rfl rfl fun keyed => keyed _ receipt found)

theorem ends_removeReceipt (receiptId : ReceiptId) :
    EndsAs s (Memory.removeReceipt receiptId s.toWriteState) (leaves (removeReceipt receiptId) s) := by
  unfold removeReceipt Memory.removeReceipt
  rw [leaves_get_bind, atomically_eq]
  refine .check fun _ _ => ?_
  split
  · refine .check fun revision _ => .of_eq (leaves_bind _ (leaves_releaseSemantic receiptId s)) ?_
    refine .tells rfl rfl (fun _ r differs => ?_) rfl
    change (s.writes.erase receiptId)[r]? = _
    rw [BTreeMap.find_erase, if_neg (Ne.symm differs)]
  · exact .quiet rfl rfl rfl

end InOrder

end Fava.WriteStore.Memory.Locked
