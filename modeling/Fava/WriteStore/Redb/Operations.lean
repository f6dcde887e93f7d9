import Fava.WriteStore.Redb.Store

namespace Fava.WriteStore.Redb

open Std Fava.Lib Fava.Nostr Fava.Relay Fava.Routing Fava.Write

section Revision

variable (N : Library) (W : Codec PersistedReceipt)

/-- Replace the current generation by one made from another source, or keep it until
the signing of the current one is decided. -/
def installSemantic (now : Timestamp) (writeId : WriteId) (receiptId : ReceiptId)
    (expected : RevisionId) (expectedSource : Option EventId) (appliedEdits : List EventEdit)
    (event : UnsignedEvent) (source : Option EventValue) (initialRoute : Option RoutePlan) :
    Operation Receipt :=
  atomically fun store => do
    let receipt ← demand store.state.receipts[receiptId]? (.refused "receipt does not exist")
    let custody ← demand store.state.semantics[receiptId]? (.refused "semantic custody does not exist")
    requireCurrent receipt writeId expected expectedSource custody.currentSource
    require (custody.edits = appliedEdits)
      (.refused "successor did not apply the complete durable semantic edit sequence")
    let edit ← demand custody.edits.getLast? (.refused "semantic edit sequence is empty")
    let selected ← validateRevision N now edit custody.author event source receipt.routing
    if receipt.current.event = .unsigned event ∧
        receipt.current.publication.revisionSource = selected.map Prod.fst then
      .ok (receipt, store)
    else do
      requireQualifiedSource custody.currentSource selected
      let eventId ← demand event.id (.refused "successor revision has no stable id")
      require (eventIsNewer (event.createdAt, eventId)
          (receipt.current.event.createdAt, receipt.current.id))
        (.refused "successor revision is not newer than current event")
      require (receipt.current.publication.retiredRevisions.length < destinationEvidenceCapacity)
        (.refused "retired revision evidence capacity reached")
      let _ ← applyInitialRoute N receipt initialRoute
      if receipt.current.publication.signature = .authorized then do
        require (custody.successor.isNone)
          (.refused "replaceable coordinate already has a durable successor")
        let waiting : SemanticCustody := ⟨custody.edits, custody.author, custody.currentSource, none,
          some ⟨none, event, selected, initialRoute⟩⟩
        let store ← store.commit W none [⟨receipt, some waiting⟩] []
        .ok (receipt, { store with state := { store.state with
          semantics := store.state.semantics.insert receiptId waiting } })
      else do
        let correction := correctionDestinations receipt
        require (correction.size ≤ destinationEvidenceCapacity)
          (.refused "correction destination capacity reached")
        let current ← nextGeneration receiptId receipt event (selected.map Prod.fst)
          (BTreeMap.constant correction.toList .pending)
        let updated ← applyInitialRoute N
          { receipt with
            current := current
            outcome := .isOpen
            desiredDestinations := correction
            attempts := ∅ } initialRoute
        let corrected : SemanticCustody := ⟨custody.edits, custody.author, selected, none, none⟩
        let store ← store.put W receiptId updated (some corrected)
        .ok (updated, { store with state := { store.state with
          semantics := store.state.semantics.insert receiptId corrected } })

/-- Attribute one failure to the generation and the source that produced it. -/
def recordSemanticFailure (writeId : WriteId) (receiptId : ReceiptId) (expected : RevisionId)
    (expectedSource : Option EventId) (source : Option EventValue) (reason : String) :
    Operation Receipt :=
  atomically fun store => do
    let receipt ← demand store.state.receipts[receiptId]? (.refused "receipt does not exist")
    let custody ← demand store.state.semantics[receiptId]? (.refused "semantic custody does not exist")
    requireCurrent receipt writeId expected expectedSource custody.currentSource
    let edit ← demand custody.edits.getLast? (.refused "semantic edit sequence is empty")
    let failedSource ← validateSource N edit custody.author source
    requireFailureSource custody.currentSource failedSource
    let failedSourceId := failedSource.map Prod.fst
    let failure := attributedFailure N expected failedSourceId reason
    if custody.failedSource = failedSourceId ∧
        receipt.current.publication.revisionFailure = some failure then
      .ok (receipt, store)
    else do
      let updated := receipt.withPublication
        { receipt.current.publication with revisionFailure := some failure }
      let failed := { custody with failedSource := failedSourceId }
      let store ← store.put W receiptId updated (some failed)
      .ok (updated, { store with state := { store.state with
        semantics := store.state.semantics.insert receiptId failed } })

end Revision

section Signing

variable (N : Library) (W : Codec PersistedReceipt)

/-- Record a receipt with the custody it has. -/
def commitReceipt (receipt : Receipt) (store : Store) : Except WriteStoreError (Receipt × Store) := do
  let store ← store.put W receipt.receiptId receipt store.state.semantics[receipt.receiptId]?
  .ok (receipt, store)

/-- Make the waiting generation the current one. -/
def promoteAuthorizedSuccessor (receiptId : ReceiptId) (store : Store) :
    Except WriteStoreError (Receipt × Store) := do
  let missing := WriteStoreError.refused "durable semantic successor is missing"
  let custody ← demand store.state.semantics[receiptId]? missing
  let successor ← demand custody.successor missing
  let receipt ← demand store.state.receipts[receiptId]? (.refused "coordinate owner is missing")
  require (receipt.current.publication.signature = .authorized)
    (.refused "durable successor predecessor is not authorized")
  let lanes :=
    if successor.edit.isNone then
      BTreeMap.constant (correctionDestinations receipt).toList .pending
    else destinations receipt.routing
  let current ← nextGeneration receiptId receipt successor.event (successor.source.map Prod.fst) lanes
  let updated ← applyInitialRoute N (restarted receipt current) successor.route
  let promoted : SemanticCustody := ⟨custody.edits ++ successor.edit.toList, custody.author,
    successor.source, none, none⟩
  let store ← store.put W receiptId updated (some promoted)
  .ok (updated, { store with state := { store.state with
    semantics := store.state.semantics.insert receiptId promoted } })

def authorizeSigningCurrent (writeId : WriteId) (receiptId : ReceiptId) (revisionId : RevisionId)
    (eventId : EventId) : Operation Receipt :=
  atomically fun store => do
    let receipt ← demand store.state.receipts[receiptId]? (.refused "receipt does not exist")
    validateCurrentRevision receipt writeId revisionId eventId
    require (receipt.current.event matches .unsigned _) (.refused "event is already signed")
    match receipt.current.publication.signature with
    | .authorized => .ok (receipt, store)
    | .signed | .refused _ => .error (.refused "signing authorization is not current")
    | .unsigned | .retryable _ => do
      let reserved := (store.state.semantics[receiptId]?).any fun custody =>
        custody.edits.getLast?.any fun edit =>
          isReserved store.state (editCoordinate edit custody.author)
      let signature :=
        if reserved then .retryable (Memory.deferral N writeId receiptId revisionId eventId)
        else .authorized
      if receipt.current.publication.signature = signature then .ok (receipt, store)
      else do
        let updated := receipt.withSignature signature
        let store ← store.put W receiptId updated store.state.semantics[receiptId]?
        .ok (updated, store)

def recordSignerRetryableCurrent (writeId : WriteId) (receiptId : ReceiptId)
    (revisionId : RevisionId) (eventId : EventId) (reason : String) : Operation Receipt :=
  atomically fun store => do
    validateReceiptText reason
    let receipt ← demand store.state.receipts[receiptId]? (.refused "receipt does not exist")
    validateCurrentRevision receipt writeId revisionId eventId
    match receipt.current.publication.signature with
    | .signed | .refused _ => .error (.refused "retryable signer failure is not current")
    | .authorized =>
      if hasSuccessor store.state receiptId then promoteAuthorizedSuccessor N W receiptId store
      else commitReceipt W (receipt.withSignature (.retryable reason)) store
    | .unsigned | .retryable _ => commitReceipt W (receipt.withSignature (.retryable reason)) store

def installSignedCurrent (writeId : WriteId) (receiptId : ReceiptId) (revisionId : RevisionId)
    (eventId : EventId) (event : Event) : Operation Receipt :=
  atomically fun store => do
    (N.verify event).mapError .refused
    let receipt ← demand store.state.receipts[receiptId]? (.refused "receipt does not exist")
    validateCurrentRevision receipt writeId revisionId eventId
    match receipt.current.event with
    | .signed current =>
      if current = event then .ok (receipt, store)
      else .error (.refused "event is already signed differently")
    | .unsigned unsigned => do
      require (signs event unsigned) (.refused "signature does not match current unsigned event")
      require (receipt.current.publication.signature = .authorized)
        (.refused "signature completion was not authorized")
      if hasSuccessor store.state receiptId then promoteAuthorizedSuccessor N W receiptId store
      else
        commitReceipt W
          { receipt.withSignature .signed with
            current := { (receipt.withSignature .signed).current with event := .signed event } } store

def recordSignerRefusalCurrent (writeId : WriteId) (receiptId : ReceiptId)
    (revisionId : RevisionId) (eventId : EventId) (reason : String) : Operation Receipt :=
  atomically fun store => do
    validateReceiptText reason
    let receipt ← demand store.state.receipts[receiptId]? (.refused "receipt does not exist")
    validateCurrentRevision receipt writeId revisionId eventId
    if receipt.current.publication.signature = .refused reason then .ok (receipt, store)
    else do
      require (receipt.current.publication.signature = .authorized)
        (.refused "signer refusal was not authorized")
      if hasSuccessor store.state receiptId then promoteAuthorizedSuccessor N W receiptId store
      else commitReceipt W (receipt.withSignature (.refused reason)) store

end Signing

section Delivery

variable (N : Library) (W : Codec PersistedReceipt)

def applyRouteCurrent (writeId : WriteId) (revisionId : RevisionId) (eventId : EventId)
    (plan : RoutePlan) (receipt : Receipt) : Except WriteStoreError Receipt := do
  validateCurrentRevision receipt writeId revisionId eventId
  applyRouteToReceipt N receipt plan

def beginAttemptCurrent (writeId : WriteId) (revisionId : RevisionId) (eventId : EventId)
    (session : RelayUrl) (attempt : Nat) (receipt : Receipt) : Except WriteStoreError Receipt := do
  validateCurrentRevision receipt writeId revisionId eventId
  require (receipt.current.event matches .signed _) (.refused "event is not signed")
  let currentAttempt := (receipt.attempts[session]?).getD 0
  if currentAttempt = attempt ∧ receipt.destinations[session]? = some .attempting then .ok receipt
  else do
    require (currentAttempt + 1 < 2 ^ 32) (.refused "attempt count exhausted")
    require (attempt = currentAttempt + 1) (.refused "attempt is not current")
    let outcome ← demand receipt.destinations[session]? (.refused "destination does not exist")
    require outcome.isPreHandoff (.refused "destination is not pending")
    .ok { receipt.withDestinations (receipt.destinations.insert session .attempting) with
      attempts := receipt.attempts.insert session attempt }

def recordOutcomeCurrent (writeId : WriteId) (revisionId : RevisionId) (eventId : EventId)
    (session : RelayUrl) (attempt : Nat) (outcome : RelayDeliveryOutcome) (receipt : Receipt) :
    Except WriteStoreError Receipt := do
  validateCurrentRevision receipt writeId revisionId eventId
  require (receipt.attempts[session]? = some attempt) (.refused "attempt is not current")
  let current ← demand receipt.destinations[session]? (.refused "destination does not exist")
  if current = outcome then .ok receipt
  else do
    require (current = .attempting ∨ current.isRetryable ∧ outcome.isGivenUp)
      (.refused "attempt is not current")
    .ok (settle (receipt.withDestinations (receipt.destinations.insert session outcome)))

def cancelCurrent (receipt : Receipt) : Except WriteStoreError Receipt := do
  require (¬receipt.isTerminal ∧ receipt.destinations.values.all RelayDeliveryOutcome.isPreHandoff)
    (.refused "receipt can no longer be cancelled before handoff")
  .ok (Memory.cancelled receipt)

def recordOutcome (writeId : WriteId) (receiptId : ReceiptId) (revisionId : RevisionId)
    (eventId : EventId) (session : RelayUrl) (attempt : Nat) (outcome : RelayDeliveryOutcome) :
    Operation Receipt := fun store =>
  match validateDeliveryOutcome outcome with
  | .error error => (.error error, store)
  | .ok _ =>
    if outcome.isTerminal ∨ outcome.isRetryable then
      update W receiptId (recordOutcomeCurrent writeId revisionId eventId session attempt outcome) store
    else (.error (.refused "recorded delivery outcome is not terminal or retryable"), store)

def cancel (receiptId : ReceiptId) : Operation (Option Receipt) := fun store =>
  match store.state.receipts[receiptId]? with
  | none => (.ok none, store)
  | some current =>
    if current.outcome = .cancelled then (.ok (some current), store)
    else
      let (answer, store) := update W receiptId cancelCurrent store
      (answer.map some, store)

def removeReceipt (receiptId : ReceiptId) : Operation Bool :=
  atomically fun store => do
    require (¬(store.state.receipts[receiptId]?).any fun receipt => !receipt.isTerminal)
      (.refused "active receipt cannot be removed")
    if receiptId ∈ store.state.receipts then do
      let revision ← nextRevision store.state.revision
      let store ← store.commit W none [] [receiptId]
      .ok (true, { store with state := { evict store.state receiptId with revision := revision } })
    else .ok (false, store)

end Delivery

section System

variable (N : Library) (W : Codec PersistedReceipt)

/-- An operation without its answer. -/
def Operation.outcome {α : Type} (operation : Operation α) : Operation Unit := fun store =>
  ((operation store).1.map fun _ => (), (operation store).2)

/-- One call of the store, by the names both stores have for it. -/
def perform : Memory.Action → Operation Unit
  | .reserveActive edit author => (reserveActiveSlot edit author).outcome
  | .releaseActive reservation => (releaseActiveSlot reservation).outcome
  | .accept intent => (accept W intent).outcome
  | .acceptAppliedEdit now intent event source => (acceptSemantic N W now intent event source).outcome
  | .acceptReservedAppliedEdit now reservation intent event source initialRoute =>
    (acceptReservedSemantic N W now reservation intent event source initialRoute).outcome
  | .installRevision now writeId receiptId expected expectedSource appliedEdits event source
      initialRoute =>
    (installSemantic N W now writeId receiptId expected expectedSource appliedEdits event source
      initialRoute).outcome
  | .recordRevisionFailure writeId receiptId expected expectedSource source reason =>
    (recordSemanticFailure N W writeId receiptId expected expectedSource source reason).outcome
  | .installSigned writeId receiptId revisionId eventId event =>
    (installSignedCurrent N W writeId receiptId revisionId eventId event).outcome
  | .authorizeSigning writeId receiptId revisionId eventId =>
    (authorizeSigningCurrent N W writeId receiptId revisionId eventId).outcome
  | .recordSignerRetryable writeId receiptId revisionId eventId reason =>
    (recordSignerRetryableCurrent N W writeId receiptId revisionId eventId reason).outcome
  | .recordSignerRefusal writeId receiptId revisionId eventId reason =>
    (recordSignerRefusalCurrent N W writeId receiptId revisionId eventId reason).outcome
  | .applyRoute writeId receiptId revisionId eventId plan =>
    (update W receiptId (applyRouteCurrent N writeId revisionId eventId plan)).outcome
  | .beginAttempt writeId receiptId revisionId eventId session attempt =>
    (update W receiptId (beginAttemptCurrent writeId revisionId eventId session attempt)).outcome
  | .recordOutcome writeId receiptId revisionId eventId session attempt outcome =>
    (recordOutcome W writeId receiptId revisionId eventId session attempt outcome).outcome
  | .cancel receiptId => (cancel W receiptId).outcome
  | .removeReceipt receiptId => (removeReceipt W receiptId).outcome

end System

end Fava.WriteStore.Redb
