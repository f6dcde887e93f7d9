import Fava.WriteStore.Memory.Store
import Fava.Lib.Run

namespace Fava.WriteStore.Memory

open Std Fava.Lib Fava.Nostr Fava.Relay Fava.Routing Fava.Write

section Revision

variable (N : Library)

/-- Replace the current generation by one made from another source, or keep it until
the signing of the current one is decided. -/
def installSemantic (now : Timestamp) (writeId : WriteId) (receiptId : ReceiptId)
    (expected : RevisionId) (expectedSource : Option EventId) (appliedEdits : List EventEdit)
    (event : UnsignedEvent) (source : Option EventValue) (initialRoute : Option RoutePlan) :
    Operation Receipt :=
  atomically fun state => do
    let receipt ← demand state.writes[receiptId]? (.refused "receipt does not exist")
    let cell ← demand state.edits[receiptId]? (.refused "semantic custody does not exist")
    requireCurrent receipt writeId expected expectedSource cell.source
    require (cell.edits = appliedEdits)
      (.refused "successor did not apply the complete durable semantic edit sequence")
    let edit ← demand cell.edits.getLast? (.refused "semantic edit sequence is empty")
    let selected ← validateRevision N now edit cell.author event source receipt.routing
    if receipt.current.event = .unsigned event ∧
        receipt.current.publication.revisionSource = selected.map Prod.fst then
      .ok (receipt, state)
    else do
      requireQualifiedSource cell.source selected
      let eventId ← demand event.id (.refused "successor revision has no stable id")
      require (eventIsNewer (event.createdAt, eventId)
          (receipt.current.event.createdAt, receipt.current.id))
        (.refused "successor revision is not newer than current event")
      require (receipt.current.publication.retiredRevisions.length < destinationEvidenceCapacity)
        (.refused "retired revision evidence capacity reached")
      let _ ← applyInitialRoute N receipt initialRoute
      if receipt.current.publication.signature = .authorized then do
        require (receiptId ∉ state.successors)
          (.refused "replaceable coordinate already has a durable successor")
        .ok (receipt,
          { state with
            successors := state.successors.insert receiptId ⟨none, event, selected, initialRoute⟩ })
      else do
        let correction := correctionDestinations receipt
        require (correction.size ≤ destinationEvidenceCapacity)
          (.refused "correction destination capacity reached")
        let current ← nextGeneration receiptId receipt event (selected.map Prod.fst)
          (BTreeMap.constant correction.toList .pending)
        let updated ← applyInitialRoute N
          { receipt with
            current := current
            outcome := .isOpen
            desiredDestinations := correction
            attempts := ∅ } initialRoute
        let recorded ← state.record receiptId updated
        .ok (updated,
          { recorded with
            edits := state.edits.insert receiptId ⟨cell.edits, cell.author, selected, none⟩ })

/-- Attribute one failure to the generation and the source that produced it. -/
def recordSemanticFailure (writeId : WriteId) (receiptId : ReceiptId) (expected : RevisionId)
    (expectedSource : Option EventId) (source : Option EventValue) (reason : String) :
    Operation Receipt :=
  atomically fun state => do
    let receipt ← demand state.writes[receiptId]? (.refused "receipt does not exist")
    let cell ← demand state.edits[receiptId]? (.refused "semantic custody does not exist")
    requireCurrent receipt writeId expected expectedSource cell.source
    let edit ← demand cell.edits.getLast? (.refused "semantic edit sequence is empty")
    let failedSource ← validateSource N edit cell.author source
    requireFailureSource cell.source failedSource
    let failedSourceId := failedSource.map Prod.fst
    let failure := attributedFailure N expected failedSourceId reason
    if cell.failedSource = failedSourceId ∧
        receipt.current.publication.revisionFailure = some failure then
      .ok (receipt, state)
    else do
      let updated := receipt.withPublication
        { receipt.current.publication with revisionFailure := some failure }
      let recorded ← state.record receiptId updated
      .ok (updated,
        { recorded with
          edits := state.edits.insert receiptId { cell with failedSource := failedSourceId } })

end Revision

section Signing

variable (N : Library)

/-- Make the waiting generation the current one. It no longer waits even if this is
then refused. -/
def promoteAuthorizedSuccessor (receiptId : ReceiptId) : Operation Receipt := fun state =>
  match nextRevision state.revision with
  | .error error => (.error error, state)
  | .ok _ =>
    match state.successors[receiptId]? with
    | none => (.error (.refused "durable semantic successor is missing"), state)
    | some successor =>
      let waitless := { state with successors := state.successors.erase receiptId }
      atomically (fun state => do
        let receipt ← demand state.writes[receiptId]? (.refused "coordinate owner is missing")
        let cell ← demand state.edits[receiptId]? (.refused "semantic custody is missing")
        let lanes :=
          if successor.edit.isNone then
            BTreeMap.constant (correctionDestinations receipt).toList .pending
          else destinations receipt.routing
        let current ← nextGeneration receiptId receipt successor.event
          (successor.source.map Prod.fst) lanes
        let updated ← applyInitialRoute N (restarted receipt current) successor.route
        let recorded ← state.record receiptId updated
        .ok (updated,
          { recorded with
            edits := state.edits.insert receiptId
              ⟨cell.edits ++ successor.edit.toList, cell.author, successor.source, none⟩ })) waitless

/-- A result of signing counts for the current generation, or was recorded before. -/
inductive Standing
  | recorded (receipt : Receipt)
  | current (receipt : Receipt)

/-- Settle a result of signing: a waiting generation takes over, and otherwise the
result is recorded. -/
def concludeSigning (receiptId : ReceiptId) (promotes : WriteState → Receipt → Bool)
    (standing : WriteState → Except WriteStoreError Standing) (recorded : Receipt → Receipt) :
    Operation Receipt := fun state =>
  match standing state with
  | .error error => (.error error, state)
  | .ok (.recorded receipt) => (.ok receipt, state)
  | .ok (.current receipt) =>
    if promotes state receipt then promoteAuthorizedSuccessor N receiptId state
    else
      atomically (fun state => do
        let state ← state.record receiptId (recorded receipt)
        .ok (recorded receipt, state)) state

def installSignedCurrent (writeId : WriteId) (receiptId : ReceiptId) (revisionId : RevisionId)
    (eventId : EventId) (event : Event) : Operation Receipt :=
  concludeSigning N receiptId (fun state _ => state.successors.contains receiptId)
    (fun state => do
      (N.verify event).mapError .refused
      let receipt ← demand state.writes[receiptId]? (.refused "receipt does not exist")
      validateCurrentRevision receipt writeId revisionId eventId
      match receipt.current.event with
      | .signed current =>
        if current = event then .ok (.recorded receipt)
        else .error (.refused "event is already signed differently")
      | .unsigned unsigned => do
        require (signs event unsigned) (.refused "signature does not match current unsigned event")
        require (receipt.current.publication.signature = .authorized ∨
            receipt.current.publication.signature = .signed)
          (.refused "signature completion was not authorized")
        .ok (.current receipt))
    (fun receipt =>
      { receipt.withSignature .signed with
        current := { (receipt.withSignature .signed).current with event := .signed event } })

def recordSignerRefusalCurrent (writeId : WriteId) (receiptId : ReceiptId)
    (revisionId : RevisionId) (eventId : EventId) (reason : String) : Operation Receipt :=
  concludeSigning N receiptId (fun state _ => state.successors.contains receiptId)
    (fun state => do
      validateReceiptText reason
      let receipt ← demand state.writes[receiptId]? (.refused "receipt does not exist")
      validateCurrentRevision receipt writeId revisionId eventId
      match receipt.current.publication.signature with
      | .authorized => .ok (.current receipt)
      | .unsigned | .retryable _ => .error (.refused "signer refusal was not authorized")
      | .signed => .error (.refused "signer refusal is not current")
      | .refused current =>
        if current = reason then .ok (.recorded receipt)
        else .error (.refused "signer refusal is not current"))
    (·.withSignature (.refused reason))

def recordSignerRetryableCurrent (writeId : WriteId) (receiptId : ReceiptId)
    (revisionId : RevisionId) (eventId : EventId) (reason : String) : Operation Receipt :=
  concludeSigning N receiptId
    (fun state receipt => receipt.current.publication.signature = .authorized &&
      state.successors.contains receiptId)
    (fun state => do
      validateReceiptText reason
      let receipt ← demand state.writes[receiptId]? (.refused "receipt does not exist")
      validateCurrentRevision receipt writeId revisionId eventId
      match receipt.current.publication.signature with
      | .unsigned | .authorized | .retryable _ => .ok (.current receipt)
      | .signed | .refused _ => .error (.refused "retryable signer failure is not current"))
    (·.withSignature (.retryable reason))

def deferral (writeId : WriteId) (receiptId : ReceiptId) (revisionId : RevisionId)
    (eventId : EventId) : String :=
  "signing authorization for write " ++ toString writeId ++ " receipt " ++ toString receiptId ++
    " revision " ++ toString revisionId ++ " event " ++ N.idToHex eventId ++
    " deferred until its coordinate reservation resolves"

/-- Signing is authorized unless the coordinate is reserved for another edit. -/
def authorization (state : WriteState) (writeId : WriteId) (receiptId : ReceiptId)
    (revisionId : RevisionId) (eventId : EventId) : SignatureState :=
  let reserved := (state.edits[receiptId]?).any fun cell =>
    cell.edits.getLast?.any fun edit => isReserved state (editCoordinate edit cell.author)
  if reserved then .retryable (deferral N writeId receiptId revisionId eventId) else .authorized

def authorizeSigningCurrent (writeId : WriteId) (receiptId : ReceiptId) (revisionId : RevisionId)
    (eventId : EventId) : Operation Receipt :=
  atomically fun state => do
    let receipt ← demand state.writes[receiptId]? (.refused "receipt does not exist")
    validateCurrentRevision receipt writeId revisionId eventId
    require (receipt.current.event matches .unsigned _) (.refused "event is already signed")
    match receipt.current.publication.signature with
    | .authorized => .ok (receipt, state)
    | .signed | .refused _ => .error (.refused "signing authorization is not current")
    | .unsigned | .retryable _ => do
      let signature := authorization N state writeId receiptId revisionId eventId
      if receipt.current.publication.signature = signature then .ok (receipt, state)
      else do
        let state ← state.record receiptId (receipt.withSignature signature)
        .ok (receipt.withSignature signature, state)

end Signing

section Delivery

variable (N : Library)

def applyRouteCurrent (writeId : WriteId) (receiptId : ReceiptId) (revisionId : RevisionId)
    (eventId : EventId) (plan : RoutePlan) : Operation Receipt :=
  atomically fun state => do
    let receipt ← demand state.writes[receiptId]? (.refused "receipt does not exist")
    validateCurrentRevision receipt writeId revisionId eventId
    let updated ← applyRouteToReceipt N receipt plan
    if updated = receipt then .ok (updated, state)
    else do
      let state ← state.record receiptId updated
      .ok (updated, if updated.isTerminal then releaseSemantic state receiptId else state)

def beginAttemptCurrent (writeId : WriteId) (receiptId : ReceiptId) (revisionId : RevisionId)
    (eventId : EventId) (session : RelayUrl) (attempt : Nat) : Operation Receipt :=
  atomically fun state => do
    let receipt ← demand state.writes[receiptId]? (.refused "receipt does not exist")
    validateCurrentRevision receipt writeId revisionId eventId
    let currentAttempt := (receipt.attempts[session]?).getD 0
    if currentAttempt = attempt ∧ receipt.destinations[session]? = some .attempting then
      .ok (receipt, state)
    else do
      require (currentAttempt + 1 < 2 ^ 32) (.refused "attempt count exhausted")
      require (attempt = currentAttempt + 1) (.refused "attempt is not current")
      let outcome ← demand receipt.destinations[session]? (.refused "destination does not exist")
      require outcome.isPreHandoff (.refused "destination is not pending")
      let updated :=
        { receipt.withDestinations (receipt.destinations.insert session .attempting) with
          attempts := receipt.attempts.insert session attempt }
      let state ← state.record receiptId updated
      .ok (updated, state)

def recordOutcomeCurrent (writeId : WriteId) (receiptId : ReceiptId) (revisionId : RevisionId)
    (eventId : EventId) (session : RelayUrl) (attempt : Nat) (outcome : RelayDeliveryOutcome) :
    Operation Receipt :=
  atomically fun state => do
    validateDeliveryOutcome outcome
    require (outcome.isTerminal ∨ outcome.isRetryable)
      (.refused "recorded delivery outcome is not terminal or retryable")
    let receipt ← demand state.writes[receiptId]? (.refused "receipt does not exist")
    validateCurrentRevision receipt writeId revisionId eventId
    require (receipt.attempts[session]? = some attempt) (.refused "attempt is not current")
    let current ← demand receipt.destinations[session]? (.refused "destination does not exist")
    if current = outcome then .ok (receipt, state)
    else do
      require (current = .attempting ∨ current.isRetryable ∧ outcome.isGivenUp)
        (.refused "attempt is not current")
      let updated := settle (receipt.withDestinations (receipt.destinations.insert session outcome))
      let state ← state.record receiptId updated
      .ok (updated, if updated.isTerminal then releaseSemantic state receiptId else state)

/-- A receipt cancelled before any of it was handed over. -/
def cancelled (receipt : Receipt) : Receipt :=
  { receipt.withDestinations (receipt.destinations.map fun _ _ => .cancelledBeforeHandoff) with
    outcome := .cancelled }

def cancel (receiptId : ReceiptId) : Operation (Option Receipt) :=
  atomically fun state => do
    let revision ← nextRevision state.revision
    match state.writes[receiptId]? with
    | none => .ok (none, state)
    | some receipt =>
      if receipt.outcome = .cancelled then .ok (some receipt, state)
      else do
        require (¬receipt.isTerminal ∧
            receipt.destinations.values.all RelayDeliveryOutcome.isPreHandoff)
          (.refused "receipt can no longer be cancelled before handoff")
        .ok (some (cancelled receipt),
          releaseSemantic
            { state with
              revision := revision
              writes := state.writes.insert receiptId (cancelled receipt) } receiptId)

def removeReceipt (receiptId : ReceiptId) : Operation Bool :=
  atomically fun state => do
    require (¬(state.writes[receiptId]?).any fun receipt => !receipt.isTerminal)
      (.refused "active receipt cannot be removed")
    if receiptId ∈ state.writes then do
      let revision ← nextRevision state.revision
      let released := releaseSemantic state receiptId
      .ok (true,
        { released with revision := revision, writes := released.writes.erase receiptId })
    else .ok (false, state)

end Delivery

/-- The operations of the store that can change its ledger. -/
inductive Action
  | reserveActive (edit : EventEdit) (author : PublicKey)
  | releaseActive (reservation : Nat)
  | accept (intent : WriteIntent)
  | acceptAppliedEdit (now : Timestamp) (intent : WriteIntent) (event : UnsignedEvent)
      (source : Option EventValue)
  | acceptReservedAppliedEdit (now : Timestamp) (reservation : Nat) (intent : WriteIntent)
      (event : UnsignedEvent) (source : Option EventValue) (initialRoute : Option RoutePlan)
  | installRevision (now : Timestamp) (writeId : WriteId) (receiptId : ReceiptId)
      (expected : RevisionId) (expectedSource : Option EventId) (appliedEdits : List EventEdit)
      (event : UnsignedEvent) (source : Option EventValue) (initialRoute : Option RoutePlan)
  | recordRevisionFailure (writeId : WriteId) (receiptId : ReceiptId) (expected : RevisionId)
      (expectedSource : Option EventId) (source : Option EventValue) (reason : String)
  | installSigned (writeId : WriteId) (receiptId : ReceiptId) (revisionId : RevisionId)
      (eventId : EventId) (event : Event)
  | authorizeSigning (writeId : WriteId) (receiptId : ReceiptId) (revisionId : RevisionId)
      (eventId : EventId)
  | recordSignerRetryable (writeId : WriteId) (receiptId : ReceiptId) (revisionId : RevisionId)
      (eventId : EventId) (reason : String)
  | recordSignerRefusal (writeId : WriteId) (receiptId : ReceiptId) (revisionId : RevisionId)
      (eventId : EventId) (reason : String)
  | applyRoute (writeId : WriteId) (receiptId : ReceiptId) (revisionId : RevisionId)
      (eventId : EventId) (plan : RoutePlan)
  | beginAttempt (writeId : WriteId) (receiptId : ReceiptId) (revisionId : RevisionId)
      (eventId : EventId) (session : RelayUrl) (attempt : Nat)
  | recordOutcome (writeId : WriteId) (receiptId : ReceiptId) (revisionId : RevisionId)
      (eventId : EventId) (session : RelayUrl) (attempt : Nat) (outcome : RelayDeliveryOutcome)
  | cancel (receiptId : ReceiptId)
  | removeReceipt (receiptId : ReceiptId)

/-- The ledger after one operation, whether it was carried out or refused. -/
def perform (N : Library) (capacity : Nat) (state : WriteState) : Action → WriteState
  | .reserveActive edit author => (reserveActiveSlot capacity edit author state).2
  | .releaseActive reservation => (releaseActiveSlot reservation state).2
  | .accept intent => (accept capacity intent state).2
  | .acceptAppliedEdit now intent event source =>
    (acceptSemantic N capacity now intent event source state).2
  | .acceptReservedAppliedEdit now reservation intent event source initialRoute =>
    (acceptReservedSemantic N capacity now reservation intent event source initialRoute state).2
  | .installRevision now writeId receiptId expected expectedSource appliedEdits event source
      initialRoute =>
    (installSemantic N now writeId receiptId expected expectedSource appliedEdits event source
      initialRoute state).2
  | .recordRevisionFailure writeId receiptId expected expectedSource source reason =>
    (recordSemanticFailure N writeId receiptId expected expectedSource source reason state).2
  | .installSigned writeId receiptId revisionId eventId event =>
    (installSignedCurrent N writeId receiptId revisionId eventId event state).2
  | .authorizeSigning writeId receiptId revisionId eventId =>
    (authorizeSigningCurrent N writeId receiptId revisionId eventId state).2
  | .recordSignerRetryable writeId receiptId revisionId eventId reason =>
    (recordSignerRetryableCurrent N writeId receiptId revisionId eventId reason state).2
  | .recordSignerRefusal writeId receiptId revisionId eventId reason =>
    (recordSignerRefusalCurrent N writeId receiptId revisionId eventId reason state).2
  | .applyRoute writeId receiptId revisionId eventId plan =>
    (applyRouteCurrent N writeId receiptId revisionId eventId plan state).2
  | .beginAttempt writeId receiptId revisionId eventId session attempt =>
    (beginAttemptCurrent writeId receiptId revisionId eventId session attempt state).2
  | .recordOutcome writeId receiptId revisionId eventId session attempt outcome =>
    (recordOutcomeCurrent writeId receiptId revisionId eventId session attempt outcome state).2
  | .cancel receiptId => (cancel receiptId state).2
  | .removeReceipt receiptId => (removeReceipt receiptId state).2

def step (N : Library) (capacity : Nat) (state : WriteState) (action : Action) :
    Option WriteState :=
  some (perform N capacity state action)

end Fava.WriteStore.Memory
