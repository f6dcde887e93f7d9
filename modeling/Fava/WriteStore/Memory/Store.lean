import Fava.WriteStore.Semantic

namespace Fava.WriteStore.Memory

open Std Fava.Lib Fava.Nostr Fava.Relay Fava.Routing Fava.Write

/-- The edits in custody for one coordinate, and the source they were applied to. -/
structure SemanticCell where
  edits : List EventEdit
  author : PublicKey
  source : Option Source
  failedSource : Option EventId

/-- The whole ledger. `taken` is its history: every edit that was newly accepted, with
the receipt that took it, in order. No operation reads it. -/
structure WriteState where
  revision : Nat
  nextIdentity : Nat
  nextReservation : Nat
  reservations : BTreeMap Nat EventCoordinate
  writes : BTreeMap ReceiptId Receipt
  coordinates : BTreeMap EventCoordinate ReceiptId
  successors : BTreeMap ReceiptId Successor
  edits : BTreeMap ReceiptId SemanticCell
  taken : List (ReceiptId × EventEdit)

def WriteState.default : WriteState :=
  ⟨0, 1, 1, ∅, ∅, ∅, ∅, ∅, []⟩

/-- What an operation answers, and the ledger it leaves behind. -/
abbrev Operation (α : Type) := WriteState → Except WriteStoreError α × WriteState

/-- An operation that changes the ledger only if it succeeds. -/
def atomically {α : Type} (f : WriteState → Except WriteStoreError (α × WriteState)) :
    Operation α := fun state =>
  match f state with
  | .ok (answer, state) => (.ok answer, state)
  | .error error => (.error error, state)

section Bookkeeping

def activeCount (state : WriteState) : Nat :=
  (state.writes.values.filter fun receipt => !receipt.isTerminal).length

def capacityReached (state : WriteState) (capacity : Nat) : Bool :=
  let reservedNewCoordinates :=
    (state.reservations.values.filter fun coordinate => !state.coordinates.contains coordinate).length
  activeCount state + reservedNewCoordinates ≥ capacity

def capacityRefusal (capacity : Nat) : WriteStoreError :=
  .refused ("bounded write-store capacity " ++ toString capacity ++ " reached")

def releaseSemantic (state : WriteState) (receiptId : ReceiptId) : WriteState :=
  let coordinates :=
    match state.edits[receiptId]? with
    | none => state.coordinates
    | some cell =>
      match cell.edits.getLast? with
      | none => state.coordinates
      | some edit => state.coordinates.erase (editCoordinate edit cell.author)
  { state with
    successors := state.successors.erase receiptId
    edits := state.edits.erase receiptId
    coordinates := coordinates }

def isReserved (state : WriteState) (coordinate : EventCoordinate) : Bool :=
  state.reservations.values.any (· = coordinate)

/-- Put a receipt in its place at a later source revision. -/
def WriteState.record (state : WriteState) (receiptId : ReceiptId) (receipt : Receipt) :
    Except WriteStoreError WriteState := do
  let revision ← nextRevision state.revision
  .ok { state with revision := revision, writes := state.writes.insert receiptId receipt }

theorem record_eq_ok {s s' : WriteState} {r : ReceiptId} {receipt : Receipt}
    (h : s.record r receipt = .ok s') :
    ∃ revision, s' = { s with revision := revision, writes := s.writes.insert r receipt } := by
  obtain ⟨revision, -, h⟩ := bind_eq_ok.mp h
  exact ⟨revision, (Except.ok.inj h).symm⟩

end Bookkeeping

section Reservation

variable (capacity : Nat)

def reserveActiveSlot (edit : EventEdit) (author : PublicKey) : Operation Nat :=
  atomically fun state => do
    let coordinate := editCoordinate edit author
    require (¬isReserved state coordinate)
      (.refused "replaceable coordinate already has an active reservation")
    require (¬(state.coordinates[coordinate]?).any state.successors.contains)
      (.refused "replaceable coordinate already has a durable successor")
    require (state.coordinates.contains coordinate ∨ ¬capacityReached state capacity)
      (capacityRefusal capacity)
    let reservation := state.nextReservation
    require (reservation + 1 < counterBound) (.refused "active reservation exhausted")
    .ok (reservation,
      { state with
        nextReservation := reservation + 1
        reservations := state.reservations.insert reservation coordinate })

def releaseActiveSlot (reservation : Nat) : Operation Unit :=
  atomically fun state => do
    require (reservation ∈ state.reservations) (.refused "active reservation is not current")
    .ok ((), { state with reservations := state.reservations.erase reservation })

end Reservation

section Acceptance

variable (N : Library) (capacity : Nat)

/-- The event and the signature of a payload that needs no revision. -/
def completePayload : WritePayload → Except WriteStoreError (EventValue × SignatureState)
  | .event event => .ok (.unsigned event, .unsigned)
  | .edit _ _ => .error (.refused "replaceable-event edit requires revision before acceptance")
  | .presigned event => .ok (.signed event, .signed)

def accept (intent : WriteIntent) : Operation AcceptedWrite :=
  atomically fun state => do
    require (¬capacityReached state capacity) (capacityRefusal capacity)
    let identity := state.nextIdentity
    let next ← nextIdentity identity
    let (event, signature) ← completePayload intent.payload
    let receipt ← acceptedReceipt identity event signature none intent.routing intent.access
    let state ← state.record identity receipt
    .ok (⟨identity, identity, receipt.current⟩, { state with nextIdentity := next })

/-- Append one edit to the head of its coordinate, or keep it until the signing of the
head is decided. -/
def composeSemantic (receiptId : ReceiptId) (edit : EventEdit) (author : PublicKey)
    (routing : WriteRouting) (event : UnsignedEvent) (source : Option EventValue)
    (initialRoute : Option RoutePlan) (state : WriteState) :
    Except WriteStoreError (AcceptedWrite × WriteState) := do
  let receipt ← demand state.writes[receiptId]? (.refused "coordinate owner is missing")
  let cell ← demand state.edits[receiptId]? (.refused "semantic custody is missing")
  require (cell.author = author ∧ receipt.routing = routing)
    (.refused "same-coordinate edit author or routing differs from the active operation")
  require (receipt.current.event matches .unsigned _)
    (.refused "same-coordinate edit composition requires an unsigned current generation")
  let selected ← validateSource N edit author source
  require (source = some receipt.current.event ∧ selected.map Prod.fst = some receipt.current.id)
    (.refused "same-coordinate edit source is not the exact current generation")
  require (receipt.current.publication.retiredRevisions.length < destinationEvidenceCapacity)
    (.refused "retired revision evidence capacity reached")
  require (initialRoute.isNone ∨ receipt.routeRevision + 1 < counterBound)
    (.refused "route revision exhausted")
  let successorRoute := initialRoute.map ({ · with revision := receipt.routeRevision + 1 })
  let _ ← applyInitialRoute N receipt successorRoute
  if receipt.current.publication.signature = .authorized then do
    require (receiptId ∉ state.successors)
      (.refused "replaceable coordinate already has a durable successor")
    .ok (⟨receipt.writeId, receiptId, receipt.current⟩,
      { state with
        successors := state.successors.insert receiptId ⟨some edit, event, cell.source, successorRoute⟩
        taken := state.taken ++ [(receiptId, edit)] })
  else do
    let current ← nextGeneration receiptId receipt event (cell.source.map Prod.fst)
      (destinations routing)
    let updated ← applyInitialRoute N (restarted receipt current) successorRoute
    let recorded ← state.record receiptId updated
    let custody :=
      if updated.isTerminal then
        { recorded with
          coordinates := state.coordinates.erase (editCoordinate edit author)
          edits := state.edits.erase receiptId }
      else
        { recorded with
          edits := state.edits.insert receiptId ⟨cell.edits ++ [edit], author, cell.source, none⟩ }
    .ok (⟨updated.writeId, receiptId, updated.current⟩,
      { custody with taken := state.taken ++ [(receiptId, edit)] })

/-- Take a coordinate's reservation, if one is named. -/
def takeReservation (reservation : Option Nat) (coordinate : EventCoordinate)
    (state : WriteState) : Except WriteStoreError WriteState :=
  match reservation with
  | none => .ok state
  | some reservation => do
    let reserved ← demand state.reservations[reservation]?
      (.refused "active reservation is not current")
    require (reserved = coordinate)
      (.refused "active reservation belongs to a different replaceable coordinate")
    .ok { state with reservations := state.reservations.erase reservation }

/-- The head already is what this acceptance asks for. -/
def isReplay (receipt : Receipt) (cell : SemanticCell) (edit : EventEdit) (author : PublicKey)
    (routing : WriteRouting) (event : UnsignedEvent) (selected : Option Source)
    (initialRoute : Option RoutePlan) : Bool :=
  cell.edits = [edit] && cell.author = author && cell.source = selected &&
  receipt.routing = routing && receipt.current.event = .unsigned event &&
  initialRoute.all fun plan =>
    plan.revision = receipt.routeRevision && (applyRouteToReceipt N receipt plan).isOk

/-- Accept one edit and its revision, with the reservation already taken. -/
def acceptEdit (now : Timestamp) (reserved : Bool) (edit : EventEdit) (author : PublicKey)
    (routing : WriteRouting) (access : Authority) (event : UnsignedEvent)
    (source : Option EventValue) (initialRoute : Option RoutePlan) (state : WriteState) :
    Except WriteStoreError (AcceptedWrite × WriteState) := do
  let coordinate := editCoordinate edit author
  let selected ← validateRevision N now edit author event source routing
  match state.coordinates[coordinate]? with
  | some receiptId => do
    let receipt ← demand state.writes[receiptId]? (.refused "coordinate owner is missing")
    let cell ← demand state.edits[receiptId]? (.refused "semantic custody is missing")
    if isReplay N receipt cell edit author routing event selected initialRoute then
      .ok (⟨receipt.writeId, receipt.receiptId, receipt.current⟩, state)
    else composeSemantic N receiptId edit author routing event source initialRoute state
  | none => do
    require (reserved ∨ ¬capacityReached state capacity) (capacityRefusal capacity)
    let identity := state.nextIdentity
    let next ← nextIdentity identity
    let fresh ← acceptedReceipt identity (.unsigned event) .unsigned (selected.map Prod.fst)
      routing access
    let receipt ← applyInitialRoute N fresh initialRoute
    let recorded ← state.record identity receipt
    let custody :=
      if receipt.isTerminal then recorded
      else
        { recorded with
          coordinates := state.coordinates.insert coordinate identity
          edits := state.edits.insert identity ⟨[edit], author, selected, none⟩ }
    .ok (⟨identity, identity, receipt.current⟩,
      { custody with nextIdentity := next, taken := state.taken ++ [(identity, edit)] })

/-- A reservation that was matched is gone even if the acceptance is then refused. -/
def acceptSemanticInner (now : Timestamp) (reservation : Option Nat) (intent : WriteIntent)
    (event : UnsignedEvent) (source : Option EventValue) (initialRoute : Option RoutePlan) :
    Operation AcceptedWrite := fun state =>
  match intent.payload with
  | .edit edit author =>
    match takeReservation reservation (editCoordinate edit author) state with
    | .error error => (.error error, state)
    | .ok state =>
      atomically (acceptEdit N capacity now reservation.isSome edit author intent.routing
        intent.access event source initialRoute) state
  | _ => (.error (.refused "semantic acceptance requires a replaceable-event edit"), state)

def acceptSemantic (now : Timestamp) (intent : WriteIntent) (event : UnsignedEvent)
    (source : Option EventValue) : Operation AcceptedWrite :=
  acceptSemanticInner N capacity now none intent event source none

def acceptReservedSemantic (now : Timestamp) (reservation : Nat) (intent : WriteIntent)
    (event : UnsignedEvent) (source : Option EventValue) (initialRoute : Option RoutePlan) :
    Operation AcceptedWrite :=
  acceptSemanticInner N capacity now (some reservation) intent event source initialRoute

end Acceptance

end Fava.WriteStore.Memory
