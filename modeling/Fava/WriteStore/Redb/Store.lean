import Fava.WriteStore.Memory.Lifecycle
import Fava.WriteStore.Redb.Schema

namespace Fava.WriteStore.Redb

open Std Fava.Lib Fava.Nostr Fava.Relay Fava.Routing Fava.Write

/-- The bounds on active writes and on terminal receipts that are retained. -/
structure StoreLimits where
  active : Nat
  terminal : Nat
  active_pos : 0 < active
  terminal_pos : 0 < terminal

/-- Four active writes are a bound. -/
theorem four_active : 0 < 4 := by decide

/-- The whole ledger in memory. -/
structure StoreState where
  revision : Nat
  nextIdentity : Nat
  nextReservation : Nat
  reservations : BTreeMap Nat EventCoordinate
  receipts : BTreeMap ReceiptId Receipt
  coordinates : BTreeMap EventCoordinate ReceiptId
  semantics : BTreeMap ReceiptId SemanticCustody

/-- What is durable: the next identity, and a row for every receipt. -/
structure Database where
  nextId : Nat
  rows : BTreeMap Nat PersistedReceipt

/-- The disk takes a number of transactions more, and then fails. -/
structure Fault where
  after : Nat
  error : String

/-- An open store over its database. -/
structure Store where
  limits : StoreLimits
  state : StoreState
  database : Database
  fault : Option Fault

/-- What an operation answers, and the store it leaves behind. -/
abbrev Operation (α : Type) := Store → Except WriteStoreError α × Store

/-- An operation that changes the store only if it succeeds. -/
def atomically {α : Type} (f : Store → Except WriteStoreError (α × Store)) : Operation α :=
  fun store =>
    match f store with
    | .ok (answer, store) => (.ok answer, store)
    | .error error => (.error error, store)

/-- A database that was just created. -/
def Database.initialized : Database := ⟨1, ∅⟩

def Database.insertRow (database : Database) (row : PersistedReceipt) : Database :=
  { database with rows := database.rows.insert row.receipt.receiptId row }

def Database.removeRow (database : Database) (receiptId : ReceiptId) : Database :=
  { database with rows := database.rows.erase receiptId }

/-- What one transaction makes of a database. -/
def Database.transact (database : Database) (nextIdentity : Option Nat)
    (rows : List PersistedReceipt) (removals : List ReceiptId) : Database :=
  let written := removals.foldl Database.removeRow (rows.foldl Database.insertRow database)
  { written with nextId := nextIdentity.getD written.nextId }

section Commit

variable (W : Codec PersistedReceipt)

/-- One transaction: every row is encoded, and all is written or nothing. -/
def Store.commit (store : Store) (nextIdentity : Option Nat) (rows : List PersistedReceipt)
    (removals : List ReceiptId) : Except WriteStoreError Store := do
  rows.forM fun row => do
    let _ ← (W.write row).mapError .refused
    .ok ()
  let database := store.database.transact nextIdentity rows removals
  match store.fault with
  | none => .ok { store with database := database }
  | some ⟨0, error⟩ => .error (.refused error)
  | some ⟨after + 1, error⟩ => .ok { store with database := database, fault := some ⟨after, error⟩ }

end Commit

section Lifecycle

/-- What the memory store keeps of a custody under the same names. -/
def SemanticCustody.cell (custody : SemanticCustody) : Memory.SemanticCell :=
  ⟨custody.edits, custody.author, custody.currentSource, custody.failedSource⟩

def activeCount (state : StoreState) : Nat :=
  (state.receipts.values.filter fun receipt => !receipt.isTerminal).length

def terminalCount (state : StoreState) : Nat := (state.receipts.values.filter Receipt.isTerminal).length

def capacityReached (state : StoreState) (capacity : Nat) : Bool :=
  let reservedNewCoordinates :=
    (state.reservations.values.filter fun coordinate => !state.coordinates.contains coordinate).length
  activeCount state + reservedNewCoordinates ≥ capacity

def capacityRefusal (capacity : Nat) : WriteStoreError :=
  .refused ("active write bound " ++ toString capacity ++ " reached")

/-- The coordinates without the one of a custody. -/
def withoutCoordinate (coordinates : BTreeMap EventCoordinate ReceiptId) (custody : SemanticCustody) :
    BTreeMap EventCoordinate ReceiptId :=
  match custody.edits.getLast? with
  | none => coordinates
  | some edit => coordinates.erase (editCoordinate edit custody.author)

def releaseSemantic (state : StoreState) (receiptId : ReceiptId) : StoreState :=
  match state.semantics[receiptId]? with
  | none => state
  | some custody =>
    { state with
      semantics := state.semantics.erase receiptId
      coordinates := withoutCoordinate state.coordinates custody }

def releaseSemanticCoordinate (state : StoreState) (receiptId : ReceiptId) : StoreState :=
  match state.semantics[receiptId]? with
  | none => state
  | some custody => { state with coordinates := withoutCoordinate state.coordinates custody }

/-- The oldest terminal receipts, as many as are retained beyond the bound. -/
def terminalEvictions (state : StoreState) (updated : Receipt) (maximum : Nat) : List ReceiptId :=
  let terminal := ((state.receipts.values.filter fun receipt =>
    receipt.isTerminal && receipt.receiptId ≠ updated.receiptId).map Receipt.receiptId).mergeSort
  terminal.take (terminal.length + updated.isTerminal.toNat - maximum)

def evict (state : StoreState) (receiptId : ReceiptId) : StoreState :=
  { releaseSemantic state receiptId with receipts := state.receipts.erase receiptId }

def isReserved (state : StoreState) (coordinate : EventCoordinate) : Bool :=
  state.reservations.values.any (· = coordinate)

/-- Something waits until the signing of the current generation is decided. -/
def hasSuccessor (state : StoreState) (receiptId : ReceiptId) : Bool :=
  (state.semantics[receiptId]?).any fun custody => custody.successor.isSome

variable (N : Library) (W : Codec PersistedReceipt)

/-- Put a receipt in its place, in memory and in the database, with the custody the
database is to hold for it. -/
def Store.put (store : Store) (receiptId : ReceiptId) (receipt : Receipt)
    (semantic : Option SemanticCustody) : Except WriteStoreError Store := do
  let revision ← nextRevision store.state.revision
  let store ← store.commit W none [⟨receipt, semantic⟩] []
  .ok { store with state := { store.state with
    revision := revision
    receipts := store.state.receipts.insert receiptId receipt } }

/-- Change one receipt, and give up terminal receipts beyond the bound for it. -/
def update (receiptId : ReceiptId) (mutation : Receipt → Except WriteStoreError Receipt) :
    Operation Receipt :=
  atomically fun store => do
    let original ← demand store.state.receipts[receiptId]? (.refused "receipt does not exist")
    let receipt ← mutation original
    if receipt = original then .ok (receipt, store)
    else do
      let removals := terminalEvictions store.state receipt store.limits.terminal
      let revision ← nextRevision store.state.revision
      let store ← store.commit W none [⟨receipt, store.state.semantics[receiptId]?⟩] removals
      let pruned := removals.foldl evict store.state
      let state := if receipt.isTerminal then releaseSemanticCoordinate pruned receiptId else pruned
      .ok (receipt, { store with state := { state with
        receipts := state.receipts.insert receiptId receipt
        revision := revision } })

end Lifecycle

section Reservation

def reserveActiveSlot (edit : EventEdit) (author : PublicKey) : Operation Nat :=
  atomically fun store => do
    let state := store.state
    let coordinate := editCoordinate edit author
    require (¬isReserved state coordinate)
      (.refused "replaceable coordinate already has an active reservation")
    require (¬(state.coordinates[coordinate]?).any (hasSuccessor state))
      (.refused "replaceable coordinate already has a durable successor")
    require (state.coordinates.contains coordinate ∨ ¬capacityReached state store.limits.active)
      (capacityRefusal store.limits.active)
    let reservation := state.nextReservation
    require (reservation + 1 < counterBound) (.refused "active reservation exhausted")
    .ok (reservation, { store with state := { state with
      nextReservation := reservation + 1
      reservations := state.reservations.insert reservation coordinate } })

def releaseActiveSlot (reservation : Nat) : Operation Unit :=
  atomically fun store => do
    require (reservation ∈ store.state.reservations) (.refused "active reservation is not current")
    .ok ((), { store with state := { store.state with
      reservations := store.state.reservations.erase reservation } })

end Reservation

section Acceptance

variable (N : Library) (W : Codec PersistedReceipt)

def accept (intent : WriteIntent) : Operation AcceptedWrite :=
  atomically fun store => do
    require (¬capacityReached store.state store.limits.active) (capacityRefusal store.limits.active)
    let identity := store.state.nextIdentity
    let next ← nextIdentity identity
    let (event, signature) ← Memory.completePayload intent.payload
    let receipt ← acceptedReceipt identity event signature none intent.routing intent.access
    let revision ← nextRevision store.state.revision
    let store ← store.commit W (some next) [⟨receipt, none⟩] []
    .ok (⟨identity, identity, receipt.current⟩, { store with state := { store.state with
      nextIdentity := next
      revision := revision
      receipts := store.state.receipts.insert identity receipt } })

/-- Append one edit to the head of its coordinate, or keep it until the signing of the
head is decided. -/
def composeSemantic (receiptId : ReceiptId) (edit : EventEdit) (author : PublicKey)
    (routing : WriteRouting) (event : UnsignedEvent) (source : Option EventValue)
    (initialRoute : Option RoutePlan) (store : Store) :
    Except WriteStoreError (AcceptedWrite × Store) := do
  let receipt ← demand store.state.receipts[receiptId]? (.refused "coordinate owner is missing")
  let custody ← demand store.state.semantics[receiptId]? (.refused "semantic custody is missing")
  require (custody.author = author ∧ receipt.routing = routing)
    (.refused "same-coordinate edit author or routing differs from the active operation")
  require (receipt.current.event matches .unsigned _)
    (.refused "same-coordinate edit composition requires an unsigned current generation")
  let selected ← validateSource N edit author source
  require (source = some receipt.current.event ∧ selected.map Prod.fst = some receipt.current.id)
    (.refused "same-coordinate edit source is not the exact current generation")
  require (receipt.current.publication.retiredRevisions.length < destinationEvidenceCapacity)
    (.refused "retired revision evidence capacity reached")
  require (initialRoute.isNone ∨ receipt.routeRevision + 1 < counterBound)
    (.refused "route revision exhausted")
  let successorRoute := initialRoute.map ({ · with revision := receipt.routeRevision + 1 })
  let _ ← applyInitialRoute N receipt successorRoute
  if receipt.current.publication.signature = .authorized then do
    require (custody.successor.isNone) (.refused "replaceable coordinate already has a durable successor")
    let waiting : SemanticCustody := ⟨custody.edits, author, custody.currentSource, none,
      some ⟨some edit, event, custody.currentSource, successorRoute⟩⟩
    let store ← store.commit W none [⟨receipt, some waiting⟩] []
    .ok (⟨receipt.writeId, receiptId, receipt.current⟩, { store with state := { store.state with
      semantics := store.state.semantics.insert receiptId waiting } })
  else do
    let current ← nextGeneration receiptId receipt event (custody.currentSource.map Prod.fst)
      (destinations routing)
    let updated ← applyInitialRoute N (restarted receipt current) successorRoute
    let composed : SemanticCustody :=
      ⟨custody.edits ++ [edit], author, custody.currentSource, none, none⟩
    let store ← store.put W receiptId updated (if updated.isTerminal then none else some composed)
    let state :=
      if updated.isTerminal then releaseSemantic store.state receiptId
      else { store.state with semantics := store.state.semantics.insert receiptId composed }
    .ok (⟨updated.writeId, receiptId, updated.current⟩, { store with state := state })

/-- Take a coordinate's reservation, if one is named. -/
def takeReservation (reservation : Option Nat) (coordinate : EventCoordinate) (state : StoreState) :
    Except WriteStoreError StoreState :=
  match reservation with
  | none => .ok state
  | some reservation => do
    let reserved ← demand state.reservations[reservation]?
      (.refused "active reservation is not current")
    require (reserved = coordinate)
      (.refused "active reservation belongs to a different replaceable coordinate")
    .ok { state with reservations := state.reservations.erase reservation }

/-- Accept one edit and its revision, with the reservation already taken. -/
def acceptEdit (now : Timestamp) (reserved : Bool) (edit : EventEdit) (author : PublicKey)
    (routing : WriteRouting) (access : Authority) (event : UnsignedEvent)
    (source : Option EventValue) (initialRoute : Option RoutePlan) (store : Store) :
    Except WriteStoreError (AcceptedWrite × Store) := do
  let coordinate := editCoordinate edit author
  let selected ← validateRevision N now edit author event source routing
  match store.state.coordinates[coordinate]? with
  | some receiptId => do
    let receipt ← demand store.state.receipts[receiptId]? (.refused "coordinate owner is missing")
    let custody ← demand store.state.semantics[receiptId]? (.refused "semantic custody is missing")
    if Memory.isReplay N receipt custody.cell edit author routing event selected initialRoute then
      .ok (⟨receipt.writeId, receipt.receiptId, receipt.current⟩, store)
    else composeSemantic N W receiptId edit author routing event source initialRoute store
  | none => do
    require (reserved ∨ ¬capacityReached store.state store.limits.active)
      (capacityRefusal store.limits.active)
    let identity := store.state.nextIdentity
    let next ← nextIdentity identity
    let fresh ← acceptedReceipt identity (.unsigned event) .unsigned (selected.map Prod.fst)
      routing access
    let receipt ← applyInitialRoute N fresh initialRoute
    let custody : SemanticCustody := ⟨[edit], author, selected, none, none⟩
    let removals := terminalEvictions store.state receipt store.limits.terminal
    let revision ← nextRevision store.state.revision
    let store ← store.commit W (some next) [⟨receipt, some custody⟩] removals
    let state := removals.foldl evict store.state
    .ok (⟨identity, identity, receipt.current⟩, { store with state := { state with
      nextIdentity := next
      revision := revision
      semantics := state.semantics.insert identity custody
      coordinates :=
        if receipt.isTerminal then state.coordinates else state.coordinates.insert coordinate identity
      receipts := state.receipts.insert identity receipt } })

/-- A reservation that was matched is gone even if the acceptance is then refused. -/
def acceptSemanticInner (now : Timestamp) (reservation : Option Nat) (intent : WriteIntent)
    (event : UnsignedEvent) (source : Option EventValue) (initialRoute : Option RoutePlan) :
    Operation AcceptedWrite := fun store =>
  match intent.payload with
  | .edit edit author =>
    match takeReservation reservation (editCoordinate edit author) store.state with
    | .error error => (.error error, store)
    | .ok state =>
      atomically (acceptEdit N W now reservation.isSome edit author intent.routing intent.access event
        source initialRoute) { store with state := state }
  | _ => (.error (.refused "semantic acceptance requires a replaceable-event edit"), store)

def acceptSemantic (now : Timestamp) (intent : WriteIntent) (event : UnsignedEvent)
    (source : Option EventValue) : Operation AcceptedWrite :=
  acceptSemanticInner N W now none intent event source none

def acceptReservedSemantic (now : Timestamp) (reservation : Nat) (intent : WriteIntent)
    (event : UnsignedEvent) (source : Option EventValue) (initialRoute : Option RoutePlan) :
    Operation AcceptedWrite :=
  acceptSemanticInner N W now (some reservation) intent event source initialRoute

end Acceptance

end Fava.WriteStore.Redb
