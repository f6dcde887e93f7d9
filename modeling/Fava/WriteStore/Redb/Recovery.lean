import Fava.WriteStore.Redb.Operations
import Fava.WriteStore.Redb.Validation

namespace Fava.WriteStore.Redb

open Std Fava.Lib Fava.Nostr Fava.Relay Fava.Routing Fava.Write

section Loading

variable (N : Library)

/-- What is built from the rows of a database. -/
structure Loaded where
  receipts : BTreeMap ReceiptId Receipt
  coordinates : BTreeMap EventCoordinate ReceiptId
  semantics : BTreeMap ReceiptId SemanticCustody

def loadRow (loaded : Loaded) (entry : Nat × PersistedReceipt) : Except WriteStoreError Loaded := do
  let (key, row) := entry
  require (key ≠ 0) (.refused "durable receipt identity is zero")
  require (row.receipt.receiptId = key ∧ row.receipt.writeId = key)
    (.refused "durable receipt identity does not match its row")
  let loaded ← match row.semantic with
    | none => .ok loaded
    | some custody => do
      require (row.receipt.current.publication.revisionSource = custody.currentSource.map Prod.fst)
        (.refused "durable semantic custody is incoherent")
      let coordinates ←
        if row.receipt.isTerminal then .ok loaded.coordinates
        else do
          let edit ← demand custody.edits.getLast?
            (.refused "durable semantic edit sequence is empty")
          let coordinate := editCoordinate edit custody.author
          require (coordinate ∉ loaded.coordinates)
            (.refused "duplicate durable semantic coordinate owner")
          .ok (loaded.coordinates.insert coordinate key)
      .ok { loaded with
        coordinates := coordinates
        semantics := loaded.semantics.insert key custody }
  require (key ∉ loaded.receipts) (.refused "duplicate durable receipt identity")
  .ok { loaded with receipts := loaded.receipts.insert key row.receipt }

/-- Read everything back, and check it. -/
def load (database : Database) : Except WriteStoreError Loaded := do
  require (database.nextId ≠ 0) (.refused "durable next identity is zero")
  let loaded ← database.rows.toList.foldlM loadRow ⟨∅, ∅, ∅⟩
  reconstructed N database.nextId loaded.receipts loaded.semantics
  .ok loaded

end Loading

section Recovering

/-- What is left of an attempt whose end was not recorded. -/
def ambiguous : RelayDeliveryOutcome :=
  .unknown "process ended after attempt authorization before outcome commit"

def isAmbiguous (receipt : Receipt) : Bool := receipt.destinations.values.any (· = .attempting)

/-- A receipt none of whose attempts is under way any more. -/
def recoverReceipt (receipt : Receipt) : Receipt :=
  if isAmbiguous receipt then
    settle (receipt.withDestinations
      (receipt.destinations.map fun _ outcome => if outcome = .attempting then ambiguous else outcome))
  else receipt

/-- End every attempt that was under way, and name the receipts this changed. -/
def recoverAmbiguousDelivery (state : StoreState) : StoreState × List ReceiptId :=
  let recovered := state.receipts.values.filter isAmbiguous
  let released := recovered.filter fun receipt => (recoverReceipt receipt).isTerminal
  ((released.map Receipt.receiptId).foldl releaseSemanticCoordinate
    { state with receipts := state.receipts.map fun _ receipt => recoverReceipt receipt },
    recovered.map Receipt.receiptId)

def validateRecoveredBounds (state : StoreState) (limits : StoreLimits) :
    Except WriteStoreError Unit := do
  require (activeCount state ≤ limits.active)
    (.refused ("recovered active write count exceeds bound: " ++ toString (activeCount state) ++
      " > " ++ toString limits.active))
  require (terminalCount state ≤ limits.terminal)
    (.refused ("recovered terminal receipt count exceeds bound: " ++ toString (terminalCount state) ++
      " > " ++ toString limits.terminal))

variable (N : Library) (W : Codec PersistedReceipt)

/-- Write the named receipts again. -/
def persistExisting (receiptIds : List ReceiptId) (store : Store) : Except WriteStoreError Store := do
  let rows ← receiptIds.mapM fun receiptId => do
    let receipt ← demand store.state.receipts[receiptId]? (.refused "recovered receipt disappeared")
    .ok (⟨receipt, store.state.semantics[receiptId]?⟩ : PersistedReceipt)
  store.commit W none rows []

def interruption (receipt : Receipt) : String :=
  "process ended after signing authorization for write " ++ toString receipt.writeId ++ " receipt " ++
    toString receipt.receiptId ++ " revision " ++
    toString receipt.current.publication.revisionId ++ " event " ++ N.idToHex receipt.current.id ++
    "; retry is permitted"

/-- Make the signing of the given receipts retryable, one after the other. -/
def recoverSigning : List Receipt → Operation Unit
  | [], store => (.ok (), store)
  | receipt :: rest, store =>
    match recordSignerRetryableCurrent N W receipt.writeId receipt.receiptId
        receipt.current.publication.revisionId receipt.current.id (interruption N receipt) store with
    | (.ok _, store) => recoverSigning rest store
    | (.error error, store) => (.error error, store)

def recoverAuthorizedSigning : Operation Unit := fun store =>
  recoverSigning N W
    (store.state.receipts.values.filter fun receipt =>
      receipt.current.publication.signature = .authorized) store

/-- Open a store over a database, which is changed even where this fails in the end. -/
def openBounded (limits : StoreLimits) (fault : Option Fault) (database : Database) :
    Except WriteStoreError Store × Database :=
  match load N database with
  | .error error => (.error error, database)
  | .ok loaded =>
    let (state, recovered) := recoverAmbiguousDelivery
      ⟨0, database.nextId, 1, ∅, loaded.receipts, loaded.coordinates, loaded.semantics⟩
    let store : Store := ⟨limits, state, database, fault⟩
    let persisted := do
      validateRecoveredBounds state limits
      if recovered = [] then .ok store else persistExisting W recovered store
    match persisted with
    | .error error => (.error error, database)
    | .ok store =>
      match recoverAuthorizedSigning N W store with
      | (.error error, store) => (.error error, store.database)
      | (.ok _, store) => (.ok store, store.database)

end Recovering

section Processes

variable (N : Library) (W : NostrJson)

/-- A database that no process has open, or an open store. -/
inductive System
  | closed (database : Database)
  | running (store : Store)

/-- One call of the store, during which the disk may fail, or the start of another process
in place of the one that has the database open. -/
inductive Command
  | perform (fault : Option Fault) (action : Memory.Action)
  | reopen (limits : StoreLimits) (fault : Option Fault)

def System.database : System → Database
  | .closed database => database
  | .running store => store.database

/-- No process can make a call of a store it could not open. -/
def step : System → Command → Option System
  | .running store, .perform fault action =>
    some (.running (perform N (persistedReceipt N W) action { store with fault := fault }).2)
  | .closed _, .perform _ _ => none
  | system, .reopen limits fault =>
    match openBounded N (persistedReceipt N W) limits fault system.database with
    | (.ok store, _) => some (.running store)
    | (.error _, database) => some (.closed database)

/-- A database nobody has opened yet. -/
def System.initial : System := .closed .initialized

end Processes

end Fava.WriteStore.Redb
