import Fava.WriteStore.Redb.Store

namespace Fava.WriteStore.Redb

open Std Fava.Lib Fava.Nostr Fava.Relay Fava.Routing Fava.Write

def incoherent (reason : String) : WriteStoreError := .refused reason

def startsWith (text start : String) : Bool := start.toList.isPrefixOf text.toList

section Receipts

variable (N : Library)

def validateEventAndSignature (receipt : Receipt) : Except WriteStoreError Unit :=
  match receipt.current.event, receipt.current.publication.signature with
  | .unsigned event, .unsigned | .unsigned event, .authorized => (N.verifyId event).mapError .refused
  | .unsigned event, .retryable reason | .unsigned event, .refused reason => do
    (N.verifyId event).mapError .refused
    validateReceiptText reason
  | .signed event, .signed => (N.verify event).mapError .refused
  | .unsigned _, .signed | .signed _, _ =>
    .error (incoherent "durable signature state disagrees with current event")

def validateRouting (receipt : Receipt) : Except WriteStoreError Unit :=
  match receipt.routing with
  | .automatic => .ok ()
  | .explicit relays => do
    require (relays ≠ []) (incoherent "durable explicit route is empty")
    require (firstRepeat [] relays = none) (incoherent "durable explicit route repeats a relay identity")
    let expected : BTreeSet RelayUrl := ExtTreeSet.ofList relays
    require (receipt.destinations.keySet = expected ∧ receipt.desiredDestinations = expected)
      (incoherent "durable explicit route disagrees with its destination lanes")

/-- No more of anything than the bound on evidence. -/
def withinBounds (receipt : Receipt) : Bool :=
  receipt.destinations.size ≤ destinationEvidenceCapacity &&
  receipt.current.publication.retiredRevisions.length ≤ destinationEvidenceCapacity &&
  receipt.desiredDestinations.size ≤ destinationEvidenceCapacity &&
  receipt.attempts.size ≤ destinationEvidenceCapacity &&
  receipt.routeShortfalls.length ≤ destinationEvidenceCapacity &&
  match receipt.routing with
  | .automatic => true
  | .explicit relays => relays.length ≤ destinationEvidenceCapacity

def validateBoundsAndText (receipt : Receipt) : Except WriteStoreError Unit := do
  require (withinBounds receipt) (incoherent "durable destination or evidence count exceeds bound")
  require (receipt.desiredDestinations.toList.all receipt.destinations.contains ∧
      receipt.attempts.toList.all fun (session, attempt) =>
        attempt ≠ 0 && receipt.destinations.contains session)
    (incoherent "durable destination ownership is incoherent")
  receipt.destinations.values.forM validateDeliveryOutcome
  receipt.routeShortfalls.forM validateReceiptText
  receipt.current.publication.revisionFailure.toList.forM validateReceiptText

def outcomeAgrees (receipt : Receipt) : Bool :=
  let settled := receipt.routeSettled && receipt.allTerminal
  match receipt.outcome with
  | .isOpen => !settled
  | .cancelled => receipt.destinations.values.all (· = .cancelledBeforeHandoff)
  | .complete => settled && !receipt.desiredDestinations.isEmpty
  | .noDestination => settled && receipt.desiredDestinations.isEmpty

def validateOutcome (receipt : Receipt) : Except WriteStoreError Unit :=
  require (outcomeAgrees receipt)
    (incoherent "durable receipt outcome disagrees with route evidence")

/-- Retired generations are numbered from one, and no event was current twice. -/
def validateRetired (seen : List EventId) :
    Nat → List RetiredRevision → Except WriteStoreError Unit
  | _, [] => .ok ()
  | index, retired :: rest => do
    require (retired.revisionId = index + 1 ∧ retired.eventId ∉ seen)
      (incoherent "durable retired revision identity is incoherent")
    retired.failure.toList.forM fun failure => do
      validateReceiptText failure
      require (startsWith failure ("revision " ++ toString retired.revisionId ++ " from source "))
        (incoherent "durable retired failure attribution is incoherent")
    validateRetired (retired.eventId :: seen) (index + 1) rest

def validateSuccessor (receipt : Receipt) (custody : SemanticCustody) (successor : Successor) :
    Except WriteStoreError Unit := do
  (N.verifyId successor.event).mapError .refused
  require (successor.event.pubkey = custody.author ∧
      ¬successor.source.any (fun (_, time) => successor.event.createdAt ≤ time) ∧
      (receipt.current.publication.signature matches .authorized | .retryable _))
    (incoherent "durable semantic successor disagrees with current custody")
  let _ ← applyInitialRoute N receipt successor.route
  .ok ()

def validateSemantic (receipt : Receipt) (custody : SemanticCustody) :
    Except WriteStoreError Unit := do
  let publication := receipt.current.publication
  let disagrees := incoherent "durable semantic edit sequence and generations disagree"
  require (custody.edits.length ≤ publication.retiredRevisions.length + 1) disagrees
  let edit ← demand custody.edits.getLast? disagrees
  custody.successor.toList.forM (validateSuccessor N receipt custody)
  let foreign := incoherent "durable semantic custody is incoherent"
  require (receipt.current.event.author = custody.author) foreign
  let coordinate ← (receipt.current.event.coordinate N).mapError fun _ =>
    .refused "unsigned event has no computed event id"
  require (coordinate = editCoordinate edit custody.author ∧
      publication.revisionSource = custody.currentSource.map Prod.fst ∧
      custody.currentSource.all (fun (id, time) =>
        eventIsNewer (receipt.current.event.createdAt, receipt.current.id) (time, id))) foreign
  match publication.revisionFailure with
  | none =>
    require (custody.failedSource = none)
      (incoherent "durable failed source and failure evidence disagree")
  | some reason =>
    let attribution := failureAttribution N publication.revisionId custody.failedSource
    require (reason = attribution ∨ startsWith reason (attribution ++ ": "))
      (incoherent "durable failed-source attribution is incoherent")

def validateRevisions (receipt : Receipt) (semantic : Option SemanticCustody) :
    Except WriteStoreError Unit := do
  let publication := receipt.current.publication
  require (publication.revisionId = publication.retiredRevisions.length + 1)
    (incoherent "durable revision generations are not contiguous")
  validateRetired [receipt.current.id] 0 publication.retiredRevisions
  match semantic with
  | some custody => validateSemantic N receipt custody
  | none =>
    require (publication.revisionSource = none ∧ publication.revisionFailure = none ∧
        publication.revisionId = 1)
      (incoherent "durable publication evidence has no semantic custody")

def validateReceipt (rowId : ReceiptId) (receipt : Receipt) (semantic : Option SemanticCustody) :
    Except WriteStoreError Unit := do
  let publication := receipt.current.publication
  require (receipt.receiptId = rowId ∧ receipt.writeId = rowId ∧
      publication.receiptId = receipt.receiptId ∧ publication.writeId = receipt.writeId)
    (incoherent "durable receipt and publication identities disagree")
  require (receipt.current.event.id = some receipt.current.id)
    (incoherent "durable current event identity disagrees with its body")
  validateEventAndSignature N receipt
  validateRouting receipt
  validateBoundsAndText receipt
  validateOutcome receipt
  validateRevisions N receipt semantic

/-- What recovery asks of everything that was read. -/
def reconstructed (nextIdentity : Nat) (receipts : BTreeMap ReceiptId Receipt)
    (semantics : BTreeMap ReceiptId SemanticCustody) : Except WriteStoreError Unit := do
  receipts.toList.forM fun (receiptId, receipt) => do
    validateReceipt N receiptId receipt semantics[receiptId]?
    require (receiptId < nextIdentity)
      (incoherent "durable next identity does not exceed every receipt row")
  require (semantics.keys.all receipts.contains)
    (incoherent "durable semantic custody has no receipt")

end Receipts

end Fava.WriteStore.Redb
