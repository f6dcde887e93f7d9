import Fava.Lib.BTree
import Fava.Write.Intent

namespace Fava.Write

open Std Fava.Lib Fava.Nostr Fava.Relay

abbrev WriteId := Nat
abbrev ReceiptId := Nat
abbrev RevisionId := Nat

/-- Numbers that are counted up stay below this. -/
def counterBound : Nat := 2 ^ 64

def RevisionId.first : RevisionId := 1

def RevisionId.checkedNext (id : RevisionId) : Option RevisionId :=
  if id + 1 < counterBound then some (id + 1) else none

/-- How far signing has got for the current revision. -/
inductive SignatureState
  | unsigned
  | authorized
  | retryable (reason : String)
  | signed
  | refused (reason : String)
deriving DecidableEq

/-- The current fact for one destination. -/
inductive RelayDeliveryOutcome
  | pending
  | attempting
  | retryable (reason : String)
  | acknowledged (message : String)
  | rejected (message : String)
  | authenticationDenied (reason : String)
  | givenUp (reason : String)
  | unknown (reason : String)
  | cancelledBeforeHandoff
deriving DecidableEq

namespace RelayDeliveryOutcome

def isTerminal : RelayDeliveryOutcome → Bool
  | .acknowledged _ | .rejected _ | .authenticationDenied _ | .givenUp _ | .unknown _
  | .cancelledBeforeHandoff => true
  | .pending | .attempting | .retryable _ => false

def isRetryable : RelayDeliveryOutcome → Bool
  | .retryable _ => true
  | _ => false

def isGivenUp : RelayDeliveryOutcome → Bool
  | .givenUp _ => true
  | _ => false

/-- Nothing has been handed to the transport since the last definite failure. -/
def isPreHandoff : RelayDeliveryOutcome → Bool
  | .pending | .retryable _ => true
  | _ => false

theorem isPreHandoff_of_isTerminal {outcome : RelayDeliveryOutcome}
    (h : outcome.isTerminal = true) : outcome.isPreHandoff = false := by
  cases outcome <;> first | rfl | cases h

theorem isTerminal_of_isGivenUp {outcome : RelayDeliveryOutcome}
    (h : outcome.isGivenUp = true) : outcome.isTerminal = true := by
  cases outcome <;> first | rfl | cases h

end RelayDeliveryOutcome

/-- A generation that a later one replaced. -/
structure RetiredRevision where
  revisionId : RevisionId
  eventId : EventId
  source : Option EventId
  failure : Option String
deriving DecidableEq

/-- Which generation of a write is current, how far signing and delivery got, and
which generations came before. -/
structure PublicationEvidence where
  receiptId : ReceiptId
  writeId : WriteId
  revisionId : RevisionId
  revisionSource : Option EventId
  revisionFailure : Option String
  retiredRevisions : List RetiredRevision
  signature : SignatureState
  destinations : BTreeMap RelayUrl RelayDeliveryOutcome
deriving DecidableEq

structure LocalWriteEvent where
  id : EventId
  event : EventValue
  publication : PublicationEvidence
deriving DecidableEq

inductive InvalidEventValue
  | missingId

def EventValue.coordinate (N : Library) (value : EventValue) :
    Except InvalidEventValue EventCoordinate :=
  match value.id with
  | none => .error .missingId
  | some id => .ok (eventCoordinate N id value.author value.kind value.tags)

def LocalWriteEvent.new (event : EventValue) (publication : PublicationEvidence) :
    Except InvalidEventValue LocalWriteEvent :=
  match event.id with
  | none => .error .missingId
  | some id => .ok ⟨id, event, publication⟩

inductive ReceiptOutcome
  | isOpen
  | cancelled
  | complete
  | noDestination
deriving DecidableEq

/-- The current facts of one accepted publication obligation. -/
structure Receipt where
  writeId : WriteId
  receiptId : ReceiptId
  current : LocalWriteEvent
  routing : WriteRouting
  access : Authority
  outcome : ReceiptOutcome
  routeRevision : Nat
  routeSettled : Bool
  routeShortfalls : List String
  desiredDestinations : BTreeSet RelayUrl
  attempts : BTreeMap RelayUrl Nat
deriving DecidableEq

namespace Receipt

variable (receipt : Receipt)

def isTerminal : Bool := receipt.outcome ≠ .isOpen

def destinations : BTreeMap RelayUrl RelayDeliveryOutcome := receipt.current.publication.destinations

/-- Every destination has a terminal fact. -/
def allTerminal : Bool := receipt.destinations.values.all RelayDeliveryOutcome.isTerminal

/-- The record a generation leaves behind when a later one replaces it. -/
def retirement : RetiredRevision :=
  ⟨receipt.current.publication.revisionId, receipt.current.id,
    receipt.current.publication.revisionSource, receipt.current.publication.revisionFailure⟩

/-- The same receipt with other evidence. -/
def withPublication (publication : PublicationEvidence) : Receipt :=
  { receipt with current := { receipt.current with publication := publication } }

def withSignature (signature : SignatureState) : Receipt :=
  receipt.withPublication { receipt.current.publication with signature := signature }

def withDestinations (destinations : BTreeMap RelayUrl RelayDeliveryOutcome) : Receipt :=
  receipt.withPublication { receipt.current.publication with destinations := destinations }

end Receipt

end Fava.Write
