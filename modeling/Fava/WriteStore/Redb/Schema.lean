import Fava.Lib.Json
import Fava.WriteStore.Semantic

namespace Fava.WriteStore.Redb

open Std Fava.Lib Fava.Nostr Fava.Relay Fava.Routing Fava.Write

/-- How the Nostr library writes its types. Each value is read as it was written. -/
structure NostrJson where
  eventId : TextForm EventId
  publicKey : TextForm PublicKey
  relayUrl : TextForm RelayUrl
  timestamp : Codec Timestamp
  kind : Codec Kind
  unsignedEvent : Codec UnsignedEvent
  event : Codec Event
  timestamp_keeps : ∀ time, timestamp.Keeps time
  kind_keeps : ∀ k, kind.Keeps k
  unsignedEvent_keeps : ∀ event, unsignedEvent.Keeps event
  event_keeps : ∀ signed, event.Keeps signed

/-- The edits in custody for one coordinate, the source they were applied to, and the
generation that waits for the signing of the current one. -/
structure SemanticCustody where
  edits : List EventEdit
  author : PublicKey
  currentSource : Option Source
  failedSource : Option EventId
  successor : Option Successor

/-- One row of the database. -/
structure PersistedReceipt where
  receipt : Receipt
  semantic : Option SemanticCustody

section Codecs

variable (N : Library) (W : NostrJson)

/-- The numbers of eight bytes that are not zero, and all of them. -/
def identity : Codec Nat := .number 1 counterBound

def counter : Codec Nat := .number 0 counterBound

def byte : Codec UInt8 := .through (.number 0 256) UInt8.toNat fun n => .ok (UInt8.ofNat n)

def routeTarget : Codec RouteTarget where
  write
    | .wholeRequest => .ok (.string "WholeRequest")
    | .author key => W.publicKey.codec.tagged "Author" key
    | .recipient key => W.publicKey.codec.tagged "Recipient" key
    | .referencedEvent id => W.eventId.codec.tagged "ReferencedEvent" id
  read json := do
    match ← json.variant with
    | ("WholeRequest", none) => .ok .wholeRequest
    | ("Author", some json) => do .ok (.author (← W.publicKey.codec.read json))
    | ("Recipient", some json) => do .ok (.recipient (← W.publicKey.codec.read json))
    | ("ReferencedEvent", some json) => do .ok (.referencedEvent (← W.eventId.codec.read json))
    | _ => .error "unknown variant"
  missing := none

/-- A target as the name of a member: only a case that holds nothing is one. -/
def routeTargetKey : KeyCodec RouteTarget where
  write
    | .wholeRequest => .ok "WholeRequest"
    | .author _ | .recipient _ | .referencedEvent _ => .error "key must be a string"
  read
    | "WholeRequest" => .ok .wholeRequest
    | _ => .error "unknown variant"

def coverageState : Codec CoverageState where
  write
    | .covered relays => W.relayUrl.codec.set.tagged "Covered" relays
    | .unresolved => .ok (.string "Unresolved")
    | .settledAbsent => .ok (.string "SettledAbsent")
  read json := do
    match ← json.variant with
    | ("Covered", some json) => do .ok (.covered (← W.relayUrl.codec.set.read json))
    | ("Unresolved", none) => .ok .unresolved
    | ("SettledAbsent", none) => .ok .settledAbsent
    | _ => .error "unknown variant"
  missing := none

def routeReason : Codec RouteReason :=
  Items.tuple (.cons .text <| .cons .text .nil) (fun value => (value.router, value.reason, ()))
    fun (router, reason, _) => ⟨router, reason⟩

def plannedRelay : Codec PlannedRelay :=
  Fields.record
    (.cons "session" W.relayUrl.codec <| .cons "targets" (routeTarget W).set <|
      .cons "reasons" routeReason.set .nil)
    (fun relay => (relay.session, relay.targets, relay.reasons, ()))
    fun (session, targets, reasons, _) => ⟨session, targets, reasons⟩

def routePlan : Codec RoutePlan :=
  Fields.record
    (.cons "revision" counter <| .cons "destinations" (.map W.relayUrl.key (plannedRelay W)) <|
      .cons "coverage" (.map routeTargetKey (coverageState W)) <|
      .cons "unresolved" (routeTarget W).set <| .cons "shortfalls" Codec.text.list .nil)
    (fun plan =>
      (plan.revision, plan.destinations, plan.coverage, plan.unresolved, plan.shortfalls, ()))
    fun (revision, destinations, coverage, unresolved, shortfalls, _) =>
      ⟨revision, destinations, coverage, unresolved, shortfalls⟩

/-- The members of an edit; the one that names an identifier has to be there. -/
def encodedEdit : Codec EventEdit :=
  Fields.record
    (Fields.closed <| .cons "kind" W.kind <| .cons "identifier" Codec.text.option.required <|
      .cons "change" byte.list .nil)
    (fun edit => (edit.kind, edit.identifier, edit.change, ()))
    fun (kind, identifier, change, _) => ⟨kind, identifier, change⟩

/-- An edit is checked again where it is read. -/
def eventEdit : Codec EventEdit :=
  .through (encodedEdit W) id fun edit =>
    (EventEdit.new N edit.kind edit.identifier edit.change).mapError WriteIntentError.text

def eventValue : Codec EventValue where
  write
    | .unsigned event => W.unsignedEvent.tagged "Unsigned" event
    | .signed event => W.event.tagged "Signed" event
  read json := do
    match ← json.variant with
    | ("Unsigned", some json) => do .ok (.unsigned (← W.unsignedEvent.read json))
    | ("Signed", some json) => do .ok (.signed (← W.event.read json))
    | _ => .error "unknown variant"
  missing := none

def signatureState : Codec SignatureState where
  write
    | .unsigned => .ok (.string "Unsigned")
    | .authorized => .ok (.string "Authorized")
    | .retryable reason => Codec.text.tagged "Retryable" reason
    | .signed => .ok (.string "Signed")
    | .refused reason => Codec.text.tagged "Refused" reason
  read json := do
    match ← json.variant with
    | ("Unsigned", none) => .ok .unsigned
    | ("Authorized", none) => .ok .authorized
    | ("Retryable", some json) => do .ok (.retryable (← Codec.text.read json))
    | ("Signed", none) => .ok .signed
    | ("Refused", some json) => do .ok (.refused (← Codec.text.read json))
    | _ => .error "unknown variant"
  missing := none

/-- What a case with one named text holds. -/
def worded (name : String) : Codec String :=
  Fields.record (.cons name .text .nil) (fun text => (text, ())) Prod.fst

def deliveryOutcome : Codec RelayDeliveryOutcome where
  write
    | .pending => .ok (.string "Pending")
    | .attempting => .ok (.string "Attempting")
    | .retryable reason => (worded "reason").tagged "Retryable" reason
    | .acknowledged message => (worded "message").tagged "Acknowledged" message
    | .rejected message => (worded "message").tagged "Rejected" message
    | .authenticationDenied reason => (worded "reason").tagged "AuthenticationDenied" reason
    | .givenUp reason => (worded "reason").tagged "GivenUp" reason
    | .unknown reason => (worded "reason").tagged "Unknown" reason
    | .cancelledBeforeHandoff => .ok (.string "CancelledBeforeHandoff")
  read json := do
    match ← json.variant with
    | ("Pending", none) => .ok .pending
    | ("Attempting", none) => .ok .attempting
    | ("Retryable", some json) => do .ok (.retryable (← (worded "reason").read json))
    | ("Acknowledged", some json) => do .ok (.acknowledged (← (worded "message").read json))
    | ("Rejected", some json) => do .ok (.rejected (← (worded "message").read json))
    | ("AuthenticationDenied", some json) => do
      .ok (.authenticationDenied (← (worded "reason").read json))
    | ("GivenUp", some json) => do .ok (.givenUp (← (worded "reason").read json))
    | ("Unknown", some json) => do .ok (.unknown (← (worded "reason").read json))
    | ("CancelledBeforeHandoff", none) => .ok .cancelledBeforeHandoff
    | _ => .error "unknown variant"
  missing := none

def receiptOutcome : Codec ReceiptOutcome where
  write
    | .isOpen => .ok (.string "Open")
    | .cancelled => .ok (.string "Cancelled")
    | .complete => .ok (.string "Complete")
    | .noDestination => .ok (.string "NoDestination")
  read json := do
    match ← json.variant with
    | ("Open", none) => .ok .isOpen
    | ("Cancelled", none) => .ok .cancelled
    | ("Complete", none) => .ok .complete
    | ("NoDestination", none) => .ok .noDestination
    | _ => .error "unknown variant"
  missing := none

def writeRouting : Codec WriteRouting where
  write
    | .automatic => .ok (.string "Automatic")
    | .explicit relays => W.relayUrl.codec.list.tagged "Explicit" relays
  read json := do
    match ← json.variant with
    | ("Automatic", none) => .ok .automatic
    | ("Explicit", some json) => do .ok (.explicit (← W.relayUrl.codec.list.read json))
    | _ => .error "unknown variant"
  missing := none

def authority : Codec Authority where
  write
    | .unauthenticated => .ok (.string "Unauthenticated")
    | .asAccount key => W.publicKey.codec.tagged "As" key
  read json := do
    match ← json.variant with
    | ("Unauthenticated", none) => .ok .unauthenticated
    | ("As", some json) => do .ok (.asAccount (← W.publicKey.codec.read json))
    | _ => .error "unknown variant"
  missing := none

def retiredRevision : Codec RetiredRevision :=
  Items.tuple
    (.cons identity <| .cons W.eventId.codec <| .cons W.eventId.codec.option <|
      .cons Codec.text.option .nil)
    (fun retired => (retired.revisionId, retired.eventId, retired.source, retired.failure, ()))
    fun (revisionId, eventId, source, failure, _) => ⟨revisionId, eventId, source, failure⟩

def publicationEvidence : Codec PublicationEvidence :=
  Fields.record
    (.cons "receipt_id" identity <| .cons "write_id" identity <| .cons "revision_id" identity <|
      .cons "revision_source" W.eventId.codec.option <| .cons "revision_failure" Codec.text.option <|
      .cons "retired_revisions" (retiredRevision W).list <| .cons "signature" signatureState <|
      .cons "destinations" (.map W.relayUrl.key deliveryOutcome) .nil)
    (fun evidence =>
      (evidence.receiptId, evidence.writeId, evidence.revisionId, evidence.revisionSource,
        evidence.revisionFailure, evidence.retiredRevisions, evidence.signature,
        evidence.destinations, ()))
    fun (receiptId, writeId, revisionId, revisionSource, revisionFailure, retiredRevisions,
        signature, destinations, _) =>
      ⟨receiptId, writeId, revisionId, revisionSource, revisionFailure, retiredRevisions, signature,
        destinations⟩

def localWriteEvent : Codec LocalWriteEvent :=
  Fields.record
    (.cons "id" W.eventId.codec <| .cons "event" (eventValue W) <|
      .cons "publication" (publicationEvidence W) .nil)
    (fun current => (current.id, current.event, current.publication, ()))
    fun (id, event, publication, _) => ⟨id, event, publication⟩

def receiptCodec : Codec Receipt :=
  Fields.record
    (.cons "write_id" identity <| .cons "receipt_id" identity <|
      .cons "current" (localWriteEvent W) <| .cons "routing" (writeRouting W) <|
      .cons "access" (authority W) <| .cons "outcome" receiptOutcome <|
      .cons "route_revision" counter <| .cons "route_settled" .bool <|
      .cons "route_shortfalls" Codec.text.list <|
      .cons "desired_destinations" W.relayUrl.codec.set <|
      .cons "attempts" (.map W.relayUrl.key (.number 0 (2 ^ 32))) .nil)
    (fun receipt =>
      (receipt.writeId, receipt.receiptId, receipt.current, receipt.routing, receipt.access,
        receipt.outcome, receipt.routeRevision, receipt.routeSettled, receipt.routeShortfalls,
        receipt.desiredDestinations, receipt.attempts, ()))
    fun (writeId, receiptId, current, routing, access, outcome, routeRevision, routeSettled,
        routeShortfalls, desiredDestinations, attempts, _) =>
      ⟨writeId, receiptId, current, routing, access, outcome, routeRevision, routeSettled,
        routeShortfalls, desiredDestinations, attempts⟩

def source : Codec Source :=
  Items.tuple (.cons W.eventId.codec <| .cons W.timestamp .nil) (fun source => (source.1, source.2, ()))
    fun (id, time, _) => (id, time)

def successorCodec : Codec Successor :=
  Items.tuple
    (.cons (eventEdit N W).option <| .cons W.unsignedEvent <| .cons (source W).option <|
      .cons (routePlan W).option .nil)
    (fun successor => (successor.edit, successor.event, successor.source, successor.route, ()))
    fun (edit, event, source, route, _) => ⟨edit, event, source, route⟩

def persistedSemantic : Codec SemanticCustody :=
  Fields.record
    (.cons "edits" (eventEdit N W).list <| .cons "author" W.publicKey.codec <|
      .cons "current_source" (source W).option <| .cons "failed_source" W.eventId.codec.option <|
      .cons "successor" (successorCodec N W).option .nil)
    (fun custody =>
      (custody.edits, custody.author, custody.currentSource, custody.failedSource, custody.successor,
        ()))
    fun (edits, author, currentSource, failedSource, successor, _) =>
      ⟨edits, author, currentSource, failedSource, successor⟩

def persistedReceipt : Codec PersistedReceipt :=
  Fields.record
    (.cons "receipt" (receiptCodec W) <| .cons "semantic" (persistedSemantic N W).option .nil)
    (fun row => (row.receipt, row.semantic, ()))
    fun (receipt, semantic, _) => ⟨receipt, semantic⟩

end Codecs

end Fava.WriteStore.Redb
