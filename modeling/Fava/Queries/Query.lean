import Fava.Cache.Memory
import Fava.Subscriptions.Matching
import Fava.Write.Receipt

namespace Fava.Queries

open Fava.Cache (SourceRetraction)
open Std Fava.Lib Fava.Nostr Fava.Relay Fava.State Fava.Subscriptions Fava.Write

/-- Whether an event may come from any local source, or only from relays that served it. -/
inductive ResultAuthority
  | anyLocal
  | onlyRelays (relays : BTreeSet RelayUrl)

structure FilterSelection where
  ids : Option (BTreeSet EventId)
  authors : Option (BTreeSet PublicKey)
  authorsCurrentAccount : Bool
  kinds : Option (BTreeSet Kind)
  tagValues : BTreeMap SingleLetterTag (BTreeSet String)
  tagValuesCurrentAccount : BTreeSet SingleLetterTag

inductive QueryOrdering
  | newestFirst
  | oldestFirst

structure Query where
  selection : FilterSelection
  authority : ResultAuthority
  access : Authority
  ordering : QueryOrdering
  limit : Option Nat

namespace Query

/-- A query for everything there is. -/
def events : Query := ⟨⟨none, none, false, none, ∅, ∅⟩, .anyLocal, .unauthenticated, .newestFirst, none⟩

def dependsOnCurrentAccount (query : Query) : Bool :=
  query.selection.authorsCurrentAccount || !query.selection.tagValuesCurrentAccount.isEmpty

/-- The query is unbound, or an axis is there and empty. -/
def matchesNothing (query : Query) : Bool :=
  query.dependsOnCurrentAccount || query.selection.ids.any (·.isEmpty) ||
    query.selection.authors.any (·.isEmpty) || query.selection.kinds.any (·.isEmpty) ||
    query.selection.tagValues.values.any (·.isEmpty)

end Query

inductive SourceKind
  | eventCache
  | writeStore
  | liveRelay (session : RelayUrl)

inductive SourceTerminationCause
  | localClose
  | providerClosed
  | providerFailed (detail : BoundedText)
  | shutdown

inductive SourceStatus
  | isOpen
  | closed (cause : SourceTerminationCause)

/-- One contribution to the merge: of a relay, or of the write store. -/
inductive SourceEvent
  | relay (contribution : RelayEvent)
  | localWrite (contribution : LocalWriteEvent)

structure SourceSnapshot where
  kind : SourceKind
  revision : Nat
  status : SourceStatus
  events : List SourceEvent
  retractions : List SourceRetraction

structure SourceEvidence where
  kind : SourceKind
  revision : Nat
  status : SourceStatus
  retractions : List SourceRetraction

/-- The relay sessions that served one event. -/
structure RelayOccurrences where
  eventId : EventId
  occurrences : BTreeMap RelayUrl RelayOccurrence

structure EventRecord where
  id : EventId
  event : EventValue
  relayOccurrences : RelayOccurrences
  publication : Option PublicationEvidence

inductive QueryEvaluationError
  | missingEventId
  | relayOccurrenceEventMismatch (event occurrences : EventId)

/-- A record has an identifier, and the occurrences of the same one. -/
def EventRecord.new (event : EventValue) (occurrences : RelayOccurrences)
    (publication : Option PublicationEvidence) : Except QueryEvaluationError EventRecord := do
  let id ← demand event.id .missingEventId
  require (id = occurrences.eventId) (.relayOccurrenceEventMismatch id occurrences.eventId)
  .ok ⟨id, event, occurrences, publication⟩

def EventRecord.createdAt (record : EventRecord) : Timestamp := record.event.createdAt

structure QuerySnapshot where
  revision : Nat
  events : List EventRecord
  sources : List SourceEvidence

def QuerySnapshot.evaluated (events : List EventRecord) (sources : List SourceSnapshot) :
    QuerySnapshot :=
  ⟨0, events, sources.map fun source => ⟨source.kind, source.revision, source.status, source.retractions⟩⟩

end Fava.Queries
