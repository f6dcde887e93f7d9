import Fava.Lib.First
import Fava.Queries.Query

namespace Fava.Queries

open Std Fava.Lib Fava.Nostr Fava.Relay Fava.State Fava.Subscriptions Fava.Write

/-- The evidence for one event while the sources are merged. -/
structure Candidate where
  event : EventValue
  relay : List RelayEvent
  publication : Option PublicationEvidence

/-- Both the authority of a contribution and its relay are what the query asks for. -/
def relayQualifies (query : Query) (contribution : RelayEvent) : Bool :=
  contribution.occurrence.authority = query.access &&
    match query.authority with
    | .anyLocal => true
    | .onlyRelays relays => relays.contains contribution.occurrence.session

def Candidate.takeRelay (candidate : Candidate) (contribution : RelayEvent) : Candidate where
  event :=
    match candidate.event with
    | .unsigned _ => .signed contribution.event
    | .signed event => .signed event
  relay := candidate.relay ++ [contribution]
  publication := candidate.publication

def Candidate.takeLocal (candidate : Candidate) (contribution : LocalWriteEvent) : Candidate where
  event :=
    match contribution.event with
    | .unsigned _ => candidate.event
    | .signed event => .signed event
  relay := candidate.relay
  publication := candidate.publication <|> some contribution.publication

/-- Merge one contribution into the candidate of its event. -/
def mergeQualifyingContribution (query : Query) (records : BTreeMap EventId Candidate) :
    SourceEvent → BTreeMap EventId Candidate
  | .relay contribution =>
    let event := contribution.event
    if relayQualifies query contribution then
      records.insert event.id
        ((records[event.id]?.getD ⟨.signed event, [], none⟩).takeRelay contribution)
    else records
  | .localWrite contribution =>
    match query.authority with
    | .anyLocal =>
      records.insert contribution.id
        ((records[contribution.id]?.getD ⟨contribution.event, [], none⟩).takeLocal contribution)
    | .onlyRelays _ => records

/-- The earliest occurrence of every relay session. -/
def addOccurrence (occurrences : BTreeMap RelayUrl RelayOccurrence) (contribution : RelayEvent) :
    BTreeMap RelayUrl RelayOccurrence :=
  let incoming := contribution.occurrence
  occurrences.insert incoming.session
    (match occurrences[incoming.session]? with
    | none => incoming
    | some current =>
      if incoming.observedAt < current.observedAt then
        { current with observedAt := incoming.observedAt }
      else current)

def relayOccurrencesForEvent (id : EventId) (contributions : List RelayEvent) :
    Option RelayOccurrences :=
  if contributions.any fun contribution => contribution.event.id ≠ id then none
  else some ⟨id, contributions.foldl addOccurrence ∅⟩

def Candidate.intoRecord (id : EventId) (candidate : Candidate) :
    Except QueryEvaluationError EventRecord := do
  let occurrences ← demand (relayOccurrencesForEvent id candidate.relay)
    (.relayOccurrenceEventMismatch id
      (((candidate.relay.find? fun contribution => contribution.event.id ≠ id).map
        (·.event.id)).getD id))
  EventRecord.new candidate.event occurrences candidate.publication

/-- Every axis that is there has the record; of a tag, one value is enough. -/
def matchesSelection (selection : FilterSelection) (id : EventId) (event : EventValue) : Bool :=
  selection.ids.all (·.contains id) && selection.authors.all (·.contains event.author) &&
    selection.kinds.all (·.contains event.kind) &&
    selection.tagValues.toList.all fun (key, values) =>
      event.tags.any fun tag => tag.head?.bind singleLetterTag = some key && tag[1]?.any values.contains

variable (N : Library)

def EventRecord.coordinate (record : EventRecord) : EventCoordinate :=
  eventCoordinate N record.id record.event.author record.event.kind record.event.tags

/-- What records are ordered by. -/
def EventRecord.stamp (record : EventRecord) : Timestamp × EventId := (record.createdAt, record.id)

def EventRecord.newer (candidate current : EventRecord) : Bool :=
  eventIsNewer candidate.stamp current.stamp

/-- Keep whichever of two records of one coordinate is newer. -/
def insertNewest (records : BTreeMap EventCoordinate EventRecord) (incoming : EventRecord) :
    BTreeMap EventCoordinate EventRecord :=
  records.insert (incoming.coordinate N)
    (keepGreater EventRecord.newer incoming records[incoming.coordinate N]?)

/-- The newest record of every coordinate. -/
def coordinateWinners (records : List EventRecord) : List EventRecord :=
  (records.foldl (insertNewest N) ∅).values

/-- Whether what bears the left stamp may stand before what bears the right one. -/
def QueryOrdering.le : QueryOrdering → Timestamp × EventId → Timestamp × EventId → Bool
  | .newestFirst, left, right => right.1 < left.1 || right.1 = left.1 && right.2 ≤ left.2
  | .oldestFirst, left, right => left.1 < right.1 || left.1 = right.1 && left.2 ≤ right.2

/-- The matching records that are the newest of their coordinates, in order. -/
def evaluateAll (query : Query) (sources : List SourceSnapshot) :
    Except QueryEvaluationError (List EventRecord) := do
  let byId := sources.foldl (fun records source =>
    source.events.foldl (mergeQualifyingContribution query) records) ∅
  let records ← byId.toList.mapM fun (id, candidate) => candidate.intoRecord id
  .ok ((coordinateWinners N (records.filter fun record =>
    matchesSelection query.selection record.id record.event)).mergeSort fun left right =>
      query.ordering.le left.stamp right.stamp)

def truncate (limit : Option Nat) (events : List EventRecord) : List EventRecord :=
  match limit with
  | none => events
  | some limit => events.take limit

def evaluate (query : Query) (sources : List SourceSnapshot) :
    Except QueryEvaluationError QuerySnapshot := do
  if query.matchesNothing then .ok (.evaluated [] sources)
  else do
    let events ← evaluateAll N query sources
    .ok (.evaluated (truncate query.limit events) sources)

end Fava.Queries
