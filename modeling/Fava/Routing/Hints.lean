import Fava.Queries.Evaluation
import Fava.Routing.Answers

namespace Fava.Routing

open Std Fava.Lib Fava.Nostr Fava.Relay Fava.State Fava.Queries Fava.Write

/-- The event that a request writes. -/
def RouteRequest.event : RouteRequest → Option EventValue
  | .read _ => none
  | .write event _ => some event

/-- Routes to the relays that a reference names, or that served the event itself. -/
structure HintRouter where
  name : String

namespace HintRouter

structure HintSession where
  request : RouteRequest
  current : RouteContribution

def referenced : RouteTarget → Option EventId
  | .referencedEvent id => some id
  | _ => none

variable (N : Library) (T : TagReader) (r : HintRouter)

def referencedEvents (request : RouteRequest) : BTreeSet EventId :=
  .ofList ((request.targets T).toList.filterMap referenced)

def query (request : RouteRequest) : List DeclaredQuery :=
  let ids := referencedEvents T request
  if ids.isEmpty then []
  else
    [{ query :=
         { Query.events with
           selection := { Query.events.selection with ids := some ids }
           access := request.access }
       acquisition := .automatic
       freshness := .cacheOnly }]

/-- The relays that are known for every event. -/
abbrev Hints := BTreeMap EventId (BTreeSet RelayUrl)

/-- The event and the relay of a tag that refers to an event. -/
def hint : Tag → Option (EventId × RelayUrl)
  | "e" :: raw :: relay :: _ =>
    (T.eventId raw).bind fun id =>
      if relay = "" then none else (N.parseRelay relay).map fun relay => (id, relay)
  | _ => none

def addHint (hints : Hints) (tag : Tag) : Hints :=
  match hint N T tag with
  | some (id, relay) => hints.insert id ((hints[id]?.getD ∅).insert relay)
  | none => hints

/-- The relays that served the event of a record. -/
def servedBy (record : EventRecord) : BTreeSet RelayUrl :=
  .ofList (record.relayOccurrences.occurrences.values.map (·.session))

def addRecord (hints : Hints) (record : EventRecord) : Hints :=
  hints.insert record.id (hints[record.id]?.getD ∅ ∪ servedBy record)

/-- What the tags of the request and the inputs know of every event. -/
def gathered (request : RouteRequest) (records : List EventRecord) : Hints :=
  records.foldl addRecord ((request.event.elim [] EventValue.tags).foldl (addHint N T) ∅)

def answer (hints : Hints) (target : RouteTarget) : Option Answer :=
  (referenced target).map fun id =>
    .relays (hints[id]?.getD ∅) "Nostr reference hint or admitted relay evidence"

def project (request : RouteRequest) (inputs : List QuerySnapshot) :
    Except RouterError RouteContribution :=
  if 1 < inputs.length then .error (.refused "hint router declares at most one query")
  else
    .ok (answerTargets (answer (gathered N T request (inputs.head?.elim [] QuerySnapshot.events)))
      (request.targets T) [])

def router : Router HintSession where
  name := r.name
  queries request _ := .ok ((query T request).map (·.query))
  preview request _ inputs := project N T request inputs
  openSession request _ inputs := do
    let current ← project N T request inputs
    .ok ⟨request, current⟩
  current session := session.current
  replace session _ inputs :=
    match project N T session.request inputs with
    | .ok next => (.ok next, { session with current := next })
    | .error error => (.error error, session)

variable {N T} {hints : Hints} {tag : Tag} {tags : List Tag} {records : List EventRecord}
  {record : EventRecord} {id : EventId} {relay : RelayUrl} {request : RouteRequest}
  {inputs : List QuerySnapshot} {c : RouteContribution}

theorem mem_addHint : relay ∈ (addHint N T hints tag)[id]?.getD ∅ ↔
    relay ∈ hints[id]?.getD ∅ ∨ hint N T tag = some (id, relay) := by
  unfold addHint
  cases is : hint N T tag with
  | none => simp
  | some named =>
    obtain ⟨other, relay'⟩ := named
    dsimp only
    rw [BTreeMap.find_insert, Option.some.injEq, Prod.mk.injEq]
    by_cases here : other = id
    · subst here
      rw [if_pos rfl, Option.getD_some, BTreeSet.mem_insert, or_comm, eq_comm, and_iff_right rfl]
    · rw [if_neg here]
      simp [here]

theorem mem_addHints : relay ∈ (tags.foldl (addHint N T) hints)[id]?.getD ∅ ↔
    relay ∈ hints[id]?.getD ∅ ∨ ∃ tag ∈ tags, hint N T tag = some (id, relay) := by
  induction tags generalizing hints with
  | nil => simp
  | cons tag tags ih =>
    rw [List.foldl_cons, ih, mem_addHint, or_assoc, List.exists_mem_cons_iff]

theorem mem_addRecord : relay ∈ (addRecord hints record)[id]?.getD ∅ ↔
    relay ∈ hints[id]?.getD ∅ ∨ record.id = id ∧ relay ∈ servedBy record := by
  unfold addRecord
  rw [BTreeMap.find_insert]
  by_cases here : record.id = id
  · subst here
    rw [if_pos rfl, Option.getD_some, ExtTreeSet.mem_union_iff]
    simp
  · rw [if_neg here]
    simp [here]

theorem mem_addRecords : relay ∈ (records.foldl addRecord hints)[id]?.getD ∅ ↔
    relay ∈ hints[id]?.getD ∅ ∨ ∃ record ∈ records, record.id = id ∧ relay ∈ servedBy record := by
  induction records generalizing hints with
  | nil => simp
  | cons record records ih =>
    rw [List.foldl_cons, ih, mem_addRecord, or_assoc, List.exists_mem_cons_iff]

/-- A relay is known for an event if a tag of the request names it, or it served a record. -/
theorem mem_gathered : relay ∈ (gathered N T request records)[id]?.getD ∅ ↔
    (∃ event, request.event = some event ∧ ∃ tag ∈ event.tags, hint N T tag = some (id, relay)) ∨
      ∃ record ∈ records, record.id = id ∧ relay ∈ servedBy record := by
  unfold gathered
  rw [mem_addRecords, mem_addHints]
  cases request.event with
  | none => simp
  | some event => simp

theorem mem_servedBy : relay ∈ servedBy record ↔
    ∃ o ∈ record.relayOccurrences.occurrences.values, o.session = relay := by
  unfold servedBy
  rw [ExtTreeSet.mem_ofList, List.contains_iff_mem, List.mem_map]

/-- A hint router selects a relay for a target it is asked for, if the request names it or
it served a record. -/
theorem selects_project (h : project N T request inputs = .ok c) {target : RouteTarget} :
    c.Selects relay target ↔ target ∈ request.targets T ∧ ∃ id, target = .referencedEvent id ∧
      relay ∈ (gathered N T request (inputs.head?.elim [] QuerySnapshot.events))[id]?.getD ∅ := by
  unfold project at h
  split at h
  · cases h
  · cases h
    rw [selects_answerTargets]
    refine and_congr Iff.rfl ?_
    cases target with
    | referencedEvent id =>
      constructor
      · rintro ⟨relays, reason, same, there⟩
        cases same
        exact ⟨id, rfl, there⟩
      · rintro ⟨other, same, there⟩
        cases same
        exact ⟨_, _, rfl, there⟩
    | wholeRequest => simp [answer, referenced]
    | author key => simp [answer, referenced]
    | recipient key => simp [answer, referenced]

section Evaluated

variable {sources : List SourceSnapshot} {snapshot : QuerySnapshot} {demanded : Query}
  {occurrences : BTreeMap RelayUrl RelayOccurrence} {served : List RelayEvent}

/-- An occurrence is kept under its relay. -/
def Own (occurrences : BTreeMap RelayUrl RelayOccurrence) : Prop :=
  ∀ (relay : RelayUrl) (o : RelayOccurrence), occurrences[relay]? = some o → o.session = relay

theorem Own.step {e : RelayEvent} (own : Own occurrences) : Own (addOccurrence occurrences e) := by
  intro relay o found
  unfold addOccurrence at found
  dsimp only at found
  rw [BTreeMap.find_insert] at found
  split at found
  · rename_i here
    rw [Option.some.injEq] at found
    split at found
    · exact found ▸ here
    · rename_i current before
      split at found
      · exact found ▸ (own _ _ before).trans here
      · exact found ▸ (own _ _ before).trans here
  · exact own relay o found

/-- The occurrences that are kept are those of the relays that served an event. -/
theorem mem_addOccurrences (own : Own occurrences) :
    Own (served.foldl addOccurrence occurrences) ∧
      ∀ relay, relay ∈ served.foldl addOccurrence occurrences ↔
        relay ∈ occurrences ∨ ∃ e ∈ served, e.occurrence.session = relay := by
  induction served generalizing occurrences with
  | nil => exact ⟨own, fun relay => by simp⟩
  | cons e rest ih =>
    refine ⟨(ih own.step).1, fun relay => ?_⟩
    rw [List.foldl_cons, (ih own.step).2, List.exists_mem_cons_iff, ← or_assoc]
    refine or_congr ?_ Iff.rfl
    unfold addOccurrence
    rw [ExtTreeMap.mem_insert, LawfulEqCmp.compare_eq_iff_eq, or_comm]

theorem mem_servedBy_of_occurrences {cs : List SourceEvent}
    (is : record.relayOccurrences = occurrencesIn cs id) : relay ∈ servedBy record ↔
      ∃ e : RelayEvent, .relay e ∈ cs ∧ e.event.id = id ∧ e.occurrence.session = relay := by
  have none : Own ∅ := by
    intro relay o found
    rw [ExtTreeMap.getElem?_empty] at found
    cases found
  have both : Own (occurrencesIn cs id).occurrences ∧ ∀ relay, relay ∈ (occurrencesIn cs id).occurrences ↔
      relay ∈ (∅ : BTreeMap RelayUrl RelayOccurrence) ∨
        ∃ e ∈ (cs.filter (·.id = id)).filterMap (·.relayEvent), e.occurrence.session = relay :=
    mem_addOccurrences none
  obtain ⟨own, kept⟩ := both
  have there : relay ∈ servedBy record ↔ relay ∈ (occurrencesIn cs id).occurrences := by
    rw [mem_servedBy, is, ExtTreeMap.mem_iff_isSome_getElem?, Option.isSome_iff_exists]
    constructor
    · rintro ⟨o, listed, rfl⟩
      obtain ⟨k, found⟩ := BTreeMap.mem_values.mp listed
      exact ⟨o, (own k o found).symm ▸ found⟩
    · rintro ⟨o, found⟩
      exact ⟨o, BTreeMap.mem_values.mpr ⟨relay, found⟩, own relay o found⟩
  rw [there]
  refine (kept relay).trans ((or_iff_right ExtTreeMap.not_mem_empty).trans ?_)
  constructor
  · rintro ⟨e, listed, from'⟩
    obtain ⟨offer, listed, is⟩ := List.mem_filterMap.mp listed
    obtain ⟨listed, same⟩ := List.mem_filter.mp listed
    cases offer with
    | relay e' =>
      cases is
      exact ⟨e, listed, of_decide_eq_true same, from'⟩
    | localWrite e' => cases is
  · rintro ⟨e, listed, same, from'⟩
    exact ⟨e, List.mem_filterMap.mpr ⟨.relay e, List.mem_filter.mpr ⟨listed, decide_eq_true same⟩, rfl⟩,
      from'⟩

theorem query_eq_one {declared : DeclaredQuery} (asks : query T request = [declared]) :
    declared.query.matchesNothing = false ∧ declared.query.limit = none := by
  unfold query at asks
  dsimp only at asks
  split at asks
  · cases asks
  · rename_i inhabited
    cases asks
    refine ⟨?_, rfl⟩
    change (false || false || (referencedEvents T request).isEmpty || false || false || false) = false
    rw [Bool.of_not_eq_true inhabited]
    rfl

/-- Preview of a hint router over what its own query comes to: besides the relays that the
request names for an event, it selects those that served the event under the authority of
the request, unless a newer state of the same coordinate is referenced as well. -/
theorem served_relays_decide {declared : DeclaredQuery} (asks : query T request = [declared])
    (digested : Digested (offered declared.query sources))
    (evaluated : evaluate N declared.query sources = .ok snapshot) (r : HintRouter) (upstream : RoutePlan) :
    ∃ c, (r.router N T).preview request upstream [snapshot] = .ok c ∧
      ∀ relay target, c.Selects relay target ↔ target ∈ request.targets T ∧
        ∃ id, target = .referencedEvent id ∧
          ((∃ event, request.event = some event ∧ ∃ tag ∈ event.tags, hint N T tag = some (id, relay)) ∨
            ∃ won served, Wins N declared.query.selection (offered declared.query sources) won ∧
              won.id = id ∧ .relay served ∈ offered declared.query sources ∧
              served.event.id = id ∧ served.occurrence.session = relay) := by
  obtain ⟨something, unlimited⟩ := query_eq_one asks
  obtain ⟨all, h, rfl⟩ := (evaluate_eq_ok something).mp evaluated
  obtain ⟨records, merged, chosen⟩ := evaluateAll_eq_ok h
  rw [unlimited]
  refine ⟨_, rfl, fun relay target => ?_⟩
  have previewed : project N T request [.evaluated (truncate none all) sources] =
      .ok (answerTargets (answer (gathered N T request all)) (request.targets T) []) := rfl
  refine (selects_project previewed).trans (and_congr Iff.rfl (exists_congr fun id =>
    and_congr Iff.rfl (mem_gathered.trans (or_congr Iff.rfl ?_))))
  constructor
  · rintro ⟨record, member, rfl, there⟩
    have here := ((chosen.mem_iff record).mp member).1
    obtain ⟨candidate, gathers, -⟩ := merged.gathers here
    obtain ⟨won, listed, -⟩ := gathers.value
    rw [List.mem_filter, decide_eq_true_eq] at listed
    obtain ⟨e, served, same, from'⟩ :=
      (mem_servedBy_of_occurrences (merged.occurrences_eq here)).mp there
    exact ⟨won, e, (digested.wins_iff merged chosen listed.1 here listed.2).mp member, listed.2, served,
      same, from'⟩
  · rintro ⟨won, e, wins, rfl, served, same, from'⟩
    obtain ⟨record, here, is⟩ := merged.exists_record wins.here
    refine ⟨record, (digested.wins_iff merged chosen wins.here here is.symm).mpr wins, is, ?_⟩
    exact (mem_servedBy_of_occurrences (merged.occurrences_eq here)).mpr ⟨e, served, same.trans is.symm, from'⟩

end Evaluated

section Samples

def plainReader : TagReader := ⟨fun _ => none, fun text => if text = "7" then some 7 else none⟩

/-- A reply that names a relay for what it replies to. -/
def reply : RouteRequest :=
  .write (.unsigned ⟨some 9, 4, 20, 1, [["e", "7", "wss://hint.example/"]], ""⟩) .unauthenticated

def servedNote (relay : RelayUrl) (authority : Authority) : SourceEvent :=
  .relay ⟨⟨7, 2, 5, 1, [], "", 0⟩, ⟨relay, authority, 30⟩⟩

/-- One relay served the note to anybody, and another one to an account. -/
def servedTwice : List SourceSnapshot :=
  [⟨.eventCache, 1, .isOpen, [servedNote "wss://open.example/" .unauthenticated,
    servedNote "wss://closed.example/" (.asAccount 4)], []⟩]

def noteQuery : DeclaredQuery where
  query := { Query.events with selection := { Query.events.selection with ids := some {7} } }
  acquisition := .automatic
  freshness := .cacheOnly

theorem served_relays_decide_reply : ∃ snapshot c,
    evaluate plainLibrary noteQuery.query servedTwice = .ok snapshot ∧
      ((HintRouter.mk "hints").router plainLibrary plainReader).preview reply .none [snapshot] = .ok c ∧
        c.Selects "wss://open.example/" (.referencedEvent 7) ∧
        c.Selects "wss://hint.example/" (.referencedEvent 7) ∧
        ¬c.Selects "wss://closed.example/" (.referencedEvent 7) := by
  have referred : referencedEvents plainReader reply = {7} := by decide +kernel
  have asks : query plainReader reply = [noteQuery] := by
    unfold query
    rw [referred]
    rfl
  have offer : offered noteQuery.query servedTwice =
      [servedNote "wss://open.example/" .unauthenticated] := rfl
  have digested : Digested (offered noteQuery.query servedTwice) := by
    rw [offer]
    refine ⟨fun c here => ?_, fun c here d there same => ?_⟩
    · obtain rfl := List.mem_singleton.mp here
      rfl
    · obtain rfl := List.mem_singleton.mp here
      obtain rfl := List.mem_singleton.mp there
      exact ⟨rfl, rfl, rfl, rfl⟩
  obtain ⟨all, h⟩ := digested.evaluateAll_total (N := plainLibrary)
  have evaluated := (evaluate_eq_ok (query_eq_one asks).1).mpr ⟨all, h, rfl⟩
  obtain ⟨c, previewed, decides⟩ := served_relays_decide asks digested evaluated ⟨"hints"⟩ .none
  have asked : .referencedEvent 7 ∈ reply.targets plainReader := by decide +kernel
  refine ⟨_, c, evaluated, previewed, (decides _ _).mpr ⟨asked, 7, rfl, .inr ?_⟩,
    (decides _ _).mpr ⟨asked, 7, rfl, .inl ?_⟩, fun selected => ?_⟩
  · rw [offer]
    refine ⟨_, _, ⟨List.mem_singleton.mpr rfl, by decide +kernel, fun d there _ _ => .inl ?_⟩, rfl,
      List.mem_singleton.mpr rfl, rfl, rfl⟩
    rw [List.mem_singleton.mp there]
  · exact ⟨_, rfl, _, List.mem_singleton.mpr rfl, by decide +kernel⟩
  · obtain ⟨-, id, same, ⟨event, is, tag, listed, hinted⟩ | ⟨won, served, -, -, there, -, relay⟩⟩ :=
      (decides _ _).mp selected
    · cases same
      cases is
      obtain rfl := List.mem_singleton.mp listed
      revert hinted
      decide +kernel
    · rw [offer] at there
      cases List.mem_singleton.mp there
      revert relay
      decide +kernel

end Samples

end HintRouter

end Fava.Routing
