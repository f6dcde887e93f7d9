import Fava.Queries.Standard

namespace Fava.Queries

open Std Fava.Lib Fava.Nostr Fava.Relay Fava.State Fava.Subscriptions Fava.Write

namespace SourceEvent

def id : SourceEvent → EventId
  | .relay contribution => contribution.event.id
  | .localWrite contribution => contribution.id

def value : SourceEvent → EventValue
  | .relay contribution => .signed contribution.event
  | .localWrite contribution => contribution.event

def relayEvent : SourceEvent → Option RelayEvent
  | .relay contribution => some contribution
  | .localWrite _ => none

/-- Whether the query takes contributions of this source at all. -/
def admitted (query : Query) : SourceEvent → Bool
  | .relay contribution => relayQualifies query contribution
  | .localWrite _ =>
    match query.authority with
    | .anyLocal => true
    | .onlyRelays _ => false

/-- The candidate of an event once this contribution came in. -/
def join : SourceEvent → Option Candidate → Candidate
  | .relay contribution, found =>
    (found.getD ⟨.signed contribution.event, [], none⟩).takeRelay contribution
  | .localWrite contribution, found =>
    (found.getD ⟨contribution.event, [], none⟩).takeLocal contribution

end SourceEvent

def isSigned : EventValue → Bool
  | .unsigned _ => false
  | .signed _ => true

def contributions (sources : List SourceSnapshot) : List SourceEvent := sources.flatMap (·.events)

/-- All that the query takes. -/
def offered (query : Query) (sources : List SourceSnapshot) : List SourceEvent :=
  (contributions sources).filter (·.admitted query)

/-- What is known of one event, from all the contributions of it. -/
def gather (cs : List SourceEvent) : Option Candidate := cs.foldl (fun v c => some (c.join v)) none

/-- The candidates of the whole merge. -/
def mergeAll (query : Query) (sources : List SourceSnapshot) : BTreeMap EventId Candidate :=
  sources.foldl (fun records source =>
    source.events.foldl (mergeQualifyingContribution query) records) ∅

variable {query : Query} {sources : List SourceSnapshot} {cs : List SourceEvent} {id : EventId}
  {candidate : Candidate} {record : EventRecord} {records : List EventRecord}

theorem mergeQualifyingContribution_eq {m : BTreeMap EventId Candidate} {c : SourceEvent} :
    mergeQualifyingContribution query m c =
      if c.admitted query then m.insert c.id (c.join m[c.id]?) else m := by
  cases c with
  | relay contribution => rfl
  | localWrite contribution =>
    unfold mergeQualifyingContribution SourceEvent.admitted
    cases query.authority <;> rfl

theorem mergeAll_eq : mergeAll query sources =
    (offered query sources).foldl (fun m c => m.insert c.id (c.join m[c.id]?)) ∅ := by
  unfold mergeAll offered contributions
  rw [List.foldl_filter, List.foldl_flatMap]
  congr 1
  funext m source
  congr 1
  funext m c
  exact mergeQualifyingContribution_eq

theorem find_mergeAll :
    (mergeAll query sources)[id]? = gather ((offered query sources).filter (·.id = id)) := by
  rw [mergeAll_eq, BTreeMap.find_foldl_merge, ExtTreeMap.getElem?_empty]
  rfl

/-- What the merge keeps of an event: a value that some contribution has, signed if any is,
and all the relay contributions. -/
structure Gathers (cs : List SourceEvent) (candidate : Candidate) : Prop where
  value : ∃ c ∈ cs, c.value = candidate.event
  signed : isSigned candidate.event = cs.any (isSigned ·.value)
  relay : candidate.relay = cs.filterMap (·.relayEvent)

theorem gather_eq_none : gather cs = none ↔ cs = [] := by
  cases cs using List.reverseRecOn with
  | nil => exact iff_of_true rfl rfl
  | append_singleton l last => simp [gather]

theorem join_none (c : SourceEvent) :
    (c.join none).event = c.value ∧ (c.join none).relay = c.relayEvent.toList := by
  cases c with
  | relay contribution => exact ⟨rfl, rfl⟩
  | localWrite contribution =>
    refine ⟨?_, rfl⟩
    change (match contribution.event with
      | .unsigned _ => contribution.event
      | .signed event => .signed event) = contribution.event
    cases contribution.event <;> rfl

/-- A contribution adds what is signed to what was not, and nothing is signed by itself. -/
theorem join_some (c : SourceEvent) :
    ((c.join (some candidate)).event = c.value ∨ (c.join (some candidate)).event = candidate.event) ∧
      isSigned (c.join (some candidate)).event = (isSigned candidate.event || isSigned c.value) ∧
      (c.join (some candidate)).relay = candidate.relay ++ c.relayEvent.toList := by
  obtain ⟨event, relay, publication⟩ := candidate
  cases c with
  | relay contribution =>
    cases event with
    | unsigned event => exact ⟨.inl rfl, rfl, rfl⟩
    | signed event => exact ⟨.inr rfl, rfl, rfl⟩
  | localWrite contribution =>
    obtain ⟨id, value, publication'⟩ := contribution
    cases value with
    | unsigned event' => exact ⟨.inr rfl, (Bool.or_false _).symm, (List.append_nil _).symm⟩
    | signed event' => exact ⟨.inl rfl, (Bool.or_true _).symm, (List.append_nil _).symm⟩

theorem Gathers.join (gathers : Gathers cs candidate) (c : SourceEvent) :
    Gathers (cs ++ [c]) (c.join (some candidate)) := by
  obtain ⟨⟨d, here, value⟩, signed, relay⟩ := gathers
  have joined := @join_some candidate c
  obtain ⟨event', signed', relay'⟩ := joined
  refine ⟨?_, ?_, ?_⟩
  · obtain new | kept := event'
    · exact ⟨c, List.mem_append_right _ (List.mem_singleton_self c), new.symm⟩
    · exact ⟨d, List.mem_append_left _ here, value.trans kept.symm⟩
  · rw [signed', signed, List.any_append, List.any_cons, List.any_nil, Bool.or_false]
  · rw [relay', relay, List.filterMap_append]
    cases h : c.relayEvent <;> simp [h]

theorem gathers_of_gather (gathered : gather cs = some candidate) : Gathers cs candidate := by
  induction cs using List.reverseRecOn generalizing candidate with
  | nil => cases gathered
  | append_singleton l last ih =>
    unfold gather at gathered
    rw [List.foldl_append, List.foldl_cons, List.foldl_nil, Option.some.injEq] at gathered
    subst gathered
    cases before : l.foldl (fun v c => some (c.join v)) none with
    | none =>
      obtain rfl := gather_eq_none.mp before
      obtain ⟨event, relay⟩ := join_none last
      refine ⟨⟨last, List.mem_singleton_self _, event.symm⟩, ?_, ?_⟩
      · simp [event]
      · cases h : last.relayEvent <;> simp [relay, h]
    | some candidate => exact (ih before).join last

/-- The record that a candidate is made into. -/
def Candidate.asRecord (id : EventId) (candidate : Candidate) : EventRecord :=
  ⟨id, candidate.event, ⟨id, candidate.relay.foldl addOccurrence ∅⟩, candidate.publication⟩

theorem intoRecord_eq_ok : candidate.intoRecord id = .ok record ↔
    (∀ c ∈ candidate.relay, c.event.id = id) ∧ candidate.event.id = some id ∧
      record = candidate.asRecord id := by
  unfold Candidate.intoRecord relayOccurrencesForEvent EventRecord.new
  rw [demand_bind_eq_ok]
  split
  · rename_i stranger
    refine ⟨nofun, fun ⟨own, _⟩ => ?_⟩
    rw [List.any_eq_true] at stranger
    obtain ⟨c, here, other⟩ := stranger
    exact absurd (own c here) (by simpa using other)
  · rename_i own
    have own : ∀ c ∈ candidate.relay, c.event.id = id := by simpa using own
    constructor
    · rintro ⟨occurrences, found, h⟩
      cases found
      obtain ⟨id', known, h⟩ := demand_bind_eq_ok.mp h
      obtain ⟨rfl, h⟩ := require_bind_eq_ok.mp h
      exact ⟨own, known, (Except.ok.inj h).symm⟩
    · rintro ⟨-, known, rfl⟩
      refine ⟨_, rfl, ?_⟩
      rw [demand_bind_eq_ok]
      exact ⟨id, known, require_bind_eq_ok.mpr ⟨rfl, rfl⟩⟩

/-- The records of a merge, one for each event that is offered. -/
structure Merged (query : Query) (sources : List SourceSnapshot) (records : List EventRecord) :
    Prop where
  nodup : (records.map (·.id)).Nodup
  mem_iff : ∀ record, record ∈ records ↔ ∃ candidate,
    gather ((offered query sources).filter (·.id = record.id)) = some candidate ∧
      record = candidate.asRecord record.id
  known : ∀ record ∈ records, record.event.id = some record.id

theorem merged_of_mapM
    (h : (mergeAll query sources).toList.mapM (fun e => e.2.intoRecord e.1) = .ok records) :
    Merged query sources records := by
  have ids : records.map (·.id) = (mergeAll query sources).toList.map Prod.fst := by
    refine map_of_mapM h fun e record made => ?_
    obtain ⟨-, -, rfl⟩ := intoRecord_eq_ok.mp made
    rfl
  refine ⟨?_, fun record => ?_, fun record here => ?_⟩
  · rw [ids, ExtTreeMap.map_fst_toList_eq_keys]
    exact BTreeMap.nodup_keys
  · rw [mem_of_mapM h]
    constructor
    · rintro ⟨⟨id, candidate⟩, listed, made⟩
      obtain ⟨-, -, rfl⟩ := intoRecord_eq_ok.mp made
      rw [ExtTreeMap.mem_toList_iff_getElem?_eq_some, find_mergeAll] at listed
      exact ⟨candidate, listed, rfl⟩
    · rintro ⟨candidate, gathered, is⟩
      rw [← find_mergeAll, ← ExtTreeMap.mem_toList_iff_getElem?_eq_some] at gathered
      obtain ⟨made, translated⟩ := mapM_ok_iff.mp ⟨records, h⟩ _ gathered
      obtain ⟨-, -, rfl⟩ := intoRecord_eq_ok.mp translated
      refine ⟨_, gathered, ?_⟩
      rw [translated, ← is]
  · obtain ⟨⟨id, candidate⟩, -, made⟩ := (mem_of_mapM h).mp here
    obtain ⟨-, known, rfl⟩ := intoRecord_eq_ok.mp made
    exact known

/-- What a record keeps of the contributions of its event. -/
theorem Merged.gathers (merged : Merged query sources records) (here : record ∈ records) :
    ∃ candidate, Gathers ((offered query sources).filter (·.id = record.id)) candidate ∧
      record = candidate.asRecord record.id := by
  obtain ⟨candidate, gathered, is⟩ := (merged.mem_iff record).mp here
  exact ⟨candidate, gathers_of_gather gathered, is⟩

/-- Every event that is offered has a record. -/
theorem Merged.exists_record (merged : Merged query sources records) {c : SourceEvent}
    (here : c ∈ offered query sources) : ∃ record ∈ records, record.id = c.id := by
  cases gathered : gather ((offered query sources).filter (·.id = c.id)) with
  | none =>
    have member : c ∈ (offered query sources).filter (·.id = c.id) :=
      List.mem_filter.mpr ⟨here, decide_eq_true rfl⟩
    rw [gather_eq_none.mp gathered] at member
    cases member
  | some candidate =>
    exact ⟨candidate.asRecord c.id, (merged.mem_iff _).mpr ⟨candidate, gathered, rfl⟩, rfl⟩

end Fava.Queries
