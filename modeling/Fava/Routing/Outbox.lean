import Fava.Queries.Winners
import Fava.Routing.Answers
import Fava.Routing.RelayLists

namespace Fava.Routing

open Std Fava.Lib Fava.Nostr Fava.Relay Fava.Queries Fava.Write

/-- The query for the relay lists of some authors. -/
def relayLists (authors : BTreeSet PublicKey) : Query :=
  { Query.events with
    selection :=
      { Query.events.selection with kinds := some {relayListKind}, authors := some authors }
    limit := some 4096 }

/-- Routes to where authors publish and recipients read, as their relay lists have it. -/
structure OutboxRouter where
  name : String
  indexers : BTreeSet RelayUrl

namespace OutboxRouter

/-- What a session keeps: its request, its last inputs and what it made of them. -/
structure OutboxSession where
  request : RouteRequest
  inputs : List QuerySnapshot
  current : RouteContribution
  closed : Bool

/-- The author whose relay list a target asks for, the marker that counts, and the reason. -/
def wanted : RouteTarget → Option (PublicKey × String × String)
  | .author key => some (key, "write", "NIP-65 author write relay")
  | .recipient key => some (key, "read", "NIP-65 recipient read relay")
  | .wholeRequest => none
  | .referencedEvent _ => none

variable (N : Library) (T : TagReader) (r : OutboxRouter)

def requestedAuthors (request : RouteRequest) : BTreeSet PublicKey :=
  .ofList ((request.targets T).toList.filterMap fun target => (wanted target).map (·.1))

def query (request : RouteRequest) : List DeclaredQuery :=
  let authors := requestedAuthors T request
  if authors.isEmpty || r.indexers.isEmpty then []
  else
    [{ query := { relayLists authors with access := request.access }
       acquisition := .explicit r.indexers
       freshness := .maxAge 300 }]

def boundedPush (shortfalls : List String) (value : String) : List String :=
  if shortfalls.length < maxShortfalls then shortfalls ++ [value] else shortfalls

/-- A list with the time and the identifier of its event. -/
abbrev Dated := RelayList × Timestamp × EventId

/-- One list is later than another, or as late and of a greater identifier. -/
def later (candidate current : Dated) : Bool :=
  current.2.1 < candidate.2.1 || (current.2.1 = candidate.2.1 && current.2.2 < candidate.2.2)

/-- Keep the latest list of every author, and what is wrong with the others. -/
def decodeOne (read : BTreeMap PublicKey Dated × List String) (record : EventRecord) :
    BTreeMap PublicKey Dated × List String :=
  match RelayList.fromEvent N record.event with
  | .ok list =>
    (read.1.insert list.author
      (keepGreater later (list, record.createdAt, record.id) read.1[list.author]?), read.2)
  | .error error => (read.1, boundedPush read.2 error.text)

def decode (snapshot : QuerySnapshot) : BTreeMap PublicKey RelayList × List String :=
  let read := snapshot.events.foldl (decodeOne N) (∅, [])
  (read.1.map fun _ dated => dated.1, read.2)

/-- The relays of a list that count for a marker. -/
def relaysOf (list : RelayList) (marker : String) : BTreeSet RelayUrl :=
  if marker = "write" then list.writeRelays else list.readRelays

def answer (lists : BTreeMap PublicKey RelayList) (settled : Bool) (target : RouteTarget) :
    Option Answer :=
  (wanted target).map fun (author, marker, reason) =>
    match lists[author]? with
    | some list => .relays (relaysOf list marker) reason
    | none => if settled then .absent else .unknown

-- Whether all relays of a snapshot have sent what they store: the evidence of its relays,
-- which says so, is no part of a snapshot here.
variable (complete : QuerySnapshot → Bool)

def project (request : RouteRequest) (inputs : List QuerySnapshot) :
    Except RouterError RouteContribution :=
  if 1 < inputs.length then .error (.refused "outbox router declares at most one query")
  else if (requestedAuthors T request).isEmpty then .ok .none
  else
    let read := (inputs.head?.map (decode N)).getD (∅, [])
    .ok (answerTargets (answer read.1 (inputs.head?.any complete)) (request.targets T) read.2)

namespace OutboxSession

def replace (session : OutboxSession) (inputs : List QuerySnapshot) :
    Except RouterError RouteContribution × OutboxSession :=
  if session.closed then (.error .closed, session)
  else
    match project N T complete session.request inputs with
    | .ok next => (.ok next, { session with inputs := inputs, current := next })
    | .error error => (.error error, session)

def close (session : OutboxSession) : OutboxSession := { session with closed := true }

end OutboxSession

def router : Router OutboxSession where
  name := r.name
  queries request _ := .ok ((r.query T request).map (·.query))
  preview request _ inputs := project N T complete request inputs
  openSession request _ inputs := do
    let current ← project N T complete request inputs
    .ok ⟨request, inputs, current, false⟩
  current session := session.current
  replace session _ inputs := session.replace N T complete inputs

variable {N T r complete} {request : RouteRequest} {key : PublicKey} {marker reason : String}
  {target : RouteTarget} {snapshot : QuerySnapshot} {records : List EventRecord}
  {list : RelayList} {record : EventRecord} {inputs : List QuerySnapshot} {c : RouteContribution}

theorem mem_requestedAuthors : key ∈ requestedAuthors T request ↔
    ∃ target ∈ request.targets T, ∃ marker reason, wanted target = some (key, marker, reason) := by
  unfold requestedAuthors
  rw [ExtTreeSet.mem_ofList, List.contains_iff_mem, List.mem_filterMap]
  simp only [ExtTreeSet.mem_toList, Option.map_eq_some_iff, Prod.exists, exists_and_right,
    exists_eq_right]

/-- The list of a record, if it is one. -/
def dated (N : Library) (record : EventRecord) : Option Dated :=
  (RelayList.fromEvent N record.event).toOption.map (·, record.createdAt, record.id)

theorem decoded_lists {read : BTreeMap PublicKey Dated × List String} :
    (records.foldl (decodeOne N) read).1 =
      (records.filterMap (dated N)).foldl (fun values candidate =>
        values.insert candidate.1.author (keepGreater later candidate values[candidate.1.author]?))
          read.1 := by
  induction records generalizing read with
  | nil => rfl
  | cons record records ih =>
    rw [List.foldl_cons, ih, List.filterMap_cons]
    unfold decodeOne dated
    cases RelayList.fromEvent N record.event with
    | error error => rfl
    | ok list => rfl

theorem find_decode : (decode N snapshot).1[key]? =
    (((snapshot.events.filterMap (dated N)).filter (·.1.author = key)).foldl
      (fun v candidate => some (keepGreater later candidate v)) none).map (·.1) := by
  unfold decode
  dsimp only
  rw [ExtTreeMap.getElem?_map, decoded_lists, BTreeMap.find_foldl_merge, ExtTreeMap.getElem?_empty]

theorem mem_dated {candidate : Dated} : candidate ∈ records.filterMap (dated N) ↔
    ∃ record ∈ records, RelayList.fromEvent N record.event = .ok candidate.1 ∧
      candidate.2 = record.stamp := by
  rw [List.mem_filterMap]
  refine exists_congr fun record => and_congr Iff.rfl ?_
  unfold dated
  cases RelayList.fromEvent N record.event with
  | error error =>
    constructor
    · exact fun h => by cases h
    · exact fun h => by cases h.1
  | ok list =>
    obtain ⟨list', stamp⟩ := candidate
    change some (list, record.stamp) = some (list', stamp) ↔ _
    rw [Option.some.injEq, Prod.mk.injEq, Except.ok.injEq]
    exact and_congr Iff.rfl eq_comm

theorem later_irrefl (candidate : Dated) : later candidate candidate = false := by
  simp [later]

theorem later_trans (first second third : Dated) (h : later first second = true)
    (h' : later second third = true) : later first third = true := by
  simp only [later, Bool.or_eq_true, Bool.and_eq_true, decide_eq_true_eq] at h h' ⊢
  grind

/-- A list that is kept is the one of a record of the author, and none of the others was made
after it. -/
theorem mem_of_find_decode (found : (decode N snapshot).1[key]? = some list) :
    ∃ record ∈ snapshot.events, RelayList.fromEvent N record.event = .ok list ∧
      record.event.author = key ∧
      ∀ other ∈ snapshot.events, other.event.author = key → other.event.kind = relayListKind →
        other.createdAt ≤ record.createdAt := by
  rw [find_decode] at found
  obtain ⟨candidate, chosen, rfl⟩ := Option.map_eq_some_iff.mp found
  obtain ⟨there, author⟩ := List.mem_filter.mp (mem_of_foldl_keepGreater chosen)
  obtain ⟨record, listed, read, stamp⟩ := mem_dated.mp there
  obtain ⟨-, same, -⟩ := RelayList.fromEvent_eq_ok read
  refine ⟨record, listed, read, same.symm.trans (of_decide_eq_true author), ?_⟩
  intro other listed' author' kind
  obtain ⟨list', read'⟩ := RelayList.exists_fromEvent (N := N) kind
  obtain ⟨-, same', -⟩ := RelayList.fromEvent_eq_ok read'
  have lower := foldl_keepGreater_greatest later_irrefl later_trans chosen (list', other.stamp)
    (List.mem_filter.mpr ⟨mem_dated.mpr ⟨other, listed', read', rfl⟩,
      decide_eq_true (same'.trans author')⟩)
  rw [later, stamp, Bool.or_eq_false_iff, decide_eq_false_iff_not] at lower
  exact Nat.le_of_not_lt lower.1

/-- An author without a list has no record that is one. -/
theorem not_mem_of_find_decode (absent : (decode N snapshot).1[key]? = none) :
    ∀ record ∈ snapshot.events, record.event.author = key → record.event.kind ≠ relayListKind := by
  intro record listed author kind
  obtain ⟨list, read⟩ := RelayList.exists_fromEvent (N := N) kind
  obtain ⟨-, same, -⟩ := RelayList.fromEvent_eq_ok read
  rw [find_decode, Option.map_eq_none_iff, foldl_keepGreater_eq_none, List.filter_eq_nil_iff] at absent
  refine absent (list, record.stamp) (mem_dated.mpr ⟨record, listed, read, rfl⟩) ?_
  exact decide_eq_true (same.trans author)

/-- A router asks for the relay lists of all authors of its request. -/
theorem query_eq_one {declared : DeclaredQuery} (asks : r.query T request = [declared]) :
    ¬(requestedAuthors T request).isEmpty = true ∧
      declared.query.selection = (relayLists (requestedAuthors T request)).selection ∧
      declared.query.limit = some 4096 := by
  unfold query at asks
  dsimp only at asks
  split at asks
  · cases asks
  · rename_i inhabited
    rw [Bool.or_eq_true, not_or] at inhabited
    cases asks
    exact ⟨inhabited.1, rfl, rfl⟩

/-- The marker of a target is the one of its kind. -/
theorem wanted_marker (wants : wanted target = some (key, marker, reason)) :
    marker = "write" ∨ marker = "read" := by
  cases target with
  | wholeRequest => cases wants
  | author key =>
    cases wants
    exact .inl rfl
  | recipient key =>
    cases wants
    exact .inr rfl
  | referencedEvent id => cases wants

theorem project_one (some : ¬(requestedAuthors T request).isEmpty = true) :
    project N T complete request [snapshot] = .ok (answerTargets
      (answer (decode N snapshot).1 (complete snapshot)) (request.targets T) (decode N snapshot).2) := by
  unfold project
  rw [if_neg (by simp), if_neg some]
  simp only [List.head?_cons, Option.map_some, Option.getD_some, Option.any_some]

theorem project_eq_ok (h : project N T complete request inputs = .ok c) :
    (requestedAuthors T request).isEmpty = true ∧ c = .none ∨
      (requestedAuthors T request).isEmpty = false ∧
        c = answerTargets (answer ((inputs.head?.map (decode N)).getD (∅, [])).1
          (inputs.head?.any complete)) (request.targets T)
            ((inputs.head?.map (decode N)).getD (∅, [])).2 := by
  unfold project at h
  split at h
  · cases h
  · split at h
    · rename_i none
      cases h
      exact .inl ⟨none, rfl⟩
    · rename_i some
      cases h
      exact .inr ⟨Bool.of_not_eq_true some, rfl⟩

end OutboxRouter

end Fava.Routing
