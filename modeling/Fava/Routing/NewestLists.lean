import Fava.Queries.Evaluation
import Fava.Routing.Outbox

namespace Fava.Routing

open Std Fava.Lib Fava.Nostr Fava.Relay Fava.Queries Fava.Write

/-- Of all relay lists of an author that are offered, this is the newest. -/
structure NewestList (cs : List SourceEvent) (key : PublicKey) (e : SourceEvent) : Prop where
  here : e ∈ cs
  author : e.value.author = key
  kind : e.value.kind = relayListKind
  newest : ∀ d ∈ cs, d.value.author = key → d.value.kind = relayListKind →
    d.id = e.id ∨ eventIsNewer e.stamp d.stamp = true

namespace OutboxRouter

variable {N : Library} {T : TagReader} {r : OutboxRouter} {complete : QuerySnapshot → Bool}
  {request : RouteRequest} {authors : BTreeSet PublicKey} {demanded : Query} {id : EventId}
  {event : EventValue} {cs : List SourceEvent} {e : SourceEvent} {key : PublicKey}
  {sources : List SourceSnapshot} {records all : List EventRecord} {record : EventRecord}
  {snapshot : QuerySnapshot} {marker reason : String} {target : RouteTarget} {relay : RelayUrl}

theorem matches_relayLists : matchesSelection (relayLists authors).selection id event = true ↔
    event.author ∈ authors ∧ event.kind = relayListKind := by
  change (true && authors.contains event.author &&
    ExtTreeSet.contains ({relayListKind} : BTreeSet Kind) event.kind && _) = true ↔ _
  rw [Bool.true_and, Bool.and_eq_true, Bool.and_eq_true, ExtTreeSet.contains_iff_mem,
    ExtTreeSet.contains_iff_mem, BTreeSet.mem_singleton]
  exact and_iff_left rfl

/-- Relay lists are told apart by their authors. -/
theorem coordinate_relayList {tags : List Tag} : eventCoordinate N id key relayListKind tags =
    .replaceable key relayListKind none := by
  have plain : inAddressableRange relayListKind = false := by decide
  have replaceable : N.isReplaceable relayListKind = true :=
    N.isReplaceable_list relayListKind (.inr ⟨by decide, by decide⟩)
  unfold eventCoordinate
  rw [plain, replaceable]
  rfl

theorem newestList_iff (known : key ∈ authors) : NewestList cs key e ↔
    Wins N (relayLists authors).selection cs e ∧ e.value.author = key := by
  constructor
  · rintro ⟨here, rfl, kind, newest⟩
    refine ⟨⟨here, matches_relayLists.mpr ⟨known, kind⟩, fun d there selected rivals => ?_⟩, rfl⟩
    have list := (matches_relayLists.mp selected).2
    unfold SourceEvent.coordinate at rivals
    rw [list, kind, coordinate_relayList, coordinate_relayList, EventCoordinate.replaceable.injEq] at rivals
    exact newest d there rivals.1 list
  · rintro ⟨⟨here, selected, greatest⟩, rfl⟩
    have kind := (matches_relayLists.mp selected).2
    refine ⟨here, rfl, kind, fun d there author list => ?_⟩
    refine greatest d there (matches_relayLists.mpr ⟨author ▸ known, list⟩) ?_
    unfold SourceEvent.coordinate
    rw [list, kind, coordinate_relayList, coordinate_relayList, author]

section Evaluated

variable (selects : demanded.selection = (relayLists authors).selection)
include selects

theorem listed_of_chosen (chosen : Chosen N demanded records all) (member : record ∈ all) :
    record.event.author ∈ authors ∧ record.event.kind = relayListKind := by
  have fits := ((chosen.mem_iff record).mp member).2.1
  unfold Matches at fits
  rw [selects] at fits
  exact matches_relayLists.mp fits

theorem authors_of_chosen (chosen : Chosen N demanded records all) :
    (all.map (·.event.author)).Nodup := by
  refine List.Nodup.map_on (fun left here right there same => ?_) (List.Nodup.of_map _ chosen.ids)
  refine List.inj_on_of_nodup_map chosen.coordinates here there ?_
  unfold EventRecord.coordinate
  rw [(listed_of_chosen selects chosen here).2, (listed_of_chosen selects chosen there).2,
    coordinate_relayList, coordinate_relayList, same]

/-- There is at most one list of each author, so that no limit cuts one off. -/
theorem length_of_chosen (chosen : Chosen N demanded records all) : all.length ≤ authors.size := by
  rw [← ExtTreeSet.length_toList, ← List.length_map (·.event.author)]
  refine ((authors_of_chosen selects chosen).subperm fun key listed => ?_).length_le
  obtain ⟨record, member, rfl⟩ := List.mem_map.mp listed
  exact ExtTreeSet.mem_toList.mpr (listed_of_chosen selects chosen member).1

theorem something_demanded (known : key ∈ authors) : demanded.matchesNothing = false := by
  have inhabited : authors.isEmpty = false :=
    Bool.of_not_eq_true fun none => BTreeSet.isEmpty_iff.mp none key known
  have kinds : ExtTreeSet.isEmpty ({relayListKind} : BTreeSet Kind) = false := rfl
  unfold Query.matchesNothing Query.dependsOnCurrentAccount
  rw [selects]
  change (false || false || false || authors.isEmpty ||
    ExtTreeSet.isEmpty ({relayListKind} : BTreeSet Kind) || false) = false
  rw [inhabited, kinds]
  rfl

/-- What is decoded of an evaluation are the newest lists that the sources offer. -/
theorem decoded_of_evaluated (limited : demanded.limit = some 4096) (few : authors.size ≤ 4096)
    (digested : Digested (offered demanded sources)) (known : key ∈ authors)
    (evaluated : evaluate N demanded sources = .ok snapshot) :
    (∀ e, NewestList (offered demanded sources) key e → ∃ list,
      (decode N snapshot).1[key]? = some list ∧
        (∀ relay, relay ∈ list.readRelays ↔ e.value.tags.any (RelayList.names N "read" relay) = true) ∧
        ∀ relay, relay ∈ list.writeRelays ↔ e.value.tags.any (RelayList.names N "write" relay) = true) ∧
      ((∀ e ∈ offered demanded sources, e.value.author = key → e.value.kind ≠ relayListKind) →
        (decode N snapshot).1[key]? = none) := by
  have something := something_demanded selects known
  obtain ⟨all, h, rfl⟩ := (evaluate_eq_ok something).mp evaluated
  obtain ⟨records, merged, chosen⟩ := evaluateAll_eq_ok h
  have whole : (QuerySnapshot.evaluated (truncate demanded.limit all) sources).events = all := by
    rw [limited]
    exact List.take_of_length_le ((length_of_chosen selects chosen).trans few)
  refine ⟨fun e newest => ?_, fun none => ?_⟩
  · have wins := ((newestList_iff (N := N) known).mp newest).1
    rw [← selects] at wins
    obtain ⟨record, here, same⟩ := merged.exists_record newest.here
    have member := (digested.wins_iff merged chosen newest.here here same.symm).mpr wins
    obtain ⟨author, kind, -, tags⟩ := digested.same_body merged here newest.here same.symm
    cases found : (decode N (.evaluated (truncate demanded.limit all) sources)).1[key]? with
    | none =>
      refine absurd (kind.symm.trans newest.kind) ?_
      exact not_mem_of_find_decode found record (by rw [whole]; exact member) (author.symm.trans newest.author)
    | some list =>
      obtain ⟨other, there, read, by_, -⟩ := mem_of_find_decode found
      rw [whole] at there
      obtain rfl : other = record := List.inj_on_of_nodup_map (authors_of_chosen selects chosen) there
        member (by_.trans (newest.author.symm.trans author))
      obtain ⟨-, -, reads, writes⟩ := RelayList.fromEvent_eq_ok read
      exact ⟨list, rfl, fun relay => tags ▸ reads relay, fun relay => tags ▸ writes relay⟩
  · cases found : (decode N (.evaluated (truncate demanded.limit all) sources)).1[key]? with
    | none => rfl
    | some list =>
      obtain ⟨record, there, read, by_, -⟩ := mem_of_find_decode found
      rw [whole] at there
      have here := ((chosen.mem_iff record).mp there).1
      obtain ⟨candidate, gathers, -⟩ := merged.gathers here
      obtain ⟨c, listed, -⟩ := gathers.value
      rw [List.mem_filter, decide_eq_true_eq] at listed
      obtain ⟨author, kind, -, -⟩ := digested.same_body merged here listed.1 listed.2
      exact absurd (kind.trans (listed_of_chosen selects chosen there).2)
        (none c listed.1 (author.trans by_))

end Evaluated

/-- Preview of an outbox router over what its own query comes to: it routes a target to the
relays that the newest relay list of the author names, whichever source that list is from. -/
theorem newest_list_decides {declared : DeclaredQuery} (asks : r.query T request = [declared])
    (few : (requestedAuthors T request).size ≤ 4096)
    (digested : Digested (offered declared.query sources))
    (evaluated : evaluate N declared.query sources = .ok snapshot) (upstream : RoutePlan) :
    ∃ c, (r.router N T complete).preview request upstream [snapshot] = .ok c ∧
      ∀ target ∈ request.targets T, ∀ key marker reason, wanted target = some (key, marker, reason) →
        (∀ e, NewestList (offered declared.query sources) key e →
          (∀ relay, c.Selects relay target ↔
            e.value.tags.any (RelayList.names N marker relay) = true) ∧
          ((∀ relay, e.value.tags.any (RelayList.names N marker relay) = false) →
            c.coverage[target]? = some .settledAbsent)) ∧
        ((∀ e ∈ offered declared.query sources, e.value.author = key → e.value.kind ≠ relayListKind) →
          (∀ relay, ¬c.Selects relay target) ∧
            c.coverage[target]? = some (if complete snapshot then .settledAbsent else .unresolved)) := by
  obtain ⟨inhabited, selects, limited⟩ := query_eq_one asks
  refine ⟨_, project_one inhabited, fun target asked key marker reason wants => ?_⟩
  have known : key ∈ requestedAuthors T request :=
    mem_requestedAuthors.mpr ⟨target, asked, marker, reason, wants⟩
  obtain ⟨present, absent⟩ := decoded_of_evaluated selects limited few digested known evaluated
  refine ⟨fun e newest => ?_, fun nothing => ?_⟩
  · obtain ⟨list, found, reads, writes⟩ := present e newest
    have told : answer (decode N snapshot).1 (complete snapshot) target =
        some (.relays (relaysOf list marker) reason) := by
      unfold answer
      rw [wants, Option.map_some]
      dsimp only
      rw [found]
    have listed (relay : RelayUrl) : relay ∈ relaysOf list marker ↔
        e.value.tags.any (RelayList.names N marker relay) = true := by
      obtain rfl | rfl := wanted_marker wants
      · exact writes relay
      · exact reads relay
    constructor
    · intro relay
      rw [selects_answerTargets, told, ← listed]
      constructor
      · rintro ⟨-, relays, reason', same, there⟩
        cases same
        exact there
      · exact fun there => ⟨asked, _, _, rfl, there⟩
    · intro unnamed
      have nothing : (relaysOf list marker).isEmpty = true := by
        rw [BTreeSet.isEmpty_iff]
        intro relay there
        have named := (listed relay).mp there
        rw [unnamed] at named
        cases named
      rw [answerTargets_coverage, if_pos asked, told, Option.map_some, Answer.state, if_pos nothing]
  · have told : answer (decode N snapshot).1 (complete snapshot) target =
        some (if complete snapshot then .absent else .unknown) := by
      unfold answer
      rw [wants, Option.map_some]
      dsimp only
      rw [absent nothing]
    constructor
    · rintro relay selected
      obtain ⟨-, relays, reason', same, -⟩ := selects_answerTargets.mp selected
      rw [told, Option.some.injEq] at same
      split at same
      · cases same
      · cases same
    · rw [answerTargets_coverage, if_pos asked, told]
      cases complete snapshot <;> rfl

section Samples

def outbox : OutboxRouter := ⟨"outbox", {"wss://index.example/"}⟩

/-- The relay list of an author, as a relay served it. -/
def servedList (id : EventId) (createdAt : Timestamp) (relay : RelayUrl) : SourceEvent :=
  .relay ⟨⟨id, 4, createdAt, relayListKind, [["r", relay], ["r", "wss://read.example/", "read"]], "", 0⟩,
    ⟨"wss://index.example/", .unauthenticated, 30⟩⟩

/-- The cache has an older list of the author than a relay. -/
def moved : List SourceSnapshot :=
  [⟨.eventCache, 1, .isOpen, [servedList 1 10 "wss://old.example/"], []⟩,
    ⟨.liveRelay "wss://index.example/", 1, .isOpen, [servedList 2 20 "wss://new.example/"], []⟩]

def listQuery : DeclaredQuery where
  query := { relayLists {4} with access := .unauthenticated }
  acquisition := .explicit {"wss://index.example/"}
  freshness := .maxAge 300

theorem offered_moved : offered listQuery.query moved =
    [servedList 1 10 "wss://old.example/", servedList 2 20 "wss://new.example/"] := rfl

theorem moved_digested : Digested (offered listQuery.query moved) := by
  rw [offered_moved]
  refine ⟨fun c here => ?_, fun c here d there same => ?_⟩
  · simp only [List.mem_cons, List.not_mem_nil, or_false] at here
    obtain rfl | rfl := here <;> rfl
  · simp only [List.mem_cons, List.not_mem_nil, or_false] at here there
    obtain rfl | rfl := here <;> obtain rfl | rfl := there
    · exact ⟨rfl, rfl, rfl, rfl⟩
    · cases same
    · cases same
    · exact ⟨rfl, rfl, rfl, rfl⟩

theorem newest_list_decides_moved : ∃ snapshot c,
    evaluate plainLibrary listQuery.query moved = .ok snapshot ∧
      (outbox.router plainLibrary noTags (fun _ => true)).preview plainWrite .none [snapshot] = .ok c ∧
        c.Selects "wss://new.example/" (.author 4) ∧ ¬c.Selects "wss://old.example/" (.author 4) := by
  have requested : requestedAuthors noTags plainWrite = {4} := by decide +kernel
  have asks : outbox.query noTags plainWrite = [listQuery] := by
    unfold query
    rw [requested]
    rfl
  obtain ⟨all, h⟩ := moved_digested.evaluateAll_total (N := plainLibrary)
  have evaluated := (evaluate_eq_ok (something_demanded rfl (BTreeSet.mem_singleton.mpr rfl))).mpr
    ⟨all, h, rfl⟩
  obtain ⟨c, previewed, decides⟩ := @newest_list_decides _ _ outbox (fun _ => true) _ _ _ _ asks
    (by rw [requested]; decide) moved_digested evaluated .none
  have newest : NewestList (offered listQuery.query moved) 4 (servedList 2 20 "wss://new.example/") := by
    rw [offered_moved]
    refine ⟨by simp, rfl, rfl, fun d there _ _ => ?_⟩
    simp only [List.mem_cons, List.not_mem_nil, or_false] at there
    obtain rfl | rfl := there
    · exact .inr rfl
    · exact .inl rfl
  obtain ⟨selects, -⟩ := (decides (.author 4) (by decide +kernel) 4 _ _ rfl).1 _ newest
  refine ⟨_, c, evaluated, previewed, (selects _).mpr (by decide +kernel), fun stale => ?_⟩
  have named := (selects _).mp stale
  revert named
  decide +kernel

end Samples

end OutboxRouter

end Fava.Routing
