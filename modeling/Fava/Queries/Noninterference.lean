import Fava.Queries.Evaluation

namespace Fava.Queries

open Std Fava.Lib Fava.Nostr Fava.Relay Fava.State Fava.Subscriptions Fava.Write

variable {N : Library} {query : Query} {first second : List SourceSnapshot}

/-- What a query may look at: all that is local, and of the relays it names what came under
its own authority. -/
def Query.Sees (query : Query) : SourceEvent → Prop
  | .relay contribution => contribution.occurrence.authority = query.access ∧
    ∀ relays, query.authority = .onlyRelays relays → contribution.occurrence.session ∈ relays
  | .localWrite _ => True

theorem relayQualifies_iff {contribution : RelayEvent} :
    relayQualifies query contribution = true ↔ query.Sees (.relay contribution) := by
  unfold relayQualifies Query.Sees
  rw [Bool.and_eq_true, decide_eq_true_eq]
  apply and_congr Iff.rfl
  cases query.authority with
  | anyLocal => exact iff_of_true rfl nofun
  | onlyRelays relays =>
    rw [ExtTreeSet.contains_iff_mem]
    constructor
    · intro listed relays' is
      cases is
      exact listed
    · exact fun listed => listed relays rfl

instance : DecidablePred query.Sees
  | .relay _ => decidable_of_iff _ relayQualifies_iff
  | .localWrite _ => isTrue trivial

/-- The contributions of some sources that a query may look at. -/
def seen (query : Query) (sources : List SourceSnapshot) : List SourceEvent :=
  (contributions sources).filter query.Sees

theorem sees_of_admitted {c : SourceEvent} (admitted : c.admitted query = true) : query.Sees c := by
  cases c with
  | relay contribution => exact relayQualifies_iff.mp admitted
  | localWrite contribution => trivial

theorem offered_eq_seen {sources : List SourceSnapshot} :
    offered query sources = (seen query sources).filter (·.admitted query) := by
  unfold offered seen
  rw [List.filter_filter]
  apply List.filter_congr
  intro c here
  cases admitted : c.admitted query with
  | true => exact (decide_eq_true (sees_of_admitted admitted)).symm
  | false => rfl

theorem evaluateAll_congr (same : offered query first = offered query second) :
    evaluateAll N query first = evaluateAll N query second := by
  have merges : mergeAll query first = mergeAll query second := by
    rw [mergeAll_eq, mergeAll_eq, same]
  change ((mergeAll query first).toList.mapM _ >>= _) = ((mergeAll query second).toList.mapM _ >>= _)
  rw [merges]

/-- Nothing a query may not look at shows in its result; nor does the order of what it looks
at, but in which of the copies of an event is returned. -/
theorem evaluate_noninterference (query : Query) (first second : List SourceSnapshot) :
    (seen query first = seen query second →
      (evaluate N query first).map (·.events) = (evaluate N query second).map (·.events)) ∧
    ((seen query first).Perm (seen query second) → Digested (seen query first) →
      ∃ snapshot snapshot', evaluate N query first = .ok snapshot ∧
        evaluate N query second = .ok snapshot' ∧
        snapshot.events.map EventRecord.view = snapshot'.events.map EventRecord.view) := by
  constructor
  · intro same
    have offers : offered query first = offered query second := by
      rw [offered_eq_seen, offered_eq_seen, same]
    unfold evaluate
    cases query.matchesNothing with
    | true => rfl
    | false =>
      change (evaluateAll N query first >>= _).map _ = (evaluateAll N query second >>= _).map _
      rw [evaluateAll_congr offers]
      cases evaluateAll N query second <;> rfl
  · intro perm digested
    cases nothing : query.matchesNothing with
    | true =>
      refine ⟨.evaluated [] first, .evaluated [] second, ?_, ?_, rfl⟩
      · rw [evaluate, nothing, if_pos rfl]
      · rw [evaluate, nothing, if_pos rfl]
    | false =>
      have offers : (offered query first).Perm (offered query second) := by
        rw [offered_eq_seen, offered_eq_seen]
        exact perm.filter _
      have digested : Digested (offered query first) := by
        rw [offered_eq_seen]
        exact ⟨fun c here => digested.named c (List.mem_of_mem_filter here), fun c here d here' =>
          digested.body c (List.mem_of_mem_filter here) d (List.mem_of_mem_filter here')⟩
      obtain ⟨all, h⟩ := digested.evaluateAll_total (N := N)
      obtain ⟨all', h'⟩ := (digested.perm offers).evaluateAll_total (N := N)
      obtain ⟨records, merged, chosen⟩ := evaluateAll_eq_ok h
      obtain ⟨records', merged', chosen'⟩ := evaluateAll_eq_ok h'
      refine ⟨_, _, (evaluate_eq_ok nothing).mpr ⟨all, h, rfl⟩,
        (evaluate_eq_ok nothing).mpr ⟨all', h', rfl⟩, ?_⟩
      exact map_truncate _ (digested.view_eq offers merged chosen merged' chosen')

section Samples

/-- What a relay sent an account in private. -/
def privateNote : SourceEvent :=
  .relay ⟨⟨3, 2, 9, 1, [], "", 0⟩, ⟨"wss://one", .asAccount 4, 7⟩⟩

theorem evaluate_noninterference_private :
    (evaluate plainLibrary notesQuery [cacheSource [sentNote "wss://one" 1]]).map (·.events) =
      (evaluate plainLibrary notesQuery
        [cacheSource [privateNote, sentNote "wss://one" 1]]).map (·.events) :=
  (evaluate_noninterference (N := plainLibrary) notesQuery _ _).1 rfl

end Samples

end Fava.Queries
