import Fava.Queries.Winners

namespace Fava.Queries

open Std Fava.Lib Fava.Nostr Fava.Relay Fava.State Fava.Subscriptions Fava.Write

variable {N : Library} {query : Query} {sources sources' : List SourceSnapshot}
  {snapshot : QuerySnapshot} {all : List EventRecord}

/-- The query with no limit to its result. -/
def Query.unlimited (query : Query) : Query := { query with limit := none }

theorem evaluate_eq_ok (something : query.matchesNothing = false) :
    evaluate N query sources = .ok snapshot ↔ ∃ all, evaluateAll N query sources = .ok all ∧
      snapshot = .evaluated (truncate query.limit all) sources := by
  unfold evaluate
  rw [something]
  change (evaluateAll N query sources >>= _) = .ok snapshot ↔ _
  rw [bind_eq_ok]
  exact exists_congr fun all => and_congr Iff.rfl ⟨fun h => (Except.ok.inj h).symm,
    fun h => congrArg Except.ok h.symm⟩

theorem evaluate_unlimited (something : query.matchesNothing = false)
    (h : evaluateAll N query sources = .ok all) :
    evaluate N query.unlimited sources = .ok (.evaluated all sources) := by
  have everything : query.unlimited.matchesNothing = false := something
  exact (evaluate_eq_ok everything).mpr ⟨all, h, rfl⟩

theorem map_truncate {β : Type} {view : EventRecord → β} (limit : Option Nat)
    {first second : List EventRecord} (same : first.map view = second.map view) :
    (truncate limit first).map view = (truncate limit second).map view := by
  cases limit with
  | none => exact same
  | some limit =>
    unfold truncate
    rw [List.map_take, List.map_take, same]

/-- An evaluation returns a prefix of the sorted records of its winners, without an event or
a coordinate twice; where identifiers are digests the winners are the newest contributions,
and neither what is returned nor what is signed depends on the order of the sources. -/
theorem evaluate_specification (query : Query) (sources : List SourceSnapshot)
    (snapshot : QuerySnapshot) (something : query.matchesNothing = false)
    (evaluated : evaluate N query sources = .ok snapshot) :
    ∃ whole, evaluate N query.unlimited sources = .ok whole ∧
      snapshot.events = truncate query.limit whole.events ∧
      (whole.events.Pairwise fun left right => query.ordering.le left.stamp right.stamp = true) ∧
      (whole.events.map (·.id)).Nodup ∧ (whole.events.map (·.coordinate N)).Nodup ∧
      (Digested (offered query sources) →
        (∀ record, record ∈ whole.events →
          (∃ c, Wins N query.selection (offered query sources) c ∧ c.id = record.id ∧
            SameBody c.value record.event) ∧
          isSigned record.event = signedIn (offered query sources) record.id) ∧
        (∀ c, Wins N query.selection (offered query sources) c →
          ∃ record ∈ whole.events, record.id = c.id) ∧
        ∀ sources', (contributions sources).Perm (contributions sources') →
          ∃ snapshot', evaluate N query sources' = .ok snapshot' ∧
            snapshot'.events.map (fun record => (record.id, isSigned record.event)) =
              snapshot.events.map fun record => (record.id, isSigned record.event)) := by
  obtain ⟨all, h, rfl⟩ := (evaluate_eq_ok something).mp evaluated
  obtain ⟨records, merged, chosen⟩ := evaluateAll_eq_ok h
  refine ⟨_, evaluate_unlimited something h, rfl, chosen.sorted, chosen.ids, chosen.coordinates,
    fun digested => ⟨fun record member => ?_, fun c wins => ?_, fun sources' perm => ?_⟩⟩
  · have here := ((chosen.mem_iff record).mp member).1
    obtain ⟨candidate, gathers, -⟩ := merged.gathers here
    obtain ⟨c, listed, -⟩ := gathers.value
    rw [List.mem_filter, decide_eq_true_eq] at listed
    obtain ⟨offer, same⟩ := listed
    exact ⟨⟨c, (digested.wins_iff merged chosen offer here same).mp member, same,
      digested.same_body merged here offer same⟩, merged.isSigned_eq here⟩
  · obtain ⟨record, here, same⟩ := merged.exists_record wins.here
    exact ⟨record, (digested.wins_iff merged chosen wins.here here same.symm).mpr wins, same⟩
  · have perm' : (offered query sources).Perm (offered query sources') := offered_perm perm
    obtain ⟨all', h'⟩ := (digested.perm perm').evaluateAll_total (N := N)
    obtain ⟨records', merged', chosen'⟩ := evaluateAll_eq_ok h'
    refine ⟨_, (evaluate_eq_ok something).mpr ⟨all', h', rfl⟩, ?_⟩
    have shown := digested.view_eq perm' merged chosen merged' chosen'
    have short := congrArg (List.map fun view : (Timestamp × EventId) × Bool × RelayOccurrences =>
        (view.1.2, view.2.1))
      (map_truncate query.limit shown)
    rw [List.map_map, List.map_map] at short
    exact short.symm

section Samples

/-- What a relay sent under one identifier, with a kind of its choice. -/
def sentNote (session : RelayUrl) (kind : Kind) : SourceEvent :=
  .relay ⟨⟨1, 2, 5, kind, [], "", 0⟩, ⟨session, .unauthenticated, 7⟩⟩

def cacheSource (events : List SourceEvent) : SourceSnapshot := ⟨.eventCache, 1, .isOpen, events, []⟩

/-- The first kind only. -/
def notesQuery : Query :=
  { Query.events with selection := { Query.events.selection with kinds := some {1} } }

/-- Two events under one identifier: only the one that comes first is looked at. -/
theorem evaluate_depends_on_order :
    ((evaluate plainLibrary notesQuery
        [cacheSource [sentNote "wss://one" 1, sentNote "wss://two" 7]]).toOption.map fun s =>
          s.events.map (·.id)) = some [1] ∧
      ((evaluate plainLibrary notesQuery
        [cacheSource [sentNote "wss://two" 7, sentNote "wss://one" 1]]).toOption.map fun s =>
          s.events.map (·.id)) = some [] ∧
      (contributions [cacheSource [sentNote "wss://one" 1, sentNote "wss://two" 7]]).Perm
        (contributions [cacheSource [sentNote "wss://two" 7, sentNote "wss://one" 1]]) := by
  refine ⟨?_, ?_, List.Perm.swap _ _ _⟩
  · decide +kernel
  · decide +kernel

/-- One note that two relays sent. -/
def sharedNote : List SourceSnapshot :=
  [cacheSource [sentNote "wss://one" 1], cacheSource [sentNote "wss://two" 1]]

theorem sharedNote_digested : Digested (offered notesQuery sharedNote) := by
  have is : offered notesQuery sharedNote = [sentNote "wss://one" 1, sentNote "wss://two" 1] := rfl
  rw [is]
  refine ⟨fun c here => ?_, fun c here d here' _ => ?_⟩
  · simp only [List.mem_cons, List.not_mem_nil, or_false] at here
    obtain rfl | rfl := here <;> rfl
  · simp only [List.mem_cons, List.not_mem_nil, or_false] at here here'
    obtain rfl | rfl := here <;> obtain rfl | rfl := here' <;> exact ⟨rfl, rfl, rfl, rfl⟩

theorem evaluate_specification_note : ∃ snapshot snapshot',
    evaluate plainLibrary notesQuery sharedNote = .ok snapshot ∧
      evaluate plainLibrary notesQuery sharedNote.reverse = .ok snapshot' ∧
      snapshot'.events.map (fun record => (record.id, isSigned record.event)) =
        snapshot.events.map fun record => (record.id, isSigned record.event) := by
  have something : notesQuery.matchesNothing = false := by decide +kernel
  obtain ⟨all, h⟩ := sharedNote_digested.evaluateAll_total (N := plainLibrary)
  have evaluated := (evaluate_eq_ok something).mpr ⟨all, h, rfl⟩
  obtain ⟨whole, -, -, -, -, -, rest⟩ :=
    evaluate_specification notesQuery sharedNote _ something evaluated
  obtain ⟨-, -, independent⟩ := rest sharedNote_digested
  obtain ⟨snapshot', evaluated', shown⟩ := independent sharedNote.reverse (List.Perm.swap _ _ _)
  exact ⟨_, snapshot', evaluated, evaluated', shown⟩

end Samples

end Fava.Queries
