import Fava.Cache.Memory
import Fava.Lib.First
import Fava.Lib.Removal

namespace Fava.Cache.CacheState

open Std Fava.Lib Fava.Nostr Fava.State

variable {R : Rules} {capacity : Nat} {s next : CacheState} {incoming e known : RelayEvent}
  {key : EventKey} {mutations : List EventStateMutation} {events : List RelayEvent}
  {now : Timestamp}

theorem mem_of_find (found : s.events[key]? = some known) : key ∈ s.events :=
  ExtTreeMap.mem_iff_isSome_getElem?.mpr (Option.isSome_of_eq_some found)

theorem find_of_mem (member : key ∈ s.events) : ∃ known, s.events[key]? = some known :=
  Option.isSome_iff_exists.mp (ExtTreeMap.mem_iff_isSome_getElem?.mp member)

theorem mem_current : known ∈ s.current ↔ ∃ key : EventKey, s.events[key]? = some known := by
  simp only [current, List.mem_map, Prod.exists, ExtTreeMap.mem_toList_iff_getElem?_eq_some,
    exists_eq_right]

theorem oldest_mem (least : s.oldest = some key) : key ∈ s.events := by
  obtain ⟨e, chosen, rfl⟩ := Option.map_eq_some_iff.mp least
  have listed := mem_of_foldl_choice (fun best e => ?_) chosen
  · exact ExtTreeMap.mem_iff_isSome_getElem?.mpr (Option.isSome_of_eq_some
      (ExtTreeMap.mem_toList_iff_getElem?_eq_some.mp (List.mem_filter.mp listed).1))
  · cases best with
    | none => exact .inl rfl
    | some b => exact ite_eq_or_eq _ _ _

/-- What putting one event in does: a repeated event stays or is moved to an earlier
time, and a new one is put in, for which a full cache may push out its oldest. -/
theorem upsert_cases (ok : s.upsert R capacity incoming = .ok next) :
    R.verify incoming.event = .ok () ∧
      ((∃ retained, s.events[keyOf incoming]? = some retained ∧
          ((retained.occurrence.observedAt ≤ incoming.occurrence.observedAt ∧ next = s) ∨
            incoming.occurrence.observedAt < retained.occurrence.observedAt ∧
              next = s.insert incoming)) ∨
        keyOf incoming ∉ s.events ∧
          ((s.events.size < capacity ∧ next = s.insert incoming) ∨
            capacity ≤ s.events.size ∧ incoming.event.kind = eventDeletion ∧
              ∃ evicted, s.oldest = some evicted ∧
                next = (s.remove evicted .evicted).insert incoming)) := by
  unfold upsert at ok
  split at ok
  · cases ok
  · rename_i verified
    refine ⟨verified, ?_⟩
    split at ok
    · rename_i retained found
      split at ok
      · rename_i earlier
        cases ok
        exact .inl ⟨retained, found, .inr ⟨earlier, rfl⟩⟩
      · rename_i later
        cases ok
        exact .inl ⟨retained, found, .inl ⟨Nat.le_of_not_lt later, rfl⟩⟩
    · rename_i absent
      right
      refine ⟨?_, ?_⟩
      · rw [ExtTreeMap.mem_iff_isSome_getElem?, absent]
        exact Bool.false_ne_true
      · split at ok
        · rename_i full
          split at ok
          · cases ok
          · rename_i deletion
            rw [not_not] at deletion
            split at ok
            · cases ok
            · rename_i evicted least
              cases ok
              exact .inr ⟨full, deletion, evicted, least, rfl⟩
        · rename_i room
          cases ok
          exact .inl ⟨Nat.lt_of_not_le room, rfl⟩

theorem upserts_cons {rest : List RelayEvent}
    (ok : s.upserts R capacity (incoming :: rest) = .ok next) :
    ∃ mid, s.upsert R capacity incoming = .ok mid ∧ mid.upserts R capacity rest = .ok next := by
  rw [upserts] at ok
  cases first : s.upsert R capacity incoming with
  | error error => simp [first, bind, Except.bind] at ok
  | ok mid => exact ⟨mid, rfl, by simpa [first, bind, Except.bind] using ok⟩

/-- The keys a transition takes out, each of them reported once. -/
structure Drops (s next : CacheState) (removed : List EventKey) : Prop where
  nodup : removed.Nodup
  present : ∀ key ∈ removed, key ∈ s.events
  reported : next.retractions.map SourceRetraction.eventId =
    s.retractions.map SourceRetraction.eventId ++ removed.map EventKey.id
  events : ∀ key : EventKey, next.events[key]? = if key ∈ removed then none else s.events[key]?
  coverage : next.coverage = s.coverage
  revision : next.revision = s.revision

theorem Drops.refl : Drops s s [] :=
  ⟨List.nodup_nil, nofun, (List.append_nil _).symm, fun _ => rfl, rfl, rfl⟩

theorem Drops.without {removed : List EventKey} (drops : Drops s next removed) :
    Without s.events next.events removed :=
  ⟨drops.nodup, drops.present, drops.events⟩

theorem Drops.mem_iff {removed : List EventKey} (drops : Drops s next removed) :
    key ∈ next.events ↔ key ∈ s.events ∧ key ∉ removed :=
  drops.without.mem_iff

theorem Drops.trans {first second : CacheState} {removed later : List EventKey}
    (drops : Drops s first removed) (then' : Drops first second later) :
    Drops s second (removed ++ later) := by
  have without := drops.without.trans then'.without
  refine ⟨without.once, without.present, ?_, without.find, then'.coverage.trans drops.coverage,
    then'.revision.trans drops.revision⟩
  rw [then'.reported, drops.reported, List.map_append, List.append_assoc]

theorem drops_remove {cause : RetractionCause} (there : key ∈ s.events) :
    Drops s (s.remove key cause) [key] := by
  have without : Without s.events (s.remove key cause).events [key] := without_erase there
  refine ⟨without.once, without.present, ?_, without.find, rfl, rfl⟩
  rw [remove, List.map_append]
  rfl

/-- Retractions take out what they name, and nothing else. -/
theorem drops_foldl (s : CacheState) (mutations : List EventStateMutation) :
    ∃ removed, Drops s (mutations.foldl retract s) removed ∧
    ∀ key, key ∈ removed ↔
      key ∈ s.events ∧ ∃ cause, .retract key.id key.session cause ∈ mutations := by
  induction mutations generalizing s with
  | nil => exact ⟨[], Drops.refl, by simp⟩
  | cons m rest ih =>
    obtain ⟨removed, drops, named⟩ := ih (s.retract m)
    rw [List.foldl_cons]
    cases m with
    | upsert e =>
      change Drops s _ removed at drops
      refine ⟨removed, drops, fun key => ?_⟩
      rw [named]
      simp [retract]
    | retract id session cause =>
      by_cases there : (⟨id, session⟩ : EventKey) ∈ s.events
      · have is : s.retract (.retract id session cause) = s.remove ⟨id, session⟩ cause :=
          if_pos (ExtTreeMap.contains_iff_mem.mpr there)
        rw [is] at drops named ⊢
        have first : Drops s (s.remove ⟨id, session⟩ cause) [⟨id, session⟩] := drops_remove there
        refine ⟨_, first.trans drops, fun key => ?_⟩
        rw [List.mem_append, named, first.mem_iff, List.mem_singleton]
        by_cases here : key = ⟨id, session⟩
        · subst here
          simp [there]
        · have other : ∀ cause', EventStateMutation.retract key.id key.session cause' ≠
              .retract id session cause := by
            rintro cause' same
            cases same
            exact here rfl
          simp only [here, false_or, not_false_eq_true, and_true, List.mem_cons, other]
      · have is : s.retract (.retract id session cause) = s :=
          if_neg fun contains => there (ExtTreeMap.contains_iff_mem.mp contains)
        rw [is] at drops named ⊢
        refine ⟨removed, drops, fun key => ?_⟩
        rw [named]
        refine and_congr_right fun member => exists_congr fun other => ?_
        rw [List.mem_cons]
        refine ⟨.inr, fun hm => hm.resolve_left fun same => there ?_⟩
        cases same
        exact member

theorem foldl_retract : (mutations.foldl retract s).coverage = s.coverage ∧
    (∀ (key : EventKey) (known : RelayEvent),
      (mutations.foldl retract s).events[key]? = some known → s.events[key]? = some known) ∧
    ∀ (key : EventKey) (known : RelayEvent), s.events[key]? = some known →
      (mutations.foldl retract s).events[key]? = some known ∨
        ∃ cause, .retract key.id key.session cause ∈ mutations := by
  obtain ⟨removed, drops, named⟩ := drops_foldl s mutations
  refine ⟨drops.coverage, fun key known here => ?_, fun key known here => ?_⟩
  · rw [drops.events] at here
    split at here
    · cases here
    · exact here
  · by_cases out : key ∈ removed
    · exact .inr ((named key).mp out).2
    · left
      rw [drops.events, if_neg out]
      exact here

theorem publish_ok (ok : s.publish = .ok next) :
    s.revision < 2 ^ 64 - 1 ∧ next = { s with revision := s.revision + 1 } := by
  unfold publish at ok
  split at ok
  · rename_i room
    cases ok
    exact ⟨room, rfl⟩
  · cases ok

/-- A commit publishes what its mutations make of the cache as the next revision. -/
theorem commit_put (ok : s.commit R capacity mutations = .ok next) :
    ∃ put : CacheState, (mutations.foldl retract { s with retractions := [] }).upserts R capacity
        (mutations.filterMap CacheState.incoming) = .ok put ∧
      next = { put with
        revision := put.revision + 1
        coverage := if put.events ≠ s.events then [] else put.coverage } := by
  unfold commit apply at ok
  cases done : (mutations.foldl retract { s with retractions := [] }).upserts R capacity
      (mutations.filterMap CacheState.incoming) with
  | error error => simp [done, bind, Except.bind] at ok
  | ok put =>
    simp only [done, bind, Except.bind] at ok
    refine ⟨put, rfl, ?_⟩
    obtain ⟨-, rfl⟩ := publish_ok ok
    split <;> rfl

theorem transact_ok {decide : List RelayEvent → List EventStateMutation} {count : Nat}
    (ok : s.transact R capacity decide = .ok (count, next)) :
    decide s.current = [] ∧ next = s ∨ s.commit R capacity (decide s.current) = .ok next := by
  unfold transact at ok
  split at ok
  · rename_i nothing
    cases ok
    exact .inl ⟨nothing, rfl⟩
  · cases done : s.commit R capacity (decide s.current) with
    | error error => simp [done, Except.map] at ok
    | ok after =>
      simp only [done, Except.map, Except.ok.injEq, Prod.mk.injEq] at ok
      rw [ok.2]
      exact .inr rfl

theorem admitEvent_ok {admitted : Bool} (ok : s.admitEvent R capacity e now = .ok (admitted, next)) :
    ∃ count, s.transact R capacity (decideAdmission R e now) = .ok (count, next) := by
  unfold admitEvent at ok
  cases done : s.transact R capacity (decideAdmission R e now) with
  | error error => simp [done, Except.map] at ok
  | ok result =>
    simp only [done, Except.map, Except.ok.injEq, Prod.mk.injEq] at ok
    rw [← ok.2]
    exact ⟨result.1, rfl⟩

end Fava.Cache.CacheState
