import Fava.Cache.Effects
import Fava.State.Identity
import Mathlib.Data.List.Induction

namespace Fava.Cache.CacheState

open Std Fava.Lib Fava.Nostr Fava.State

variable {R : Rules} {capacity : Nat} {s next : CacheState} {e known : RelayEvent}
  {key : EventKey} {removed : List EventKey} {takes : List EventStateMutation} {now : Timestamp}

/-- What one commit with one event does: what it takes out goes, a full cache makes room
for a deletion, and the event is there unless its copy was seen earlier. -/
structure Puts (capacity : Nat) (s next : CacheState) (e : RelayEvent) (Taken : EventKey → Prop)
    (removed : List EventKey) : Prop where
  nodup : removed.Nodup
  present : ∀ key ∈ removed, key ∈ s.events
  apart : keyOf e ∉ removed
  taken : ∀ key ∈ s.events, Taken key → key ∈ removed
  only : s.events.size < capacity → ∀ key ∈ removed, Taken key
  reported : next.retractions.map SourceRetraction.eventId = removed.map EventKey.id
  revision : next.revision = s.revision + 1
  others : ∀ key : EventKey, key ≠ keyOf e →
    next.events[key]? = if key ∈ removed then none else s.events[key]?
  here : (next.events[keyOf e]? = some e ∧ ∀ retained : RelayEvent,
      s.events[keyOf e]? = some retained →
        e.occurrence.observedAt < retained.occurrence.observedAt) ∨
    ∃ retained : RelayEvent, s.events[keyOf e]? = some retained ∧
      retained.occurrence.observedAt ≤ e.occurrence.observedAt ∧
        next.events[keyOf e]? = some retained
  bounded : s.events.size ≤ capacity → next.events.size ≤ capacity

theorem Drops.size_le (drops : Drops s next removed) : next.events.size ≤ s.events.size :=
  BTreeMap.size_le_of_subset fun _ here => (drops.mem_iff.mp here).1

/-- What was taken out before the event is inserted. -/
theorem puts_insert {mid : CacheState} {Taken : EventKey → Prop} {coverage : List SourceCoverage}
    (drops : Drops { s with retractions := [] } mid removed) (away : keyOf e ∉ removed)
    (taken : ∀ key ∈ s.events, Taken key → key ∈ removed)
    (only : s.events.size < capacity → ∀ key ∈ removed, Taken key)
    (later : ∀ retained : RelayEvent, mid.events[keyOf e]? = some retained →
      e.occurrence.observedAt < retained.occurrence.observedAt)
    (room : s.events.size ≤ capacity → keyOf e ∉ mid.events → mid.events.size < capacity) :
    Puts capacity s { mid.insert e with revision := mid.revision + 1, coverage := coverage } e
      Taken removed := by
  refine ⟨drops.nodup, drops.present, away, taken, only, drops.reported,
    congrArg (· + 1) drops.revision, fun key other => ?_, .inl ⟨?_, ?_⟩, fun bound => ?_⟩
  · change (mid.events.insert (keyOf e) e)[key]? = _
    rw [BTreeMap.find_insert, if_neg other.symm]
    exact drops.events key
  · change (mid.events.insert (keyOf e) e)[keyOf e]? = _
    rw [BTreeMap.find_insert, if_pos rfl]
  · intro retained here
    apply later
    rw [drops.events, if_neg away]
    exact here
  · change (mid.events.insert (keyOf e) e).size ≤ capacity
    rw [ExtTreeMap.size_insert]
    by_cases here : keyOf e ∈ mid.events
    · rw [if_pos (ExtTreeMap.contains_iff_mem.mpr here)]
      exact drops.size_le.trans bound
    · rw [if_neg (mt ExtTreeMap.contains_iff_mem.mp here)]
      exact room bound here

theorem size_remove {cause : RetractionCause} (there : key ∈ s.events) :
    (s.remove key cause).events.size < s.events.size := by
  change (s.events.erase key).size < s.events.size
  rw [ExtTreeMap.size_erase, if_pos (ExtTreeMap.contains_iff_mem.mpr there)]
  apply Nat.sub_one_lt
  intro empty
  rw [ExtTreeMap.eq_empty_iff_size_eq_zero.mpr empty] at there
  exact ExtTreeMap.not_mem_empty there

theorem puts_of_commit (retracts : takes.filterMap CacheState.incoming = [])
    (apart : R.verify e.event = .ok () →
      ∀ cause, .retract e.event.id e.occurrence.session cause ∉ takes)
    (ok : s.commit R capacity (takes ++ [.upsert e]) = .ok next) :
    R.verify e.event = .ok () ∧ ∃ removed, Puts capacity s next e
      (fun key => ∃ cause, .retract key.id key.session cause ∈ takes) removed := by
  obtain ⟨put, done, rfl⟩ := commit_put ok
  obtain ⟨removed, drops, named⟩ := drops_foldl { s with retractions := [] } takes
  rw [List.filterMap_append, retracts, List.foldl_append] at done
  obtain ⟨last, ok, rest⟩ := upserts_cons done
  cases rest
  change (takes.foldl retract { s with retractions := [] }).upsert R capacity e = .ok put at ok
  generalize takes.foldl retract { s with retractions := [] } = mid at drops ok
  have taken : ∀ key ∈ s.events, (∃ cause, .retract key.id key.session cause ∈ takes) →
      key ∈ removed := fun key here why => (named key).mpr ⟨here, why⟩
  have only : ∀ key ∈ removed, ∃ cause, .retract key.id key.session cause ∈ takes :=
    fun key out => ((named key).mp out).2
  obtain ⟨verified, how⟩ := upsert_cases ok
  have away : keyOf e ∉ removed := fun out => by
    obtain ⟨-, cause, listed⟩ := (named _).mp out
    exact apart verified cause listed
  refine ⟨verified, ?_⟩
  obtain ⟨retained, found, ⟨earlier, rfl⟩ | ⟨later, rfl⟩⟩ |
    ⟨absent, ⟨room, rfl⟩ | ⟨full, -, evicted, least, rfl⟩⟩ := how
  · refine ⟨removed, drops.nodup, drops.present, away, taken, fun _ => only, drops.reported,
      congrArg (· + 1) drops.revision, fun key _ => drops.events key,
      .inr ⟨retained, ?_, earlier, found⟩, drops.size_le.trans⟩
    rw [drops.events, if_neg away] at found
    exact found
  · refine ⟨removed, puts_insert drops away taken (fun _ => only) (fun other here => ?_)
      fun _ absent => absurd (mem_of_find found) absent⟩
    rw [found] at here
    cases here
    exact later
  · exact ⟨removed, puts_insert drops away taken (fun _ => only)
      (fun other here => absurd (mem_of_find here) absent) fun _ _ => room⟩
  · have there := oldest_mem least
    refine ⟨removed ++ [evicted], puts_insert (drops.trans (drops_remove there)) ?_
      (fun key here why => List.mem_append_left _ (taken key here why))
      (fun room => absurd (full.trans drops.size_le) (Nat.not_le_of_lt room))
      (fun retained here => ?_) fun bound _ => ?_⟩
    · intro out
      obtain out | out := List.mem_append.mp out
      · exact away out
      · rw [← List.mem_singleton.mp out] at there
        exact absent there
    · exact absurd (ExtTreeMap.mem_of_mem_erase (mem_of_find here)) absent
    · exact (size_remove there).trans_le (drops.size_le.trans bound)

/-- What the cache keeps true of what it retains: every event under its own key and
verified, one of each coordinate in a session, and none that another one deletes. -/
structure Tidy (R : Rules) (s : CacheState) : Prop where
  keyed : ∀ (key : EventKey) (known : RelayEvent), s.events[key]? = some known → keyOf known = key
  verified : ∀ (key : EventKey) (known : RelayEvent), s.events[key]? = some known →
    R.verify known.event = .ok ()
  single : ∀ (key key' : EventKey) (known other : RelayEvent), s.events[key]? = some known →
    s.events[key']? = some other → Rivals R known other → key = key'
  undeleted : ∀ (key key' : EventKey) (known d : RelayEvent), s.events[key]? = some known →
    s.events[key']? = some d → deletionApplies R d.event known.event = false

def Due (s : CacheState) (now : Timestamp) (key : EventKey) : Prop :=
  ∃ known : RelayEvent, s.events[key]? = some known ∧ eventIsExpired known.event.tags now = true

/-- The retained event does not stay where the other one is put in. -/
def Yields (R : Rules) (s : CacheState) (e : RelayEvent) (now : Timestamp) (key : EventKey) : Prop :=
  ∃ known : RelayEvent, s.events[key]? = some known ∧
    (eventIsExpired known.event.tags now = true ∨ deletionApplies R e.event known.event = true ∨
      Rivals R known e ∧ key ≠ keyOf e)

/-- Nothing changes, or what is due goes. -/
def Sweeps (s next : CacheState) (now : Timestamp) : Prop :=
  next = s ∧ (∀ key, ¬s.Due now key) ∨
    next.revision = s.revision + 1 ∧ ∃ removed : List EventKey, removed.Nodup ∧
      (∀ key, key ∈ removed ↔ s.Due now key) ∧
      next.retractions.map SourceRetraction.eventId = removed.map EventKey.id ∧
      ∀ key : EventKey, next.events[key]? = if key ∈ removed then none else s.events[key]?

/-- Why an event that is offered is not put in. -/
def Refused (R : Rules) (s : CacheState) (e : RelayEvent) (now : Timestamp) : Prop :=
  eventIsExpired e.event.tags now = true ∨
    ∃ (key : EventKey) (known : RelayEvent), s.events[key]? = some known ∧
      eventIsExpired known.event.tags now = false ∧
      (deletionApplies R known.event e.event = true ∨
        key = keyOf e ∧ known.occurrence.observedAt ≤ e.occurrence.observedAt ∨
        Rivals R known e ∧ key ≠ keyOf e ∧ e.newer known = false)

/-- The event is put in, and nothing live stands against it. -/
structure Admits (R : Rules) (capacity : Nat) (s next : CacheState) (e : RelayEvent)
    (now : Timestamp) (removed : List EventKey) : Prop where
  verified : R.verify e.event = .ok ()
  due : eventIsExpired e.event.tags now = false
  undeleted : ∀ (key : EventKey) (known : RelayEvent), s.events[key]? = some known →
    eventIsExpired known.event.tags now = false → deletionApplies R known.event e.event = false
  newest : ∀ (key : EventKey) (known : RelayEvent), s.events[key]? = some known →
    eventIsExpired known.event.tags now = false → Rivals R known e → key ≠ keyOf e →
      e.newer known = true
  puts : Puts capacity s next e (Yields R s e now) removed

theorem named_iff {out : List RelayEvent} {cause : RetractionCause} :
    (∃ cause', .retract key.id key.session cause' ∈ out.map (·.retract cause)) ↔
      ∃ known ∈ out, keyOf known = key := by
  constructor
  · rintro ⟨cause', named⟩
    obtain ⟨known, listed, is⟩ := List.mem_map.mp named
    obtain ⟨id, session, -⟩ := EventStateMutation.retract.inj is
    exact ⟨known, listed, by rw [keyOf, id, session]⟩
  · rintro ⟨known, listed, rfl⟩
    exact ⟨cause, List.mem_map_of_mem listed⟩

theorem incoming_retracts {out : List RelayEvent} {cause : RetractionCause} :
    (out.map (·.retract cause)).filterMap CacheState.incoming = [] := by
  rw [List.filterMap_map]
  exact List.filterMap_eq_nil_iff.mpr fun _ _ => rfl

theorem Tidy.mem_current (tidy : s.Tidy R) :
    known ∈ s.current ↔ s.events[keyOf known]? = some known := by
  rw [CacheState.mem_current]
  refine ⟨fun ⟨key, found⟩ => ?_, fun found => ⟨_, found⟩⟩
  rw [tidy.keyed key known found]
  exact found

theorem Tidy.due_iff (tidy : s.Tidy R) :
    (∃ cause, .retract key.id key.session cause ∈ mutationsForExpiration s.current now) ↔
      s.Due now key := by
  rw [mutationsForExpiration, named_iff]
  constructor
  · rintro ⟨known, listed, rfl⟩
    obtain ⟨here, due⟩ := List.mem_filter.mp listed
    exact ⟨known, tidy.mem_current.mp here, due⟩
  · rintro ⟨known, found, due⟩
    have is := tidy.keyed key known found
    rw [← is] at found
    exact ⟨known, List.mem_filter.mpr ⟨tidy.mem_current.mpr found, due⟩, is⟩

theorem Tidy.sweeps (tidy : s.Tidy R) :
    mutationsForExpiration s.current now = [] ∧ next = s ∨
      s.commit R capacity (mutationsForExpiration s.current now) = .ok next → Sweeps s next now := by
  rintro (⟨nothing, rfl⟩ | ok)
  · refine .inl ⟨rfl, fun key due => ?_⟩
    obtain ⟨cause, named⟩ := tidy.due_iff.mpr due
    rw [nothing] at named
    cases named
  · right
    obtain ⟨put, done, rfl⟩ := commit_put ok
    obtain ⟨removed, drops, named⟩ := drops_foldl { s with retractions := [] }
      (mutationsForExpiration s.current now)
    have puts : (mutationsForExpiration s.current now).filterMap CacheState.incoming = [] :=
      incoming_retracts
    rw [puts] at done
    cases done
    refine ⟨congrArg (· + 1) drops.revision, removed, drops.nodup, fun key => ?_, drops.reported,
      drops.events⟩
    rw [named, tidy.due_iff]
    exact ⟨And.right, fun due => ⟨mem_of_find due.choose_spec.1, due⟩⟩

/-- The retained events an admission decides on. -/
def live (s : CacheState) (now : Timestamp) : List RelayEvent :=
  s.current.filter fun known => !eventIsExpired known.event.tags now

theorem Tidy.mem_live (tidy : s.Tidy R) : known ∈ s.live now ↔
    s.events[keyOf known]? = some known ∧ eventIsExpired known.event.tags now = false := by
  rw [live, List.mem_filter, tidy.mem_current, Bool.not_eq_true']

theorem Tidy.find_live (tidy : s.Tidy R) (found : s.events[key]? = some known)
    (unexpired : eventIsExpired known.event.tags now = false) :
    known ∈ s.live now ∧ keyOf known = key := by
  have is := tidy.keyed key known found
  rw [← is] at found
  exact ⟨tidy.mem_live.mpr ⟨found, unexpired⟩, is⟩

/-- The event is put in after what it deletes or supersedes. -/
theorem Tidy.admits_put (tidy : s.Tidy R) (lawful : R.Lawful) {out : List RelayEvent}
    {cause : RetractionCause} (admissible : Admissible R (s.live now) e now)
    (within : ∀ known ∈ out, known ∈ s.live now)
    (taken : R.verify e.event = .ok () → ∀ known ∈ s.live now, known ∈ out ↔
      deletionApplies R e.event known.event = true ∨ Rivals R known e ∧ keyOf known ≠ keyOf e)
    (newest : R.verify e.event = .ok () → ∀ known ∈ s.live now, Rivals R known e →
      keyOf known ≠ keyOf e → e.newer known = true)
    (ok : s.commit R capacity (mutationsForExpiration s.current now ++
      (out.map (·.retract cause) ++ [.upsert e])) = .ok next) :
    ∃ removed, Admits R capacity s next e now removed := by
  rw [← List.append_assoc] at ok
  have named : ∀ key, (∃ cause', .retract key.id key.session cause' ∈
      mutationsForExpiration s.current now ++ out.map (·.retract cause)) ↔
        s.Due now key ∨ ∃ known ∈ out, keyOf known = key := by
    intro key
    rw [← tidy.due_iff, ← named_iff, ← exists_or]
    exact exists_congr fun _ => List.mem_append
  have retracts : (mutationsForExpiration s.current now ++ out.map (·.retract cause)).filterMap
      CacheState.incoming = [] := by
    rw [List.filterMap_append, incoming_retracts, mutationsForExpiration, incoming_retracts]
    rfl
  have apart : R.verify e.event = .ok () → ¬(s.Due now (keyOf e) ∨ ∃ known ∈ out, keyOf known = keyOf e) := by
    rintro verified (⟨known, found, due⟩ | ⟨known, listed, same⟩)
    · have is := congrArg EventKey.id (tidy.keyed _ _ found)
      rw [lawful.expired_eq (tidy.verified _ _ found) verified is, admissible.1] at due
      cases due
    · obtain deletes | ⟨-, other⟩ := (taken verified known (within known listed)).mp listed
      · obtain ⟨kind, target, -⟩ := kind_of_deletes deletes
        have found := (tidy.mem_live.mp (within known listed)).1
        exact target ((lawful.kind_eq (tidy.verified _ _ found) verified
          (congrArg EventKey.id same)).trans kind)
      · exact other same
  obtain ⟨verified, removed, puts⟩ := puts_of_commit retracts
    (fun verified cause listed => apart verified ((named (keyOf e)).mp ⟨cause, listed⟩)) ok
  refine ⟨removed, verified, admissible.1, fun key known found unexpired =>
    admissible.2 known (tidy.find_live found unexpired).1,
    fun key known found unexpired rivals other => ?_, ?_⟩
  · obtain ⟨listed, rfl⟩ := tidy.find_live found unexpired
    exact newest verified known listed rivals other
  · have yields : (fun key : EventKey => ∃ cause', .retract key.id key.session cause' ∈
        mutationsForExpiration s.current now ++ out.map (·.retract cause)) = Yields R s e now := by
      funext key
      rw [eq_iff_iff, named]
      constructor
      · rintro (⟨known, found, due⟩ | ⟨known, listed, rfl⟩)
        · exact ⟨known, found, .inl due⟩
        · exact ⟨known, (tidy.mem_live.mp (within known listed)).1,
            .inr ((taken verified known (within known listed)).mp listed)⟩
      · rintro ⟨known, found, why⟩
        by_cases due : eventIsExpired known.event.tags now = true
        · exact .inl ⟨known, found, due⟩
        · obtain ⟨listed, rfl⟩ := tidy.find_live found (Bool.not_eq_true _ ▸ due)
          exact .inr ⟨known, (taken verified known listed).mpr (why.resolve_left due), rfl⟩
    rw [yields] at puts
    exact puts

theorem keyOf_of_rivals {id : EventId} (coordinate : coordinateOf R e.event = .event id)
    (rivals : Rivals R known e) : keyOf known = keyOf e := by
  obtain ⟨session, same⟩ := rivals
  rw [coordinate] at same
  rw [keyOf, keyOf, session, id_of_coordinate same, id_of_coordinate coordinate]

theorem keyOf_ne_of_fresh {current : List RelayEvent} (fresh : Fresh current e) (here : known ∈ current) :
    keyOf known ≠ keyOf e := fun same =>
  fresh known here (congrArg EventKey.id same) (congrArg EventKey.session same)

/-- An admission that succeeds puts the event in or has a reason not to; what is due goes
in any case. -/
theorem Tidy.admission (tidy : s.Tidy R) (lawful : R.Lawful) {admitted : Bool}
    (ok : s.admitEvent R capacity e now = .ok (admitted, next)) :
    Refused R s e now ∧ Sweeps s next now ∨ ∃ removed, Admits R capacity s next e now removed := by
  obtain ⟨count, ok⟩ := admitEvent_ok ok
  have done := transact_ok ok
  have decided : decideAdmission R e now s.current =
    mutationsForExpiration s.current now ++ mutationsForEvent R (s.live now) e now := rfl
  rw [decided] at done
  have outcome := mutationsForEvent_outcome R (s.live now) e now
  generalize mutationsForEvent R (s.live now) e now = mutations at outcome done
  have sweeps : mutations = [] → Sweeps s next now := by
    rintro rfl
    rw [List.append_nil] at done
    exact tidy.sweeps done
  have put : ∀ (out : List RelayEvent) (cause : RetractionCause),
      mutations = out.map (·.retract cause) ++ [.upsert e] →
      s.commit R capacity (mutationsForExpiration s.current now ++
        (out.map (·.retract cause) ++ [.upsert e])) = .ok next := by
    rintro out cause rfl
    exact done.resolve_left fun ⟨nothing, _⟩ => by simp at nothing
  cases outcome with
  | expired due => exact .inl ⟨.inl due, sweeps rfl⟩
  | deleted known here deletes =>
    obtain ⟨found, unexpired⟩ := tidy.mem_live.mp here
    exact .inl ⟨.inr ⟨_, known, found, unexpired, .inl deletes⟩, sweeps rfl⟩
  | seen known here id session earlier =>
    obtain ⟨found, unexpired⟩ := tidy.mem_live.mp here
    refine .inl ⟨.inr ⟨_, known, found, unexpired, .inr (.inl ⟨?_, earlier⟩)⟩, sweeps rfl⟩
    rw [keyOf, id, session, keyOf]
  | older known here rivals fresh loses =>
    obtain ⟨found, unexpired⟩ := tidy.mem_live.mp here
    exact .inl ⟨.inr ⟨_, known, found, unexpired, .inr (.inr ⟨rivals, keyOf_ne_of_fresh fresh here, loses⟩)⟩,
      sweeps rfl⟩
  | deletion admissible kind out taken =>
    -- A deletion has a coordinate of its own.
    have alone : ∀ {known : RelayEvent}, Rivals R known e → keyOf known = keyOf e :=
      keyOf_of_rivals (coordinateOf_deletion lawful kind)
    refine .inr (tidy.admits_put lawful admissible (fun known listed => ((taken known).mp listed).1)
      (fun _ known listed => ?_) (fun _ known _ rivals other => absurd (alone rivals) other)
      (put out _ rfl))
    rw [taken]
    exact ⟨fun h => .inl h.2, fun h => ⟨listed, h.resolve_right fun h => h.2 (alone h.1)⟩⟩
  | refresh admissible kind known here id session later =>
    have alone : R.verify e.event = .ok () → ∀ other ∈ s.live now, Rivals R other e →
        keyOf other = keyOf e := by
      intro verified other listed rivals
      have found := (tidy.mem_live.mp here).1
      have same := lawful.coordinate_eq (tidy.verified _ _ found) verified id
      rw [tidy.single _ _ _ _ (tidy.mem_live.mp listed).1 found
        ⟨rivals.1.trans session.symm, rivals.2.trans same.symm⟩, keyOf, id, session, keyOf]
    refine .inr (tidy.admits_put lawful admissible (fun _ none => absurd none List.not_mem_nil)
      (fun verified other listed => ?_)
      (fun verified other listed rivals differ => absurd (alone verified other listed rivals) differ)
      (put [] .expired rfl))
    rw [not_deletes_of_kind kind]
    exact ⟨nofun, fun h => absurd (alone verified other listed (h.resolve_left nofun).1)
      (h.resolve_left nofun).2⟩
  | replace admissible kind fresh newest out taken =>
    refine .inr (tidy.admits_put lawful admissible (fun known listed => ((taken known).mp listed).1)
      (fun _ known listed => ?_) (fun _ known listed rivals _ => newest known listed rivals)
      (put out _ rfl))
    rw [taken, not_deletes_of_kind kind]
    exact ⟨fun h => .inr ⟨h.2, keyOf_ne_of_fresh fresh listed⟩, fun h => ⟨listed, (h.resolve_left nofun).1⟩⟩
  | plain admissible kind fresh id coordinate =>
    have alone : ∀ {known : RelayEvent}, Rivals R known e → keyOf known = keyOf e :=
      keyOf_of_rivals coordinate
    refine .inr (tidy.admits_put lawful admissible (fun _ none => absurd none List.not_mem_nil)
      (fun _ known listed => ?_) (fun _ known _ rivals other => absurd (alone rivals) other)
      (put [] .expired rfl))
    rw [not_deletes_of_kind kind]
    exact ⟨nofun, fun h => absurd (alone (h.resolve_left nofun).1) (h.resolve_left nofun).2⟩

theorem Tidy.of_subset (tidy : s.Tidy R)
    (subset : ∀ (key : EventKey) (known : RelayEvent), next.events[key]? = some known →
      s.events[key]? = some known) : next.Tidy R :=
  ⟨fun key known found => tidy.keyed key known (subset key known found),
    fun key known found => tidy.verified key known (subset key known found),
    fun key key' known other found found' =>
      tidy.single key key' known other (subset key known found) (subset key' other found'),
    fun key key' known d found found' =>
      tidy.undeleted key key' known d (subset key known found) (subset key' d found')⟩

theorem Sweeps.kept (sweeps : Sweeps s next now) (found : next.events[key]? = some known) :
    s.events[key]? = some known ∧ eventIsExpired known.event.tags now = false := by
  obtain ⟨rfl, none⟩ | ⟨-, removed, -, due, -, events⟩ := sweeps
  · refine ⟨found, ?_⟩
    by_contra expired
    exact none key ⟨known, found, by simpa using expired⟩
  · rw [events] at found
    split at found
    · cases found
    · rename_i stays
      refine ⟨found, ?_⟩
      by_contra expired
      exact stays ((due key).mpr ⟨known, found, by simpa using expired⟩)

/-- Every other event that stays is live, and goes together with the one put in. -/
theorem Admits.kept (admits : Admits R capacity s next e now removed)
    (found : next.events[key]? = some known) (other : key ≠ keyOf e) :
    s.events[key]? = some known ∧ ¬Yields R s e now key := by
  rw [admits.puts.others key other] at found
  split at found
  · cases found
  · rename_i stays
    exact ⟨found, fun yields => stays (admits.puts.taken key (mem_of_find found) yields)⟩

theorem Tidy.admits (tidy : s.Tidy R) (admits : Admits R capacity s next e now removed) :
    next.Tidy R := by
  obtain ⟨here, -⟩ | ⟨retained, found, -, here⟩ := admits.puts.here
  · have cases' : ∀ (key : EventKey) (known : RelayEvent), next.events[key]? = some known →
        key = keyOf e ∧ known = e ∨
          key ≠ keyOf e ∧ s.events[key]? = some known ∧ ¬Yields R s e now key := by
      intro key known found
      by_cases is : key = keyOf e
      · subst is
        rw [here] at found
        cases found
        exact .inl ⟨rfl, rfl⟩
      · exact .inr ⟨is, admits.kept found is⟩
    have rival : ∀ {key : EventKey} {known : RelayEvent}, key ≠ keyOf e →
        s.events[key]? = some known → ¬Yields R s e now key → ¬Rivals R known e :=
      fun other found stays rivals => stays ⟨_, found, .inr (.inr ⟨rivals, other⟩)⟩
    refine ⟨fun key known found => ?_, fun key known found => ?_,
      fun key key' known other found found' rivals => ?_,
      fun key key' known d found found' => ?_⟩
    · obtain ⟨rfl, rfl⟩ | ⟨-, found, -⟩ := cases' key known found
      · rfl
      · exact tidy.keyed key known found
    · obtain ⟨rfl, rfl⟩ | ⟨-, found, -⟩ := cases' key known found
      · exact admits.verified
      · exact tidy.verified key known found
    · obtain ⟨rfl, rfl⟩ | ⟨away, found, stays⟩ := cases' key known found <;>
        obtain ⟨rfl, rfl⟩ | ⟨away', found', stays'⟩ := cases' key' other found'
      · rfl
      · exact (rival away' found' stays' ⟨rivals.1.symm, rivals.2.symm⟩).elim
      · exact (rival away found stays rivals).elim
      · exact tidy.single key key' known other found found' rivals
    · by_contra deletes
      rw [Bool.not_eq_false] at deletes
      obtain ⟨rfl, rfl⟩ | ⟨away, found, stays⟩ := cases' key known found <;>
        obtain ⟨rfl, rfl⟩ | ⟨away', found', stays'⟩ := cases' key' d found'
      · obtain ⟨kind, target, -⟩ := kind_of_deletes deletes
        exact target kind
      · rw [admits.undeleted key' d found'] at deletes
        · cases deletes
        · by_contra expired
          exact stays' ⟨d, found', .inl (by simpa using expired)⟩
      · exact stays ⟨known, found, .inr (.inl deletes)⟩
      · rw [tidy.undeleted key key' known d found found'] at deletes
        cases deletes
  · refine tidy.of_subset fun key known found' => ?_
    by_cases is : key = keyOf e
    · subst is
      rw [here] at found'
      cases found'
      exact found
    · exact (admits.kept found' is).1

/-- A copy that is retained under the same key was seen no later than one that is
refused. -/
theorem Refused.earlier (refused : Refused R s e now) (tidy : s.Tidy R) (lawful : R.Lawful)
    (verified : R.verify e.event = .ok ()) (found : s.events[keyOf e]? = some known)
    (live : eventIsExpired known.event.tags now = false) :
    known.occurrence.observedAt ≤ e.occurrence.observedAt := by
  have valid := tidy.verified _ _ found
  have same : known.event.id = e.event.id := congrArg EventKey.id (tidy.keyed _ _ found)
  obtain due | ⟨key, other, found', -, deletes | ⟨rfl, earlier⟩ | ⟨rivals, away, -⟩⟩ := refused
  · rw [lawful.expired_eq valid verified same, due] at live
    cases live
  · rw [← lawful.deleted_eq valid verified same, tidy.undeleted _ _ _ _ found found'] at deletes
    cases deletes
  · rw [found] at found'
    cases found'
    exact earlier
  · have session : known.occurrence.session = e.occurrence.session :=
      congrArg EventKey.session (tidy.keyed _ _ found)
    exact absurd (tidy.single _ _ _ _ found' found
      ⟨rivals.1.trans session.symm,
        rivals.2.trans (lawful.coordinate_eq valid verified same).symm⟩) away

/-- What is asked of the cache. -/
inductive Call
  | admission (event : RelayEvent) (now : Timestamp)
  | expiration (now : Timestamp)

/-- The cache, and for every key the times of the copies admitted since it was last
absent. An event that does not verify is no copy of the one its identifier names. -/
structure Watched where
  cache : CacheState
  seen : EventKey → List Timestamp

section Calls

variable (R : Rules) (capacity : Nat)

/-- The next state is worked out on a copy and takes the place of the current one at the
very end, after all that can fail. -/
def perform (s : CacheState) : Call → Except EventCacheError Unit × CacheState
  | .admission event now =>
    match s.admitEvent R capacity event now with
    | .ok (_, next) => (.ok (), next)
    | .error error => (.error error, s)
  | .expiration now =>
    match s.expire R capacity now with
    | .ok (_, next) => (.ok (), next)
    | .error error => (.error error, s)

def Call.copies (key : EventKey) : Call → List Timestamp
  | .admission event _ =>
    if keyOf event = key ∧ R.verify event.event = .ok () then [event.occurrence.observedAt] else []
  | .expiration _ => []

def Watched.call (w : Watched) (c : Call) : Watched :=
  match w.cache.perform R capacity c with
  | (.error _, cache) => { w with cache := cache }
  | (.ok (), cache) =>
    ⟨cache, fun key => if key ∈ cache.events then w.seen key ++ c.copies R key else []⟩

def watch (calls : List Call) : Watched :=
  calls.foldl (Watched.call R capacity) ⟨empty, fun _ => []⟩

/-- Every retained event is the earliest copy since it was last absent. -/
def Watched.Earliest (w : Watched) : Prop :=
  ∀ (key : EventKey) (known : RelayEvent), w.cache.events[key]? = some known →
    known.occurrence.observedAt ∈ w.seen key ∧
      ∀ t ∈ w.seen key, known.occurrence.observedAt ≤ t

/-- A revision reports the entries that it removed, each of them once. -/
def Reports (s next : CacheState) : Prop :=
  next = s ∨ next.revision = s.revision + 1 ∧ ∃ removed : List EventKey, removed.Nodup ∧
    (∀ key, key ∈ removed ↔ key ∈ s.events ∧ key ∉ next.events) ∧
      next.retractions.map SourceRetraction.eventId = removed.map EventKey.id

end Calls

theorem Sweeps.reports (sweeps : Sweeps s next now) : Reports s next := by
  obtain ⟨same, -⟩ | ⟨revision, removed, nodup, due, reported, events⟩ := sweeps
  · exact .inl same
  · refine .inr ⟨revision, removed, nodup, fun key => ?_, reported⟩
    rw [ExtTreeMap.mem_iff_isSome_getElem?, ExtTreeMap.mem_iff_isSome_getElem?, events]
    split
    · rename_i out
      obtain ⟨known, found, -⟩ := (due key).mp out
      simp [out, found]
    · rename_i stays
      simp [stays]

theorem Puts.reports {Taken : EventKey → Prop} (puts : Puts capacity s next e Taken removed) :
    Reports s next := by
  have here : keyOf e ∈ next.events := by
    obtain ⟨here, -⟩ | ⟨retained, -, -, here⟩ := puts.here <;> exact mem_of_find here
  refine .inr ⟨puts.revision, removed, puts.nodup, fun key => ?_, puts.reported⟩
  by_cases is : key = keyOf e
  · subst is
    exact ⟨fun out => absurd out puts.apart, fun gone => absurd here gone.2⟩
  · rw [ExtTreeMap.mem_iff_isSome_getElem?, ExtTreeMap.mem_iff_isSome_getElem?, puts.others key is]
    split
    · rename_i out
      refine ⟨fun _ => ⟨?_, Bool.false_ne_true⟩, fun _ => out⟩
      exact ExtTreeMap.mem_iff_isSome_getElem?.mp (puts.present key out)
    · rename_i stays
      exact ⟨fun out => absurd out stays, fun gone => absurd gone.1 gone.2⟩

theorem Sweeps.size_le (sweeps : Sweeps s next now) : next.events.size ≤ s.events.size := by
  apply BTreeMap.size_le_of_subset
  intro key here
  obtain ⟨known, found⟩ := find_of_mem here
  exact mem_of_find (sweeps.kept found).1

/-- What holds of the cache at every moment. -/
structure Watched.Invariant (R : Rules) (capacity : Nat) (w : Watched) : Prop where
  tidy : w.cache.Tidy R
  bounded : w.cache.events.size ≤ capacity
  earliest : w.Earliest
  absent : ∀ key, key ∉ w.cache.events → w.seen key = []

theorem Watched.Invariant.start : Watched.Invariant R capacity ⟨empty, fun _ => []⟩ := by
  have none : ∀ (key : EventKey) (known : RelayEvent), ¬empty.events[key]? = some known := by
    intro key known found
    rw [empty, ExtTreeMap.getElem?_empty] at found
    cases found
  refine ⟨⟨?_, ?_, ?_, ?_⟩, Nat.zero_le _, ?_, fun _ _ => rfl⟩
  · exact fun key known found => (none key known found).elim
  · exact fun key known found => (none key known found).elim
  · exact fun key key' known other found => (none key known found).elim
  · exact fun key key' known d found => (none key known found).elim
  · exact fun key known found => (none key known found).elim

/-- What a call that succeeds does. -/
theorem Tidy.perform (tidy : s.Tidy R) (lawful : R.Lawful) {c : Call}
    (ok : s.perform R capacity c = (.ok (), next)) :
    (∃ now, Sweeps s next now ∧ ∀ event now', c = .admission event now' →
      now' = now ∧ Refused R s event now) ∨
    ∃ event now removed, c = .admission event now ∧
      Admits R capacity s next event now removed := by
  cases c with
  | admission event now =>
    simp only [CacheState.perform] at ok
    split at ok
    · rename_i done
      cases ok
      obtain ⟨refused, sweeps⟩ | ⟨removed, admits⟩ := tidy.admission lawful done
      · exact .inl ⟨now, sweeps, fun _ _ is => by cases is; exact ⟨rfl, refused⟩⟩
      · exact .inr ⟨event, now, removed, rfl, admits⟩
    · cases ok
  | expiration now =>
    simp only [CacheState.perform] at ok
    split at ok
    · rename_i done
      cases ok
      exact .inl ⟨now, tidy.sweeps (transact_ok done), fun _ _ is => by cases is⟩
    · cases ok

theorem perform_error {c : Call} {error : EventCacheError}
    (failed : s.perform R capacity c = (.error error, next)) : next = s := by
  cases c with
  | admission event now =>
    simp only [CacheState.perform] at failed
    split at failed <;> cases failed
    rfl
  | expiration now =>
    simp only [CacheState.perform] at failed
    split at failed <;> cases failed
    rfl

theorem Watched.Invariant.call {w : Watched} (inv : w.Invariant R capacity) (lawful : R.Lawful)
    (c : Call) : (w.call R capacity c).Invariant R capacity := by
  cases done : w.cache.perform R capacity c with
  | mk answer next =>
    cases answer with
    | error error =>
      have is : w.call R capacity c = w := by
        rw [Watched.call, done, perform_error done]
      rw [is]
      exact inv
    | ok =>
      have is : w.call R capacity c =
          ⟨next, fun key => if key ∈ next.events then w.seen key ++ c.copies R key else []⟩ := by
        rw [Watched.call, done]
      rw [is]
      obtain ⟨now, sweeps, refused⟩ | ⟨e, now, removed, rfl, admits⟩ := inv.tidy.perform lawful done
      · refine ⟨inv.tidy.of_subset fun key known found => (sweeps.kept found).1,
          sweeps.size_le.trans inv.bounded, fun key known found => ?_, fun key gone => if_neg gone⟩
        obtain ⟨before, live⟩ := sweeps.kept found
        obtain ⟨seen, least⟩ := inv.earliest key known before
        simp only [mem_of_find found, if_true]
        refine ⟨List.mem_append_left _ seen, fun t listed => ?_⟩
        obtain earlier | copy := List.mem_append.mp listed
        · exact least t earlier
        · cases c with
          | admission event now' =>
            obtain ⟨rfl, refused⟩ := refused event now' rfl
            rw [Call.copies] at copy
            split at copy
            · rename_i verifies
              obtain ⟨rfl, verified⟩ := verifies
              rw [List.mem_singleton.mp copy]
              exact refused.earlier inv.tidy lawful verified before live
            · cases copy
          | expiration now' => cases copy
      · refine ⟨inv.tidy.admits admits, admits.puts.bounded inv.bounded, fun key known found => ?_,
          fun key gone => if_neg gone⟩
        simp only [mem_of_find found, if_true, Call.copies]
        by_cases is : key = keyOf e
        · subst is
          rw [if_pos ⟨rfl, admits.verified⟩]
          obtain ⟨here, later⟩ | ⟨retained, before, earlier, here⟩ := admits.puts.here
          · rw [here] at found
            cases found
            refine ⟨by simp, fun t listed => ?_⟩
            obtain seen | copy := List.mem_append.mp listed
            · by_cases there : keyOf e ∈ w.cache.events
              · obtain ⟨retained, before⟩ := find_of_mem there
                exact (later retained before).le.trans ((inv.earliest _ _ before).2 t seen)
              · rw [inv.absent _ there] at seen
                cases seen
            · rw [List.mem_singleton.mp copy]
          · rw [here] at found
            cases found
            obtain ⟨seen, least⟩ := inv.earliest _ _ before
            refine ⟨List.mem_append_left _ seen, fun t listed => ?_⟩
            obtain seen | copy := List.mem_append.mp listed
            · exact least t seen
            · rw [List.mem_singleton.mp copy]
              exact earlier
        · obtain ⟨before, -⟩ := admits.kept found is
          rw [if_neg fun copy => is copy.1.symm, List.append_nil]
          exact inv.earliest key known before

theorem watch_invariant (lawful : R.Lawful) (calls : List Call) :
    (watch R capacity calls).Invariant R capacity := by
  induction calls using List.reverseRecOn with
  | nil => exact Watched.Invariant.start
  | append_singleton calls c ih =>
    rw [watch, List.foldl_append]
    exact ih.call lawful c

/-- At every moment each relay holds at most one event of a replaceable coordinate,
nothing retained is deleted by another retained event, the bound holds, and every event
is the earliest copy; a call that succeeds reports what it removes, and one that fails
changes nothing. -/
theorem memory_cache_invariant (lawful : R.Lawful) (calls : List Call) :
    (∀ (key key' : EventKey) (known other : RelayEvent) (author : PublicKey) (kind : Kind)
      (identifier : Option String),
      (watch R capacity calls).cache.events[key]? = some known →
      (watch R capacity calls).cache.events[key']? = some other →
      known.occurrence.session = other.occurrence.session →
      coordinateOf R known.event = .replaceable author kind identifier →
      coordinateOf R other.event = .replaceable author kind identifier → known = other) ∧
    (∀ (key key' : EventKey) (known deletion : RelayEvent),
      (watch R capacity calls).cache.events[key]? = some known →
      (watch R capacity calls).cache.events[key']? = some deletion →
      deletionApplies R deletion.event known.event = false) ∧
    (watch R capacity calls).cache.events.size ≤ capacity ∧
    (watch R capacity calls).Earliest ∧
    ∀ c : Call, match (watch R capacity calls).cache.perform R capacity c with
      | (.ok (), next) => Reports (watch R capacity calls).cache next
      | (.error _, next) => next = (watch R capacity calls).cache := by
  have inv : (watch R capacity calls).Invariant R capacity := watch_invariant lawful calls
  refine ⟨?_, inv.tidy.undeleted, inv.bounded, inv.earliest, fun c => ?_⟩
  · intro key key' known other author kind identifier found found' session first second
    have same := inv.tidy.single _ _ _ _ found found' ⟨session, first.trans second.symm⟩
    rw [same, found'] at found
    exact (Option.some.inj found).symm
  · split
    · rename_i next done
      obtain ⟨now, sweeps, -⟩ | ⟨e, now, removed, -, admits⟩ := inv.tidy.perform lawful done
      · exact sweeps.reports
      · exact admits.puts.reports
    · rename_i error next failed
      exact perform_error failed

def firstContacts : RelayEvent :=
  ⟨⟨31, 7, 20, 3, [], "", 1⟩, ⟨"wss://relay.example", .unauthenticated, 100⟩⟩

def secondContacts : RelayEvent :=
  ⟨⟨32, 7, 21, 3, [], "", 2⟩, ⟨"wss://relay.example", .unauthenticated, 101⟩⟩

theorem memory_cache_invariant_contacts :
    (watch (listedRules [firstContacts.event, secondContacts.event]) 2
      [.admission secondContacts 101, .admission firstContacts 102]).cache.events.size ≤ 2 ∧
    (watch (listedRules [firstContacts.event, secondContacts.event]) 2
      [.admission secondContacts 101, .admission firstContacts 102]).Earliest := by
  have lawful : (listedRules [firstContacts.event, secondContacts.event]).Lawful :=
    listedRules_lawful (by decide)
  obtain ⟨-, -, bounded, earliest, -⟩ := memory_cache_invariant lawful
    [.admission secondContacts 101, .admission firstContacts 102]
  exact ⟨bounded, earliest⟩

end Fava.Cache.CacheState
