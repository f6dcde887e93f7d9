import Fava.Cache.Effects
import Fava.Cache.Persistent
import Fava.Lib.Fallible
import Fava.Lib.Run
import Fava.State.Identity
import Mathlib.Data.List.Induction

namespace Fava.Cache

open Std Fava.Lib Fava.Nostr Fava.State

variable {R : Rules} {capacity : Nat} {s : CacheState} {a b : AppliedMutations}
  {incoming e known : RelayEvent} {key : EventKey} {mutations : List EventStateMutation}
  {events : List RelayEvent} {base rows : BTreeMap EventKey RelayEvent} {now : Timestamp}

/-- Every event is under its own key, and verified. -/
structure Keyed (R : Rules) (rows : BTreeMap EventKey RelayEvent) : Prop where
  keyed : ∀ (key : EventKey) (known : RelayEvent), rows[key]? = some known → keyOf known = key
  verified : ∀ (key : EventKey) (known : RelayEvent), rows[key]? = some known →
    R.verify known.event = .ok ()

theorem keyed_empty : Keyed R ∅ := by
  constructor <;>
  · intro key known found
    rw [ExtTreeMap.getElem?_empty] at found
    cases found

theorem Keyed.insert (tidy : Keyed R rows) (verified : R.verify e.event = .ok ()) :
    Keyed R (rows.insert (keyOf e) e) := by
  constructor <;>
  · intro key known found
    rw [BTreeMap.find_insert] at found
    split at found
    · rename_i here
      cases found
      first | exact here | exact verified
    · first | exact tidy.keyed key known found | exact tidy.verified key known found

theorem Keyed.erase (tidy : Keyed R rows) : Keyed R (rows.erase key) := by
  constructor <;>
  · intro key' known found
    have before := BTreeMap.find_of_erase found
    first | exact tidy.keyed key' known before | exact tidy.verified key' known before

/-- A load gives back the rows, if each is under the key of its event. -/
theorem load_eq (keyed : Keyed R rows) : load rows = rows := by
  have own : load rows = BTreeMap.insertAll ∅ id rows.toList := by
    apply List.foldl_ext
    rintro events ⟨key, known⟩ listed
    rw [keyed.keyed key known (ExtTreeMap.mem_toList_iff_getElem?_eq_some.mp listed)]
    rfl
  rw [own, BTreeMap.insertAll_toList]

namespace AppliedMutations

/-- The two caches go through one batch alike. -/
theorem retract_events {m : EventStateMutation} (same : a.next.events = s.events) :
    (a.retract m).next.events = (s.retract m).events := by
  cases m with
  | retract id session cause =>
    change (if a.next.events.contains ⟨id, session⟩ then a.remove ⟨id, session⟩ cause else a).next.events =
      (if s.events.contains ⟨id, session⟩ then s.remove ⟨id, session⟩ cause else s).events
    rw [same]
    split
    · exact congrArg (ExtTreeMap.erase · _) same
    · exact same
  | upsert incoming => exact same

theorem foldl_retract_events (same : a.next.events = s.events) :
    (mutations.foldl retract a).next.events = (mutations.foldl CacheState.retract s).events := by
  induction mutations generalizing a s with
  | nil => exact same
  | cons m rest ih => exact ih (retract_events same)

theorem upsert_events (same : a.next.events = s.events) :
    (a.upsert R capacity incoming).map (·.next.events) =
      (s.upsert R capacity incoming).map (·.events) := by
  have oldest : a.next.oldest = s.oldest := by
    unfold CacheState.oldest
    rw [same]
  unfold upsert CacheState.upsert
  rw [same, oldest]
  cases R.verify incoming.event with
  | error error => rfl
  | ok =>
    dsimp only
    cases s.events[keyOf incoming]? with
    | some retained =>
      dsimp only
      split
      · exact congrArg (fun events => Except.ok (ExtTreeMap.insert events _ _)) same
      · exact congrArg Except.ok same
    | none =>
      dsimp only
      split
      · split
        · rfl
        · cases s.oldest with
          | none => rfl
          | some evicted =>
            exact congrArg (fun events => Except.ok ((ExtTreeMap.erase events _).insert _ _)) same
      · exact congrArg (fun events => Except.ok (ExtTreeMap.insert events _ _)) same

theorem upserts_events (same : a.next.events = s.events) :
    (a.upserts R capacity events).map (·.next.events) =
      (s.upserts R capacity events).map (·.events) := by
  induction events generalizing a s with
  | nil => exact congrArg Except.ok same
  | cons incoming rest ih =>
    have first : (a.upsert R capacity incoming).map (·.next.events) =
        (s.upsert R capacity incoming).map (·.events) := upsert_events same
    rw [upserts, CacheState.upserts]
    cases left : a.upsert R capacity incoming <;> cases right : s.upsert R capacity incoming <;>
      rw [left, right] at first
    · exact congrArg Except.error (Except.error.inj first)
    · cases first
    · cases first
    · exact ih (Except.ok.inj first)

end AppliedMutations

theorem RedbEventCache.apply_events {t : CacheState} (same : t.events = s.events) :
    (RedbEventCache.apply R capacity t mutations).map (·.next.events) =
      (s.apply R capacity mutations).map (·.events) := by
  have retracted : (mutations.foldl AppliedMutations.retract
        ⟨{ t with retractions := [] }, [], []⟩).next.events =
      (mutations.foldl CacheState.retract { s with retractions := [] }).events :=
    AppliedMutations.foldl_retract_events same
  have run : ((mutations.foldl AppliedMutations.retract
        ⟨{ t with retractions := [] }, [], []⟩).upserts R capacity
          (mutations.filterMap CacheState.incoming)).map (·.next.events) =
      ((mutations.foldl CacheState.retract { s with retractions := [] }).upserts R capacity
        (mutations.filterMap CacheState.incoming)).map (·.events) :=
    AppliedMutations.upserts_events retracted
  unfold RedbEventCache.apply CacheState.apply
  cases left : (mutations.foldl AppliedMutations.retract ⟨{ t with retractions := [] }, [], []⟩).upserts
      R capacity (mutations.filterMap CacheState.incoming) <;>
    cases right : (mutations.foldl CacheState.retract { s with retractions := [] }).upserts R capacity
      (mutations.filterMap CacheState.incoming) <;>
    rw [left, right] at run
  · simp only [left, right, bind, Except.bind, Except.map]
    exact congrArg Except.error (Except.error.inj run)
  · cases run
  · cases run
  · have equal := Except.ok.inj run
    simp only [left, right, bind, Except.bind, Except.map]
    split <;> split <;> exact congrArg Except.ok equal

/-- The events so far are what the rows to come make of those before, but for the keys
that go. -/
def AppliedMutations.Follows (base : BTreeMap EventKey RelayEvent) (a : AppliedMutations) : Prop :=
  ∀ key : EventKey, key ∉ a.removed → a.next.events[key]? =
    (a.inserted.foldl (fun rows e => ExtTreeMap.insert rows (keyOf e) e) base)[key]?

namespace AppliedMutations

theorem upsert_cases (ok : a.upsert R capacity incoming = .ok b) :
    R.verify incoming.event = .ok () ∧
      (keyOf incoming ∈ a.next.events ∧ (b = a ∨ b = a.insert incoming) ∨
        keyOf incoming ∉ a.next.events ∧
          (a.next.events.size < capacity ∧ b = a.insert incoming ∨
            capacity ≤ a.next.events.size ∧ incoming.event.kind = eventDeletion ∧
              ∃ evicted, a.next.oldest = some evicted ∧
                b = (a.remove evicted .evicted).insert incoming)) := by
  unfold upsert at ok
  split at ok
  · cases ok
  · rename_i verified
    refine ⟨verified, ?_⟩
    split at ok
    · rename_i retained found
      refine .inl ⟨CacheState.mem_of_find found, ?_⟩
      split at ok
      · cases ok
        exact .inr rfl
      · cases ok
        exact .inl rfl
    · rename_i absent
      refine .inr ⟨?_, ?_⟩
      · rw [ExtTreeMap.mem_iff_isSome_getElem?, absent]
        exact Bool.false_ne_true
      · split at ok
        · rename_i full
          split at ok
          · cases ok
          · rename_i deletion
            rw [not_not] at deletion
            split at ok
            · cases ok
            · rename_i evicted least
              cases ok
              exact .inr ⟨full, deletion, evicted, least, rfl⟩
        · rename_i room
          cases ok
          exact .inl ⟨Nat.lt_of_not_le room, rfl⟩

theorem Follows.insert (follows : Follows base a) : Follows base (a.insert e) := by
  intro key stays
  change (a.next.events.insert (keyOf e) e)[key]? =
    ((a.inserted ++ [e]).foldl (fun rows e => ExtTreeMap.insert rows (keyOf e) e) base)[key]?
  rw [List.foldl_append, List.foldl_cons, List.foldl_nil, BTreeMap.find_insert, BTreeMap.find_insert,
    follows key stays]

theorem Follows.remove {cause : RetractionCause} (follows : Follows base a) :
    Follows base (a.remove key cause) := by
  intro key' stays
  have apart : key' ∉ a.removed ∧ key' ≠ key := by
    simpa [AppliedMutations.remove, not_or] using stays
  change (a.next.events.erase key)[key']? = _
  rw [BTreeMap.find_erase_of_ne apart.2.symm]
  exact follows key' apart.1

theorem Follows.retract {m : EventStateMutation} (follows : Follows base a) :
    Follows base (a.retract m) := by
  cases m with
  | retract id session cause =>
    change Follows base (if a.next.events.contains ⟨id, session⟩ then a.remove ⟨id, session⟩ cause else a)
    split
    · exact follows.remove
    · exact follows
  | upsert incoming => exact follows

theorem Follows.upsert (follows : Follows base a) (ok : a.upsert R capacity incoming = .ok b) :
    Follows base b := by
  obtain ⟨-, ⟨-, rfl | rfl⟩ | ⟨-, ⟨-, rfl⟩ | ⟨-, -, evicted, -, rfl⟩⟩⟩ := upsert_cases ok
  · exact follows
  · exact follows.insert
  · exact follows.insert
  · exact follows.remove.insert

/-- What every upsert keeps, they keep together. -/
theorem upserts_induction {P : AppliedMutations → Prop} (start : P a)
    (keeps : ∀ a b, ∀ incoming ∈ events, P a → a.upsert R capacity incoming = .ok b → P b)
    (ok : a.upserts R capacity events = .ok b) : P b := by
  induction events generalizing a with
  | nil =>
    cases ok
    exact start
  | cons incoming rest ih =>
    rw [upserts] at ok
    obtain ⟨mid, first, ok⟩ := bind_eq_ok.mp ok
    exact ih (keeps a mid incoming List.mem_cons_self start first)
      (fun a b e listed => keeps a b e (List.mem_cons_of_mem _ listed)) ok

/-- What the retractions of a batch did: only what is retained goes. -/
structure Retracted (R : Rules) (base : BTreeMap EventKey RelayEvent)
    (mutations : List EventStateMutation) (a : AppliedMutations) : Prop where
  tidy : Keyed R a.next.events
  inside : ∀ key, key ∈ a.next.events → key ∈ base
  gone : ∀ key ∈ a.removed, key ∉ a.next.events
  named : ∀ key ∈ a.removed, key ∈ base ∧ ∃ cause, .retract key.id key.session cause ∈ mutations

theorem Retracted.retract {m : EventStateMutation} (retracted : Retracted R base mutations a)
    (listed : m ∈ mutations) : Retracted R base mutations (a.retract m) := by
  cases m with
  | retract id session cause =>
    change Retracted R base mutations
      (if a.next.events.contains ⟨id, session⟩ then a.remove ⟨id, session⟩ cause else a)
    split
    · rename_i here
      refine ⟨retracted.tidy.erase, fun key inside => ?_, fun key out => ?_, fun key out => ?_⟩
      · exact retracted.inside key (ExtTreeMap.mem_of_mem_erase inside)
      · change key ∉ a.next.events.erase ⟨id, session⟩
        obtain before | is := List.mem_append.mp out
        · exact fun inside => retracted.gone key before (ExtTreeMap.mem_of_mem_erase inside)
        · rw [List.mem_singleton.mp is, ExtTreeMap.mem_erase]
          exact fun inside => inside.1 ReflCmp.compare_self
      · obtain before | is := List.mem_append.mp out
        · exact retracted.named key before
        · rw [List.mem_singleton.mp is]
          exact ⟨retracted.inside _ (ExtTreeMap.contains_iff_mem.mp here), cause, listed⟩
    · exact retracted
  | upsert incoming => exact retracted

theorem Retracted.foldl {l : List EventStateMutation} (retracted : Retracted R base mutations a)
    (sub : ∀ m ∈ l, m ∈ mutations) : Retracted R base mutations (l.foldl AppliedMutations.retract a) := by
  induction l generalizing a with
  | nil => exact retracted
  | cons m rest ih =>
    rw [List.forall_mem_cons] at sub
    exact ih (retracted.retract sub.1) sub.2

/-- What went stays away: nothing that is put in afterwards is of its key, or the cache is
full and takes no event of its kind. -/
structure Settles (R : Rules) (capacity : Nat) (upserted : List RelayEvent) (a : AppliedMutations) :
    Prop where
  tidy : Keyed R a.next.events
  gone : ∀ key ∈ a.removed, key ∉ a.next.events
  why : ∀ key ∈ a.removed,
    (∀ e ∈ upserted, R.verify e.event = .ok () → keyOf e ≠ key) ∨
      capacity ≤ a.next.events.size ∧
        ∃ old : Event, old.id = key.id ∧ R.verify old = .ok () ∧ old.kind ≠ eventDeletion

theorem oldest_find {s : CacheState} (least : s.oldest = some key) :
    ∃ known : RelayEvent, s.events[key]? = some known ∧ known.event.kind ≠ eventDeletion := by
  obtain ⟨⟨key', known⟩, chosen, rfl⟩ := Option.map_eq_some_iff.mp least
  have listed := mem_of_foldl_choice (fun best e => ?_) chosen
  · rw [List.mem_filter, decide_eq_true_eq] at listed
    exact ⟨known, ExtTreeMap.mem_toList_iff_getElem?_eq_some.mp listed.1, listed.2⟩
  · cases best with
    | none => exact .inl rfl
    | some b => exact ite_eq_or_eq _ _ _

theorem Settles.upsert {upserted : List RelayEvent} (settles : Settles R capacity upserted a)
    (lawful : R.Lawful) (listed : incoming ∈ upserted) (ok : a.upsert R capacity incoming = .ok b) :
    Settles R capacity upserted b := by
  obtain ⟨verified, ⟨here, rfl | rfl⟩ | ⟨absent, ⟨room, rfl⟩ | ⟨full, deletion, evicted, least, rfl⟩⟩⟩ :=
    upsert_cases ok
  · exact settles
  · have other : ∀ key ∈ a.removed, keyOf incoming ≠ key :=
      fun key out same => settles.gone key out (same ▸ here)
    have size : (a.next.events.insert (keyOf incoming) incoming).size = a.next.events.size := by
      rw [ExtTreeMap.size_insert, if_pos (ExtTreeMap.contains_iff_mem.mpr here)]
    refine ⟨settles.tidy.insert verified, fun key out => ?_, fun key out => ?_⟩
    · exact BTreeMap.not_mem_insert (other key out) (settles.gone key out)
    · change _ ∨ capacity ≤ (a.next.events.insert (keyOf incoming) incoming).size ∧ _
      rw [size]
      exact settles.why key out
  · have other : ∀ key ∈ a.removed, ∀ e ∈ upserted, R.verify e.event = .ok () → keyOf e ≠ key :=
      fun key out => (settles.why key out).resolve_right fun full =>
        absurd room (Nat.not_lt_of_le full.1)
    refine ⟨settles.tidy.insert verified, fun key out => ?_, fun key out => .inl (other key out)⟩
    exact BTreeMap.not_mem_insert (other key out incoming listed verified) (settles.gone key out)
  · -- The cache is full, and what made room was no deletion; what comes in is one.
    obtain ⟨known, found, kind⟩ := oldest_find least
    have present := CacheState.mem_of_find found
    have valid := settles.tidy.verified _ _ found
    have size : ((a.next.events.erase evicted).insert (keyOf incoming) incoming).size =
        a.next.events.size := BTreeMap.size_replace present absent
    have other : ∀ key ∈ a.removed, keyOf incoming ≠ key := by
      rintro key out rfl
      obtain stranger | ⟨-, old, id, verified', kind'⟩ := settles.why _ out
      · exact stranger incoming listed verified rfl
      · exact kind' ((lawful.kind_eq verified' verified id).trans deletion)
    have apart : keyOf incoming ≠ evicted := fun same => absent (same ▸ present)
    refine ⟨settles.tidy.erase.insert verified, fun key out => ?_, fun key out => ?_⟩
    · change key ∉ (a.next.events.erase evicted).insert (keyOf incoming) incoming
      obtain before | is := List.mem_append.mp out
      · exact BTreeMap.not_mem_insert (other key before) fun inside =>
          settles.gone key before (ExtTreeMap.mem_of_mem_erase inside)
      · rw [List.mem_singleton.mp is]
        refine BTreeMap.not_mem_insert apart fun inside => ?_
        rw [ExtTreeMap.mem_erase] at inside
        exact inside.1 ReflCmp.compare_self
    · change _ ∨ capacity ≤ ((a.next.events.erase evicted).insert (keyOf incoming) incoming).size ∧ _
      rw [size]
      obtain before | is := List.mem_append.mp out
      · exact settles.why key before
      · rw [List.mem_singleton.mp is]
        exact .inr ⟨full, known.event, congrArg EventKey.id (settles.tidy.keyed _ _ found), valid, kind⟩

end AppliedMutations

/-- The rows that one batch leaves. -/
theorem applyDiff_eq (follows : a.Follows base) (gone : ∀ key ∈ a.removed, key ∉ a.next.events) :
    applyDiff base a.inserted a.removed = a.next.events := by
  apply ExtTreeMap.ext_getElem?
  intro key
  rw [applyDiff, BTreeMap.find_foldl_erase]
  split
  · rename_i out
    exact (ExtTreeMap.getElem?_eq_none (gone key out)).symm
  · rename_i stays
    exact (follows key stays).symm

/-- No retained event is both taken out and put in again by one batch. -/
def Apart (R : Rules) (s : CacheState) (mutations : List EventStateMutation) : Prop :=
  ∀ e, .upsert e ∈ mutations → R.verify e.event = .ok () → keyOf e ∈ s.events →
    ∀ cause, .retract e.event.id e.occurrence.session cause ∉ mutations

theorem mem_incoming : e ∈ mutations.filterMap CacheState.incoming ↔ .upsert e ∈ mutations := by
  rw [List.mem_filterMap]
  constructor
  · rintro ⟨m, listed, is⟩
    cases m with
    | upsert incoming =>
      cases is
      exact listed
    | retract id session cause => cases is
  · exact fun listed => ⟨_, listed, rfl⟩

/-- What a batch leaves in memory is what its rows leave on disk. -/
theorem apply_rows (tidy : Keyed R s.events) (lawful : R.Lawful) (apart : Apart R s mutations)
    (ok : RedbEventCache.apply R capacity s mutations = .ok a) :
    Keyed R a.next.events ∧ applyDiff s.events a.inserted a.removed = a.next.events := by
  obtain ⟨put, done, is⟩ := bind_eq_ok.mp ok
  have events : a.next.events = put.next.events ∧ a.inserted = put.inserted ∧ a.removed = put.removed := by
    obtain rfl := Except.ok.inj is
    split <;> exact ⟨rfl, rfl, rfl⟩
  obtain ⟨next, inserted, removed⟩ := events
  rw [next, inserted, removed]
  have start : AppliedMutations.Retracted R s.events mutations ⟨{ s with retractions := [] }, [], []⟩ :=
    ⟨tidy, fun _ => id, nofun, nofun⟩
  have retracted := start.foldl (l := mutations) fun _ => id
  have settles : AppliedMutations.Settles R capacity (mutations.filterMap CacheState.incoming)
      (mutations.foldl AppliedMutations.retract ⟨{ s with retractions := [] }, [], []⟩) := by
    refine ⟨retracted.tidy, retracted.gone, fun key out => .inl fun e listed verified same => ?_⟩
    obtain ⟨before, cause, named⟩ := retracted.named key out
    subst same
    exact apart e (mem_incoming.mp listed) verified before cause named
  have settled := AppliedMutations.upserts_induction settles
    (fun _ _ _ listed settles ok => settles.upsert lawful listed ok) done
  have follows : put.Follows s.events := by
    refine AppliedMutations.upserts_induction ?_ (fun _ _ _ _ follows ok => follows.upsert ok) done
    have first : AppliedMutations.Follows s.events ⟨{ s with retractions := [] }, [], []⟩ :=
      fun _ _ => rfl
    clear done ok settled settles retracted start
    generalize (⟨{ s with retractions := [] }, [], []⟩ : AppliedMutations) = a at first
    clear apart
    induction mutations generalizing a with
    | nil => exact first
    | cons m rest ih => exact ih _ first.retract
  exact ⟨settled.tidy, applyDiff_eq follows settled.gone⟩

end Fava.Cache
