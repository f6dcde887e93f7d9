import Fava.Cache.Invariant

namespace Fava.Cache.CacheState

open Std Fava.Lib Fava.Nostr Fava.State Fava.Write

variable {R : Rules} {capacity : Nat} {s next : CacheState} {e known x w d : RelayEvent}
  {l : List RelayEvent} {key : EventKey} {removed : List EventKey} {now : Timestamp}

/-- Verified events that do not expire, whose deletions name replaceable and addressable
targets by coordinate, and whose copies in one session were seen at different times. -/
structure Plain (R : Rules) (l : List RelayEvent) : Prop where
  verified : ∀ e ∈ l, R.verify e.event = .ok ()
  lasting : ∀ e ∈ l, ∀ tag ∈ e.event.tags, tag.head? ≠ some "expiration"
  coordinates : ∀ d ∈ l, ∀ target ∈ l, d.event.kind = eventDeletion →
    (∃ author kind identifier, coordinateOf R target.event = .replaceable author kind identifier) →
      ¬NamesEvent R d.event target.event
  apart : ∀ a ∈ l, ∀ b ∈ l, keyOf a = keyOf b →
    a.occurrence.observedAt = b.occurrence.observedAt → a = b

/-- The earliest copy of an event that no event of the list deletes or supersedes. -/
structure Best (R : Rules) (l : List RelayEvent) (known : RelayEvent) : Prop where
  listed : known ∈ l
  earliest : ∀ w ∈ l, keyOf w = keyOf known → known.occurrence.observedAt ≤ w.occurrence.observedAt
  undeleted : ∀ d ∈ l, deletionApplies R d.event known.event = false
  newest : ∀ w ∈ l, Rivals R w known → keyOf w ≠ keyOf known → known.newer w = true

/-- What the cache is after the listed events: only the best are there, and for every
event that is not there is a reason. -/
structure Settled (R : Rules) (l : List RelayEvent) (s : CacheState) : Prop where
  tidy : s.Tidy R
  revision : s.revision ≤ l.length
  best : ∀ (key : EventKey) (known : RelayEvent), s.events[key]? = some known → Best R l known
  rest : ∀ w ∈ l, (∃ d ∈ l, deletionApplies R d.event w.event = true) ∨ keyOf w ∈ s.events ∨
    ∃ x : RelayEvent, s.events[keyOf x]? = some x ∧ Rivals R x w ∧ keyOf x ≠ keyOf w ∧
      x.newer w = true

theorem Plain.mono {l' : List RelayEvent} (plain : Plain R l) (sub : l' ⊆ l) : Plain R l' :=
  ⟨fun e he => plain.verified e (sub he), fun e he => plain.lasting e (sub he),
    fun d hd target ht => plain.coordinates d (sub hd) target (sub ht),
    fun a ha b hb => plain.apart a (sub ha) b (sub hb)⟩

theorem Plain.live (plain : Plain R l) (he : e ∈ l) : eventIsExpired e.event.tags now = false := by
  rw [eventIsExpired, List.any_eq_false]
  intro tag ht
  rw [tagValue, if_neg (plain.lasting e he tag ht)]
  exact Bool.false_ne_true

theorem alike_of_key (lawful : R.Lawful) (first : R.verify x.event = .ok ())
    (second : R.verify w.event = .ok ()) (same : keyOf x = keyOf w) : Alike x w :=
  ⟨congrArg EventKey.session same,
    lawful.eq_of_id first second (congrArg EventKey.id same)⟩

theorem id_ne_of_rivals (rivals : Rivals R x w) (differ : keyOf x ≠ keyOf w) :
    x.event.id ≠ w.event.id := fun same =>
  differ (by rw [keyOf, same, rivals.1, keyOf])

/-- A deletion names neither of two events of one coordinate by its identifier. -/
theorem Plain.unnamed (plain : Plain R l) (hd : d ∈ l) (hw : w ∈ l) (rivals : Rivals R x w)
    (differ : keyOf x ≠ keyOf w) (kind : d.event.kind = eventDeletion) :
    ¬NamesEvent R d.event w.event :=
  plain.coordinates d hd w hw kind
    ((same_of_coordinate rivals.2).resolve_left (id_ne_of_rivals rivals differ)).1

theorem Plain.newer_of_spared (plain : Plain R l) (hd : d ∈ l) (hw : w ∈ l) (hx : x ∈ l)
    (rivals : Rivals R x w) (differ : keyOf x ≠ keyOf w)
    (deletes : deletionApplies R d.event w.event = true)
    (spares : deletionApplies R d.event x.event = false) : x.newer w = true := by
  have kind := (kind_of_deletes deletes).1
  exact State.newer_of_spared rivals (id_ne_of_rivals rivals differ)
    (plain.unnamed hd hw rivals differ kind) (plain.unnamed hd hx rivals.symm differ.symm kind)
    deletes spares

theorem Plain.deletes_of_newer (plain : Plain R l) (hd : d ∈ l) (hw : w ∈ l) (hx : x ∈ l)
    (rivals : Rivals R x w) (differ : keyOf x ≠ keyOf w)
    (deletes : deletionApplies R d.event x.event = true) (newer : x.newer w = true) :
    deletionApplies R d.event w.event = true := by
  have kind := (kind_of_deletes deletes).1
  exact State.deletes_of_newer rivals (id_ne_of_rivals rivals differ)
    (plain.unnamed hd hw rivals differ kind) (plain.unnamed hd hx rivals.symm differ.symm kind)
    deletes newer

theorem Settled.size_le (settled : Settled R l s) : s.events.size ≤ l.length := by
  rw [← ExtTreeMap.length_keys, ← List.length_map (f := keyOf)]
  refine (List.Nodup.subperm BTreeMap.nodup_keys fun key here => ?_).length_le
  obtain ⟨known, found⟩ := find_of_mem (ExtTreeMap.mem_keys.mp here)
  rw [← settled.tidy.keyed key known found]
  exact List.mem_map_of_mem (settled.best key known found).listed

/-- A listed deletion is retained. -/
theorem Settled.deletion (settled : Settled R l s) (lawful : R.Lawful) (plain : Plain R l)
    (hd : d ∈ l) (kind : d.event.kind = eventDeletion) :
    ∃ (key : EventKey) (known : RelayEvent), s.events[key]? = some known ∧ Alike known d := by
  obtain ⟨d', -, deletes⟩ | here | ⟨x, -, rivals, differ, -⟩ := settled.rest d hd
  · exact absurd kind (kind_of_deletes deletes).2.1
  · obtain ⟨known, found⟩ := find_of_mem here
    exact ⟨_, known, found, alike_of_key lawful (settled.tidy.verified _ _ found)
      (plain.verified d hd) (settled.tidy.keyed _ _ found)⟩
  · exact absurd (keyOf_of_rivals (coordinateOf_deletion lawful kind) rivals) differ

section Step

variable (lawful : R.Lawful) (plain : Plain R (l ++ [e])) (settled : Settled R l s)
include lawful plain settled

/-- An event that is refused is not among the best, and the others are as good as before. -/
theorem Settled.refused (refused : Refused R s e now) (events : next.events = s.events)
    (revision : next.revision ≤ (l ++ [e]).length) : Settled R (l ++ [e]) next := by
  have last : e ∈ l ++ [e] := List.mem_append_right _ List.mem_cons_self
  have old : ∀ {w}, w ∈ l → w ∈ l ++ [e] := fun hw => List.mem_append_left _ hw
  have verified := plain.verified e last
  have reason := refused.resolve_left (by rw [plain.live last]; exact Bool.false_ne_true)
  obtain ⟨key', other, found', -, why⟩ := reason
  have keyed := settled.tidy.keyed _ _ found'
  have listed := old (settled.best _ _ found').listed
  refine ⟨settled.tidy.of_subset fun key known found => by rwa [events] at found, revision,
    fun key known found => ?_, fun w hw => ?_⟩
  · rw [events] at found
    have best := settled.best key known found
    have at' := settled.tidy.keyed key known found
    refine ⟨old best.listed, fun w hw same => ?_, fun d hd => ?_, fun w hw rivals differ => ?_⟩
    · obtain hw | hw := List.mem_append.mp hw
      · exact best.earliest w hw same
      · cases List.mem_singleton.mp hw
        rw [← at', ← same] at found
        exact refused.earlier settled.tidy lawful verified found (plain.live (old best.listed))
    · obtain hd | hd := List.mem_append.mp hd
      · exact best.undeleted d hd
      · cases List.mem_singleton.mp hd
        by_contra deletes
        rw [Bool.not_eq_false] at deletes
        have kind := (kind_of_deletes deletes).1
        obtain deleted | ⟨rfl, -⟩ | ⟨rivals, differ, -⟩ := why
        · exact (kind_of_deletes deleted).2.1 kind
        · have alike := alike_of_key lawful (settled.tidy.verified _ _ found') verified keyed
          rw [← alike.deletes, settled.tidy.undeleted _ _ _ _ found found'] at deletes
          cases deletes
        · rw [← keyed] at differ
          exact differ (keyOf_of_rivals (coordinateOf_deletion lawful kind) rivals)
    · obtain hw | hw := List.mem_append.mp hw
      · exact best.newest w hw rivals differ
      · cases List.mem_singleton.mp hw
        obtain deleted | ⟨rfl, -⟩ | ⟨rivals', differ', loses⟩ := why
        · exact plain.newer_of_spared listed last (old best.listed) rivals.symm differ.symm deleted
            (settled.tidy.undeleted _ _ _ _ found found')
        · have alike := alike_of_key lawful (settled.tidy.verified _ _ found') verified keyed
          have same := settled.tidy.single _ _ _ _ found' found (alike.rivals.trans rivals)
          rw [← at'] at same
          exact absurd same differ
        · have same := settled.tidy.single _ _ _ _ found' found (rivals'.trans rivals)
          subst same
          rw [found'] at found
          cases found
          exact newer_total (id_ne_of_rivals rivals differ) loses
  · rw [events]
    obtain hw | hw := List.mem_append.mp hw
    · exact (settled.rest w hw).imp (fun ⟨d, hd, deletes⟩ => ⟨d, old hd, deletes⟩) id
    · cases List.mem_singleton.mp hw
      obtain deleted | ⟨rfl, -⟩ | ⟨rivals, differ, loses⟩ := why
      · exact .inl ⟨other, listed, deleted⟩
      · exact .inr (.inl (mem_of_find found'))
      · rw [← keyed] at found' differ
        exact .inr (.inr ⟨other, found', rivals, differ,
          newer_total (id_ne_of_rivals rivals differ).symm loses⟩)

/-- An event that is put in is among the best of all so far. -/
theorem Settled.best_of_admits (admits : Admits R capacity s next e now removed)
    (here : ∀ retained : RelayEvent, s.events[keyOf e]? = some retained →
      e.occurrence.observedAt < retained.occurrence.observedAt) : Best R (l ++ [e]) e := by
  have last : e ∈ l ++ [e] := List.mem_append_right _ List.mem_cons_self
  have old : ∀ {w}, w ∈ l → w ∈ l ++ [e] := fun hw => List.mem_append_left _ hw
  have live : ∀ {key : EventKey} {known : RelayEvent}, s.events[key]? = some known →
      eventIsExpired known.event.tags now = false := fun found =>
    plain.live (old (settled.best _ _ found).listed)
  have spared : ∀ d ∈ l, deletionApplies R d.event e.event = false := by
    intro d hd
    by_contra deletes
    rw [Bool.not_eq_false] at deletes
    obtain ⟨key, known, found, alike⟩ := settled.deletion lawful (plain.mono fun _ => old) hd
      (kind_of_deletes deletes).1
    rw [← alike.deletes, admits.undeleted key known found (live found)] at deletes
    cases deletes
  refine ⟨last, fun w hw same => ?_, fun d hd => ?_, fun w hw rivals differ => ?_⟩
  · obtain hw | hw := List.mem_append.mp hw
    · have alike := alike_of_key lawful (plain.verified w (old hw)) admits.verified same
      obtain ⟨d, hd, deletes⟩ | there | ⟨x, found, rivals, differ, newer⟩ := settled.rest w hw
      · rw [alike.deleted, spared d hd] at deletes
        cases deletes
      · obtain ⟨known, found⟩ := find_of_mem there
        have at' := settled.tidy.keyed _ _ found
        have before := (settled.best _ _ found).earliest w hw at'.symm
        rw [same] at found
        exact (here known found).le.trans before
      · rw [same] at differ
        have newer' := admits.newest _ x found (live found) (rivals.trans alike.rivals) differ
        rw [alike.older, newer_asymm newer'] at newer
        cases newer
    · rw [List.mem_singleton.mp hw]
  · obtain hd | hd := List.mem_append.mp hd
    · exact spared d hd
    · cases List.mem_singleton.mp hd
      by_contra deletes
      rw [Bool.not_eq_false] at deletes
      obtain ⟨kind, target, -⟩ := kind_of_deletes deletes
      exact target kind
  · obtain hw | hw := List.mem_append.mp hw
    · obtain ⟨d, hd, deletes⟩ | there | ⟨x, found, rivals', differ', newer⟩ := settled.rest w hw
      · exact plain.newer_of_spared (old hd) (old hw) last rivals.symm differ.symm deletes
          (spared d hd)
      · obtain ⟨known, found⟩ := find_of_mem there
        have alike := alike_of_key lawful (settled.tidy.verified _ _ found)
          (plain.verified w (old hw)) (settled.tidy.keyed _ _ found)
        rw [← alike.older]
        exact admits.newest _ known found (live found) (alike.rivals.trans rivals) differ
      · by_cases same : keyOf x = keyOf e
        · have alike := alike_of_key lawful (settled.tidy.verified _ _ found) admits.verified same
          rw [← alike.newer]
          exact newer
        · exact newer_trans (admits.newest _ x found (live found) (rivals'.trans rivals) same) newer
    · cases List.mem_singleton.mp hw
      exact absurd rfl differ

theorem Settled.admits (admits : Admits R capacity s next e now removed)
    (room : s.events.size < capacity) : Settled R (l ++ [e]) next := by
  have last : e ∈ l ++ [e] := List.mem_append_right _ List.mem_cons_self
  have old : ∀ {w}, w ∈ l → w ∈ l ++ [e] := fun hw => List.mem_append_left _ hw
  -- Whichever copy of the event is retained now, it stands for it.
  obtain ⟨copy, there, alike⟩ : ∃ copy : RelayEvent, next.events[keyOf e]? = some copy ∧
      Alike copy e := by
    obtain ⟨here, -⟩ | ⟨retained, found, -, here⟩ := admits.puts.here
    · exact ⟨e, here, alike_of_key lawful admits.verified admits.verified rfl⟩
    · exact ⟨retained, here, alike_of_key lawful (settled.tidy.verified _ _ found) admits.verified
        (settled.tidy.keyed _ _ found)⟩
  have at' : keyOf copy = keyOf e := (settled.tidy.admits admits).keyed _ _ there
  -- What went was deleted or superseded.
  have gone : ∀ {key : EventKey} {known : RelayEvent}, s.events[key]? = some known →
      (key ∈ next.events) ∨ deletionApplies R e.event known.event = true ∨
        Rivals R known e ∧ key ≠ keyOf e ∧ e.newer known = true := by
    intro key known found
    by_cases is : key = keyOf e
    · subst is
      exact .inl (mem_of_find there)
    · by_cases out : key ∈ removed
      · obtain ⟨known', found', due | why⟩ := admits.puts.only room key out
        · rw [plain.live (old (settled.best _ _ found').listed)] at due
          cases due
        · rw [found] at found'
          cases found'
          refine .inr (why.imp id fun ⟨rivals, differ⟩ => ⟨rivals, differ, ?_⟩)
          exact admits.newest key known found
            (plain.live (old (settled.best _ _ found).listed)) rivals differ
      · left
        rw [ExtTreeMap.mem_iff_isSome_getElem?, admits.puts.others key is, if_neg out, found]
        rfl
  refine ⟨settled.tidy.admits admits, ?_, fun key known found => ?_, fun w hw => ?_⟩
  · rw [admits.puts.revision, List.length_append]
    exact Nat.succ_le_succ settled.revision
  · by_cases is : key = keyOf e
    · subst is
      obtain ⟨here, later⟩ | ⟨retained, before, earlier, here⟩ := admits.puts.here
      · rw [here] at found
        cases found
        exact settled.best_of_admits lawful plain admits later
      · rw [here] at found
        cases found
        have best := settled.best _ _ before
        have same := settled.tidy.keyed _ _ before
        have alike := alike_of_key lawful (settled.tidy.verified _ _ before) admits.verified same
        refine ⟨old best.listed, fun w hw same => ?_, fun d hd => ?_, fun w hw rivals differ => ?_⟩
        · obtain hw | hw := List.mem_append.mp hw
          · exact best.earliest w hw same
          · rw [List.mem_singleton.mp hw]
            exact earlier
        · obtain hd | hd := List.mem_append.mp hd
          · exact best.undeleted d hd
          · cases List.mem_singleton.mp hd
            by_contra deletes
            rw [Bool.not_eq_false] at deletes
            obtain ⟨kind, target, -⟩ := kind_of_deletes deletes
            exact target (alike.kind_eq.trans kind)
        · obtain hw | hw := List.mem_append.mp hw
          · exact best.newest w hw rivals differ
          · cases List.mem_singleton.mp hw
            exact absurd same.symm differ
    · obtain ⟨before, stays⟩ := admits.kept found is
      have best := settled.best key known before
      have same := settled.tidy.keyed key known before
      refine ⟨old best.listed, fun w hw same' => ?_, fun d hd => ?_, fun w hw rivals differ => ?_⟩
      · obtain hw | hw := List.mem_append.mp hw
        · exact best.earliest w hw same'
        · cases List.mem_singleton.mp hw
          exact absurd (same.symm.trans same'.symm) is
      · obtain hd | hd := List.mem_append.mp hd
        · exact best.undeleted d hd
        · cases List.mem_singleton.mp hd
          by_contra deletes
          exact stays ⟨known, before, .inr (.inl (by simpa using deletes))⟩
      · obtain hw | hw := List.mem_append.mp hw
        · exact best.newest w hw rivals differ
        · cases List.mem_singleton.mp hw
          exact (stays ⟨known, before, .inr (.inr ⟨rivals.symm, is⟩)⟩).elim
  · obtain hw | hw := List.mem_append.mp hw
    · obtain ⟨d, hd, deletes⟩ | here | ⟨x, found, rivals, differ, newer⟩ := settled.rest w hw
      · exact .inl ⟨d, old hd, deletes⟩
      · obtain ⟨known, found⟩ := find_of_mem here
        have alike' := alike_of_key lawful (settled.tidy.verified _ _ found)
          (plain.verified w (old hw)) (settled.tidy.keyed _ _ found)
        obtain stays | deletes | ⟨rivals, differ, newer⟩ := gone found
        · exact .inr (.inl stays)
        · rw [alike'.deleted] at deletes
          exact .inl ⟨e, last, deletes⟩
        · refine .inr (.inr ⟨copy, at'.symm ▸ there,
            alike.rivals.trans (rivals.symm.trans alike'.rivals), ?_, ?_⟩)
          · rw [at']
            exact differ.symm
          · rw [alike.newer, ← alike'.older]
            exact newer
      · obtain stays | deletes | ⟨rivals', differ', newer'⟩ := gone found
        · obtain ⟨known, found'⟩ := find_of_mem stays
          by_cases is : keyOf x = keyOf e
          · have alike' := alike_of_key lawful (settled.tidy.verified _ _ found) admits.verified is
            refine .inr (.inr ⟨copy, at'.symm ▸ there,
              alike.rivals.trans (alike'.rivals.symm.trans rivals), ?_, ?_⟩)
            · rw [at', ← is]
              exact differ
            · rw [alike.newer, ← alike'.newer]
              exact newer
          · have before := (admits.kept found' is).1
            rw [found] at before
            cases before
            exact .inr (.inr ⟨x, found', rivals, differ, newer⟩)
        · exact .inl ⟨e, last, plain.deletes_of_newer last (old hw)
            (old (settled.best _ _ found).listed) rivals differ deletes newer⟩
        · by_cases is : keyOf w = keyOf e
          · exact .inr (.inl (is ▸ mem_of_find there))
          · refine .inr (.inr ⟨copy, at'.symm ▸ there,
              alike.rivals.trans (rivals'.symm.trans rivals), ?_, ?_⟩)
            · rw [at']
              exact Ne.symm is
            · rw [alike.newer]
              exact newer_trans newer' newer
    · cases List.mem_singleton.mp hw
      exact .inr (.inl (mem_of_find there))

end Step

/-- A verified event is not refused while there is room for it and for a revision. -/
theorem perform_admission (verified : R.verify e.event = .ok ())
    (room : s.events.size < capacity) (revision : s.revision < 2 ^ 64 - 1) :
    ∃ next, s.perform R capacity (.admission e now) = (.ok (), next) := by
  suffices ok : ∃ result, s.admitEvent R capacity e now = .ok result by
    obtain ⟨result, ok⟩ := ok
    rw [perform, ok]
    exact ⟨result.2, rfl⟩
  have committed : ∀ takes : List EventStateMutation,
      (takes.filterMap incoming = [] ∨ takes.filterMap incoming = [e]) →
      ∃ next, s.commit R capacity takes = .ok next := by
    intro takes puts
    obtain ⟨removed, drops, -⟩ := drops_foldl { s with retractions := [] } takes
    have put : ∃ put : CacheState, put.revision = s.revision ∧
        (takes.foldl retract { s with retractions := [] }).upserts R capacity
          (takes.filterMap incoming) = .ok put := by
      obtain none | one := puts
      · rw [none]
        exact ⟨_, drops.revision, rfl⟩
      · rw [one, upserts, upsert, verified]
        have fewer := Nat.not_le_of_lt (drops.size_le.trans_lt room)
        dsimp only
        split
        · split <;> refine ⟨_, ?_, rfl⟩ <;> exact drops.revision
        · rw [if_neg fewer]
          refine ⟨_, ?_, rfl⟩
          exact drops.revision
    obtain ⟨put, same, done⟩ := put
    rw [commit, apply, done]
    refine ⟨_, if_pos ?_⟩
    split <;> exact same ▸ revision
  have puts : (decideAdmission R e now s.current).filterMap incoming = [] ∨
      (decideAdmission R e now s.current).filterMap incoming = [e] := by
    rw [decideAdmission, List.filterMap_append, mutationsForExpiration, incoming_retracts,
      List.nil_append]
    obtain ⟨nothing, -⟩ | ⟨out, cause, is, -⟩ := mutationsForEvent_cases R (s.live now) e now
    · left
      exact (congrArg (List.filterMap incoming) nothing)
    · right
      refine (congrArg (List.filterMap incoming) is).trans ?_
      rw [List.filterMap_append, incoming_retracts]
      rfl
  obtain ⟨next, ok⟩ := committed _ puts
  rw [admitEvent, transact]
  split
  · exact ⟨_, rfl⟩
  · rw [ok]
    exact ⟨_, rfl⟩

theorem Settled.step (settled : Settled R l s) (lawful : R.Lawful) (plain : Plain R (l ++ [e]))
    (room : l.length < capacity) (revision : l.length < 2 ^ 64 - 1) :
    Settled R (l ++ [e]) (s.perform R capacity (.admission e now)).2 := by
  have last : e ∈ l ++ [e] := List.mem_append_right _ List.mem_cons_self
  have space := settled.size_le.trans_lt room
  obtain ⟨next, ok⟩ : ∃ next, s.perform R capacity (.admission e now) = (.ok (), next) :=
    perform_admission (plain.verified e last) space (settled.revision.trans_lt revision)
  rw [ok]
  obtain ⟨now', sweeps, refused⟩ | ⟨event, now', removed, is, admits⟩ :=
    settled.tidy.perform lawful ok
  · have refused := (refused e now rfl).2
    have alive : ∀ key, ¬s.Due now' key := by
      rintro key ⟨known, found, due⟩
      rw [plain.live (List.mem_append_left _ (settled.best key known found).listed)] at due
      cases due
    obtain ⟨rfl, -⟩ | ⟨up, removed, -, due, -, events⟩ := sweeps
    · refine settled.refused lawful plain refused rfl (settled.revision.trans ?_)
      rw [List.length_append]
      exact Nat.le_add_right _ _
    · refine settled.refused lawful plain refused (ExtTreeMap.ext_getElem? fun {key} => ?_) ?_
      · rw [events, if_neg fun out => alive key ((due key).mp out)]
      · rw [up, List.length_append]
        exact Nat.succ_le_succ settled.revision
  · cases is
    exact settled.admits lawful plain admits space

/-- Admit the events one after the other, each at its own time. -/
def admitAll (R : Rules) (capacity : Nat) (admissions : List (RelayEvent × Timestamp)) : CacheState :=
  admissions.foldl (fun s (e, now) => (s.perform R capacity (.admission e now)).2) empty

theorem settled_admitAll (lawful : R.Lawful) {admissions : List (RelayEvent × Timestamp)}
    (plain : Plain R (admissions.map Prod.fst)) (fits : admissions.length ≤ capacity)
    (usize : capacity < 2 ^ 64) :
    Settled R (admissions.map Prod.fst) (admitAll R capacity admissions) := by
  induction admissions using List.reverseRecOn with
  | nil =>
    have start : Watched.Invariant R capacity ⟨empty, fun _ => []⟩ := Watched.Invariant.start
    refine ⟨start.tidy, Nat.zero_le _, fun key known found => ?_, nofun⟩
    exact absurd (start.earliest key known found).1 List.not_mem_nil
  | append_singleton admissions last ih =>
    rw [List.map_append] at plain
    rw [List.length_append] at fits
    have shorter : admissions.length < capacity := fits
    have earlier := ih (plain.mono (List.subset_append_left _ _)) shorter.le
    rw [admitAll, List.foldl_append, List.map_append]
    apply earlier.step lawful plain
    · rw [List.length_map]
      exact shorter
    · rw [List.length_map]
      exact shorter.trans_le (Nat.le_sub_one_of_lt usize)

/-- What is retained in the end is what is best of all. -/
theorem Settled.find_iff (settled : Settled R l s) (plain : Plain R l) :
    s.events[key]? = some known ↔ keyOf known = key ∧ Best R l known := by
  refine ⟨fun found => ⟨settled.tidy.keyed key known found, settled.best key known found⟩, ?_⟩
  rintro ⟨rfl, best⟩
  obtain ⟨d, hd, deletes⟩ | here | ⟨x, found, rivals, differ, newer⟩ := settled.rest known best.listed
  · rw [best.undeleted d hd] at deletes
    cases deletes
  · obtain ⟨other, found⟩ := find_of_mem here
    have same := settled.tidy.keyed _ _ found
    have other_best := settled.best _ _ found
    have is := plain.apart other other_best.listed known best.listed same
      (Nat.le_antisymm (other_best.earliest known best.listed same.symm)
        (best.earliest other other_best.listed same))
    rw [← is] at found ⊢
    exact found
  · have newer' := best.newest x (settled.best _ _ found).listed rivals differ
    rw [newer_asymm newer'] at newer
    cases newer

/-- Events that fit the bound leave the same in whatever order they are admitted. -/
theorem admission_order_independent (lawful : R.Lawful)
    {admissions admissions' : List (RelayEvent × Timestamp)}
    (perm : (admissions.map Prod.fst).Perm (admissions'.map Prod.fst))
    (plain : Plain R (admissions.map Prod.fst)) (fits : admissions.length ≤ capacity)
    (usize : capacity < 2 ^ 64) :
    (admitAll R capacity admissions).events = (admitAll R capacity admissions').events := by
  have plain' : Plain R (admissions'.map Prod.fst) := plain.mono perm.symm.subset
  have fits' : admissions'.length ≤ capacity := by
    have same := perm.length_eq
    rw [List.length_map, List.length_map] at same
    exact same ▸ fits
  have first := settled_admitAll lawful plain fits usize
  have second := settled_admitAll lawful plain' fits' usize
  have best : ∀ known, Best R (admissions.map Prod.fst) known ↔
      Best R (admissions'.map Prod.fst) known := by
    intro known
    have member : ∀ e, e ∈ admissions.map Prod.fst ↔ e ∈ admissions'.map Prod.fst :=
      fun e => perm.mem_iff
    constructor <;> rintro ⟨listed, earliest, undeleted, newest⟩
    · exact ⟨(member _).mp listed, fun w hw => earliest w ((member w).mpr hw),
        fun d hd => undeleted d ((member d).mpr hd), fun w hw => newest w ((member w).mpr hw)⟩
    · exact ⟨(member _).mpr listed, fun w hw => earliest w ((member w).mp hw),
        fun d hd => undeleted d ((member d).mp hd), fun w hw => newest w ((member w).mp hw)⟩
  apply ExtTreeMap.ext_getElem?
  intro key
  apply Option.ext
  intro known
  rw [first.find_iff plain, second.find_iff plain', best]

/-- It names the coordinate of the contacts, and is older than the second ones. -/
def contactsDeletion : RelayEvent :=
  ⟨⟨33, 7, 20, 5,
    [["a", "3:0000000000000000000000000000000000000000000000000000000000000007:"]], "", 3⟩,
    ⟨"wss://relay.example", .unauthenticated, 102⟩⟩

theorem admission_order_independent_contacts :
    (admitAll (listedRules [firstContacts.event, secondContacts.event, contactsDeletion.event]) 3
      [(firstContacts, 100), (contactsDeletion, 102), (secondContacts, 103)]).events =
    (admitAll (listedRules [firstContacts.event, secondContacts.event, contactsDeletion.event]) 3
      [(secondContacts, 101), (firstContacts, 104), (contactsDeletion, 105)]).events := by
  apply admission_order_independent
  · exact listedRules_lawful (by decide)
  · decide
  · refine ⟨fun e he => verify_listed.mpr ?_, by decide, ?_, by decide⟩
    · revert e
      decide
    · suffices unnamed : ∀ d ∈ [firstContacts, contactsDeletion, secondContacts],
          ∀ target ∈ [firstContacts, contactsDeletion, secondContacts],
          (d.event.tags.any fun tag => (tagValue "e" tag).bind fromHex = some target.event.id) = false by
        intro d hd target ht _ _ named
        exact Bool.false_ne_true ((unnamed d hd target ht).symm.trans named)
      decide
  · decide
  · decide

end Fava.Cache.CacheState
