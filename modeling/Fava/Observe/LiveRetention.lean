import Mathlib.Algebra.GroupWithZero.Nat
import Fava.Lib.Removal
import Fava.Lib.Run
import Fava.Observe.Live
import Fava.Queries.Query
import Fava.State.Identity
import Mathlib.Algebra.Order.BigOperators.Group.List

namespace Fava.Observe.Evidence

open Fava.Cache (SourceRetraction)
open Std Fava.Lib Fava.Nostr Fava.Queries Fava.Relay Fava.State Fava.Subscriptions Fava.Write

variable (R : Rules)

/-- What an event would make of the retained events, with the removals this takes. -/
def LiveState.transition (event : RelayEvent) (live : LiveState) :
    BTreeMap EventId RelayEvent × List SourceRetraction :=
  (mutationsForEvent R live.events.values event event.occurrence.observedAt).foldl
    (LiveState.mutate event.occurrence.session) (live.events, [])

def LiveState.retracted (live : LiveState) : List EventId :=
  live.retractions.map SourceRetraction.eventId

def LiveState.snapshot (session : RelayUrl) (live : LiveState) : SourceSnapshot :=
  ⟨.liveRelay session, live.revision, .isOpen, live.events.values.map .relay, live.retractions⟩

/-- The live relay snapshots of one observation. -/
def Sources.liveSnapshots (s : Sources) (id : ObservationId) : List SourceSnapshot :=
  match s.live[id]? with
  | none => []
  | some live => live.toList.map fun (session, live) => live.snapshot session

def Sources.liveSource (s : Sources) (id : ObservationId) (session : RelayUrl) : Option LiveState :=
  s.live[id]?.bind fun live => live[session]?

/-- What the call of one event makes of the live source of its relay. -/
inductive Recorded (event : RelayEvent) (before : LiveState) : LiveState → Prop
  | unchanged (nothing : mutationsForEvent R before.events.values event
      event.occurrence.observedAt = []) : Recorded event before before
  | refused (after : LiveState) (large : liveEventsPerSession < (before.transition R event).1.size)
      (events : after.events = before.events) (retractions : after.retractions = [])
      (revision : after.revision = bump before.revision)
      (counted : after.refused = bump before.refused) : Recorded event before after
  | accepted (after : LiveState) (fits : (before.transition R event).1.size ≤ liveEventsPerSession)
      (events : after.events = (before.transition R event).1)
      (put : after.events[event.event.id]? = some event)
      (kept : ∀ id : EventId, id ≠ event.event.id → ∀ known, after.events[id]? = some known →
        before.events[id]? = some known)
      (once : after.retracted.Nodup)
      (exact : ∀ id, id ∈ after.retracted ↔ id ∈ before.events ∧ id ∉ after.events)
      (revision : after.revision = bump before.revision)
      (counted : after.refused = before.refused) : Recorded event before after

/-- A live source holds verified events of its own relay by their identifiers, and no more
than there is room for. -/
structure LiveState.Sound (session : RelayUrl) (live : LiveState) : Prop where
  keyed : ∀ (id : EventId) (known : RelayEvent), live.events[id]? = some known → known.event.id = id
  own : ∀ (id : EventId) (known : RelayEvent), live.events[id]? = some known →
    known.occurrence.session = session
  verified : ∀ (id : EventId) (known : RelayEvent), live.events[id]? = some known →
    R.verify known.event = .ok ()
  bounded : live.events.size ≤ liveEventsPerSession

/-- Events are recorded once they are verified. -/
def Sources.Verified (_ : Sources) : Call → Prop
  | .op _ => True
  | .recordLiveEvent _ event => R.verify event.event = .ok ()

instance (s : Sources) : ∀ call, Decidable (s.Verified R call)
  | .op _ => .isTrue trivial
  | .recordLiveEvent _ _ => inferInstanceAs (Decidable (_ = _))

variable {R} {s : Sources} {session : RelayUrl} {event known : RelayEvent} {first live next : LiveState}
  {id : EventId} {out : List RelayEvent}

theorem LiveState.sound_default : LiveState.default.Sound R session where
  keyed id known found := by cases found
  own id known found := by cases found
  verified id known found := by cases found
  bounded := Nat.zero_le _

section Transition

/-- One removal of a session's own event takes it out if it is there, and then reports it. -/
theorem mutate_retract (cause : RetractionCause)
    (held : BTreeMap EventId RelayEvent × List SourceRetraction)
    (own : known.occurrence.session = session) :
    LiveState.mutate session held (known.retract cause) =
      if known.event.id ∈ held.1 then
        (held.1.erase known.event.id, held.2 ++ [⟨known.event.id, cause⟩])
      else held := by
  simp only [LiveState.mutate, RelayEvent.retract, own, decide_true, Bool.true_and,
    ExtTreeMap.contains_iff_mem]

/-- Removals of a session's own events take out those that are there, and report each once. -/
theorem foldl_retract (cause : RetractionCause)
    (held : BTreeMap EventId RelayEvent × List SourceRetraction)
    (own : ∀ known ∈ out, known.occurrence.session = session) :
    ∃ removed : List EventId,
      Without held.1 ((out.map (·.retract cause)).foldl (LiveState.mutate session) held).1 removed ∧
      ((out.map (·.retract cause)).foldl (LiveState.mutate session) held).2 =
        held.2 ++ removed.map (⟨·, cause⟩) ∧
      ∀ id ∈ removed, ∃ known ∈ out, known.event.id = id := by
  induction out generalizing held with
  | nil => exact ⟨[], .refl, (List.append_nil _).symm, nofun⟩
  | cons known out ih =>
    have rest : ∀ known ∈ out, known.occurrence.session = session :=
      fun other inside => own other (List.mem_cons_of_mem known inside)
    have step := mutate_retract cause held (own known List.mem_cons_self)
    simp only [List.map_cons, List.foldl_cons]
    split at step
    · rename_i there
      rw [step]
      obtain ⟨removed, without, reported, named⟩ := ih
        (held.1.erase known.event.id, held.2 ++ [⟨known.event.id, cause⟩]) rest
      refine ⟨known.event.id :: removed, (without_erase there).trans without, ?_, fun id out => ?_⟩
      · rw [reported, List.append_assoc]
        rfl
      · obtain rfl | later := List.mem_cons.mp out
        · exact ⟨known, List.mem_cons_self, rfl⟩
        · obtain ⟨other, inside, is⟩ := named id later
          exact ⟨other, List.mem_cons_of_mem known inside, is⟩
    · rw [step]
      obtain ⟨removed, without, reported, named⟩ := ih held rest
      refine ⟨removed, without, reported, fun id out => ?_⟩
      obtain ⟨other, inside, is⟩ := named id out
      exact ⟨other, List.mem_cons_of_mem known inside, is⟩

/-- No event takes out another that has its identifier. -/
theorem other_of_taken (lawful : R.Lawful) (verified : R.verify event.event = .ok ())
    (verified' : R.verify known.event = .ok ())
    (taken : deletionApplies R event.event known.event = true ∨ event.newer known = true) :
    known.event.id ≠ event.event.id := by
  intro same
  obtain deletes | newer := taken
  · obtain ⟨deletion, target, -⟩ := kind_of_deletes deletes
    exact target ((lawful.kind_eq verified' verified same).trans deletion)
  · obtain ⟨sig, is⟩ := lawful.eq_of_id verified verified' same.symm
    rw [RelayEvent.newer, is, eventIsNewer_irrefl] at newer
    cases newer

/-- What an event makes of a sound live source: nothing, or it takes out others and is
put in itself. -/
theorem LiveState.Sound.transition (sound : live.Sound R event.occurrence.session) (lawful : R.Lawful)
    (verified : R.verify event.event = .ok ()) :
    mutationsForEvent R live.events.values event event.occurrence.observedAt = [] ∨
      ∃ (rest : BTreeMap EventId RelayEvent) (removed : List EventId),
        (live.transition R event).1 = rest.insert event.event.id event ∧
        (live.transition R event).2.map SourceRetraction.eventId = removed ∧
        Without live.events rest removed ∧ event.event.id ∉ removed := by
  obtain ⟨nothing, -⟩ | ⟨out, cause, is, taken⟩ :=
    mutationsForEvent_cases R live.events.values event event.occurrence.observedAt
  · exact .inl nothing
  · right
    have own : ∀ known ∈ out, known.occurrence.session = event.occurrence.session := by
      intro known inside
      obtain ⟨id, found⟩ := BTreeMap.mem_values.mp (taken known inside).1
      exact sound.own id known found
    obtain ⟨removed, without, reported, named⟩ :=
      foldl_retract cause (live.events, []) own
    refine ⟨_, removed, ?_, ?_, without, fun out => ?_⟩
    · rw [LiveState.transition, is, List.foldl_append]
      rfl
    · rw [LiveState.transition, is, List.foldl_append]
      rw [List.foldl_cons, List.foldl_nil, LiveState.mutate, reported, List.nil_append, List.map_map]
      exact List.map_id removed
    · obtain ⟨known, inside, same⟩ := named _ out
      obtain ⟨here, why⟩ := taken known inside
      obtain ⟨id, found⟩ := BTreeMap.mem_values.mp here
      exact other_of_taken lawful verified (sound.verified id known found)
        (why.imp_right fun rival => rival.2.2) same

theorem LiveState.admitted_eq (some : mutationsForEvent R live.events.values event
    event.occurrence.observedAt ≠ []) :
    live.admitted R event.occurrence.session event = .some
      (if liveEventsPerSession < (live.transition R event).1.size then
        ⟨bump live.revision, live.events, [], bump live.refused⟩
      else ⟨bump live.revision, (live.transition R event).1, (live.transition R event).2,
        live.refused⟩) := by
  unfold LiveState.admitted
  dsimp only
  rw [if_neg (by simpa using some)]
  exact (apply_ite Option.some _ _ _).symm

/-- A transition that is taken exposes what it took out and nothing else. -/
theorem LiveState.Sound.recorded (sound : live.Sound R event.occurrence.session) (lawful : R.Lawful)
    (verified : R.verify event.event = .ok ()) :
    Recorded R event live ((live.admitted R event.occurrence.session event).getD live) := by
  by_cases nothing : mutationsForEvent R live.events.values event event.occurrence.observedAt = []
  · have same : live.admitted R event.occurrence.session event = none := by
      rw [LiveState.admitted, nothing]
      rfl
    rw [same]
    exact .unchanged nothing
  · obtain ⟨rest, removed, events, reported, without, fresh⟩ :=
      (sound.transition lawful verified).resolve_left nothing
    rw [LiveState.admitted_eq nothing, Option.getD_some]
    split
    · rename_i large
      exact .refused _ large rfl rfl rfl rfl
    · rename_i fits
      refine .accepted _ (Nat.le_of_not_lt fits) rfl ?_ (fun id other known found => ?_) ?_
        (fun id => ?_) rfl rfl
      · rw [events]
        exact BTreeMap.find_insert_self
      · dsimp only at found
        rw [events, BTreeMap.find_insert_of_ne other.symm, without.find] at found
        split at found
        · cases found
        · exact found
      · rw [LiveState.retracted, reported]
        exact without.once
      · rw [LiveState.retracted, reported]
        dsimp only
        rw [events, ExtTreeMap.mem_insert, LawfulEqCmp.compare_eq_iff_eq, without.mem_iff]
        constructor
        · intro out
          refine ⟨without.present id out, ?_⟩
          rintro (rfl | kept)
          · exact fresh out
          · exact kept.2 out
        · rintro ⟨here, gone⟩
          by_contra kept
          exact gone (.inr ⟨here, kept⟩)

/-- A live source stays sound, whatever is recorded. -/
theorem Recorded.sound (recorded : Recorded R event live next)
    (verified : R.verify event.event = .ok ()) (sound : live.Sound R event.occurrence.session) :
    next.Sound R event.occurrence.session := by
  cases recorded with
  | unchanged => exact sound
  | refused _ large events =>
    obtain ⟨keyed, own, ok, bounded⟩ := sound
    constructor <;> rw [events] <;> assumption
  | accepted _ fits events put kept =>
    have found (id : EventId) (known : RelayEvent) (here : next.events[id]? = some known) :
        id = event.event.id ∧ known = event ∨ live.events[id]? = some known := by
      by_cases is : id = event.event.id
      · rw [is, put] at here
        exact .inl ⟨is, (Option.some.inj here).symm⟩
      · exact .inr (kept id is known here)
    refine ⟨fun id known here => ?_, fun id known here => ?_, fun id known here => ?_, events ▸ fits⟩
    · obtain ⟨rfl, rfl⟩ | earlier := found id known here
      · rfl
      · exact sound.keyed id known earlier
    · obtain ⟨-, rfl⟩ | earlier := found id known here
      · rfl
      · exact sound.own id known earlier
    · obtain ⟨-, rfl⟩ | earlier := found id known here
      · exact verified
      · exact sound.verified id known earlier

end Transition

section Runs

variable {calls : List Call} {call : Call} {s' : Sources} {other : RelayUrl} {id' : ObservationId}

/-- Every live source there is is sound. -/
def Sources.Sound (R : Rules) (s : Sources) : Prop :=
  ∀ id session live, s.liveSource id session = some live → live.Sound R session

/-- A call changes the live source of its observation and relay, and no other. -/
theorem liveSource_record : (s.recordLiveEvent R id event).liveSource id' other =
    if id' = id ∧ other = event.occurrence.session then
      (s.liveSource id event.occurrence.session).map fun live =>
        (live.admitted R event.occurrence.session event).getD live
    else s.liveSource id' other := by
  have taken : (s.live[id]?.bind fun live => live[event.occurrence.session]?.bind
      (LiveState.admitted R event.occurrence.session event)) =
        (s.liveSource id event.occurrence.session).bind
          (LiveState.admitted R event.occurrence.session event) := by
    rw [Sources.liveSource, Option.bind_assoc]
  unfold Sources.recordLiveEvent
  dsimp only
  rw [taken]
  cases source : s.liveSource id event.occurrence.session with
  | none =>
    rw [Option.bind_none, Option.map_none]
    dsimp only
    split
    · rename_i here
      rw [here.1, here.2]
      exact source
    · rfl
  | some live =>
    rw [Option.bind_some, Option.map_some]
    cases admitted : live.admitted R event.occurrence.session event with
    | none =>
      dsimp only
      split
      · rename_i here
        rw [here.1, here.2, Option.getD_none]
        exact source
      · rfl
    | some next =>
      rw [Option.getD_some]
      obtain ⟨held, found, at'⟩ := Option.bind_eq_some_iff.mp source
      unfold Sources.liveSource
      dsimp only
      rw [BTreeMap.find_modify]
      by_cases same : id = id'
      · subst same
        rw [if_pos rfl, found, Option.map_some, Option.bind_some, Option.bind_some,
          BTreeMap.find_insert]
        by_cases here : event.occurrence.session = other
        · rw [if_pos here, if_pos ⟨rfl, here.symm⟩]
        · rw [if_neg here, if_neg fun both => here both.2.symm]
      · rw [if_neg same, if_neg fun both => same both.1.symm]

theorem mem_liveSnapshots {shown : SourceSnapshot} : shown ∈ s.liveSnapshots id ↔
    ∃ session live, s.liveSource id session = some live ∧ live.snapshot session = shown := by
  unfold Sources.liveSnapshots Sources.liveSource
  cases s.live[id]? with
  | none => simp
  | some held => simp [ExtTreeMap.mem_toList_iff_getElem?_eq_some]

theorem find_of_added {sessions : List RelayUrl} {held : BTreeMap RelayUrl LiveState}
    (found : (sessions.foldl (fun live session =>
      if live.contains session then live else live.insert session .default) held)[session]? = some live) :
    held[session]? = some live ∨ live = .default := by
  induction sessions generalizing held with
  | nil => exact .inl found
  | cons first sessions ih =>
    obtain earlier | rfl := ih found
    · dsimp only at earlier
      split at earlier
      · exact .inl earlier
      · rw [BTreeMap.find_insert] at earlier
        split at earlier
        · exact .inr (Option.some.inj earlier).symm
        · exact .inl earlier
    · exact .inr rfl

/-- The live sources an operation of the registry leaves are those there were, or new and
empty. -/
theorem liveSource_after {registry : State} {op : State.Op}
    (source : (⟨registry, s.liveAfter registry op⟩ : Sources).liveSource id session = some live) :
    s.liveSource id session = some live ∨ live = .default := by
  obtain ⟨held, found, at'⟩ := Option.bind_eq_some_iff.mp source
  have stays (same : s.live[id]? = some held) : s.liveSource id session = some live :=
    Option.bind_eq_some_iff.mpr ⟨held, same, at'⟩
  cases op with
  | install | installChild owner =>
    rw [Sources.liveAfter, BTreeMap.find_insert] at found
    split at found
    · cases found
      cases at'
    · exact .inl (stays found)
  | assign owner branch access wanted route withdrawal =>
    rw [Sources.liveAfter, BTreeMap.find_modify] at found
    split at found
    · obtain ⟨before, earlier, rfl⟩ := Option.map_eq_some_iff.mp found
      refine (find_of_added at').imp_left fun kept => ?_
      rw [ExtTreeMap.getElem?_filter', Option.filter_eq_some_iff] at kept
      exact Option.bind_eq_some_iff.mpr ⟨before, earlier, kept.1⟩
    · exact .inl (stays found)
  | activateChild | withdraw =>
    rw [Sources.liveAfter, ExtTreeMap.getElem?_filter', Option.filter_eq_some_iff] at found
    exact .inl (stays found.1)
  | recordState | recordSharing | recordPlan | recordCoalesced => exact .inl (stays found)

theorem sound_step (sound : s.Sound R) (lawful : R.Lawful) (verified : s.Verified R call)
    (stepped : s.step R call = some s') : s'.Sound R := by
  cases call with
  | op op =>
    obtain ⟨registry, applied, rfl⟩ := Option.map_eq_some_iff.mp stepped
    intro id session live source
    obtain earlier | rfl := liveSource_after source
    · exact sound id session live earlier
    · exact LiveState.sound_default
  | recordLiveEvent id event =>
    cases stepped
    intro id' session live source
    rw [liveSource_record] at source
    split at source
    · rename_i here
      obtain ⟨before, earlier, rfl⟩ := Option.map_eq_some_iff.mp source
      rw [here.2]
      have before_sound := sound id event.occurrence.session before earlier
      exact (before_sound.recorded lawful verified).sound verified before_sound
    · exact sound id' session live source

theorem sound_of_run (lawful : R.Lawful)
    (run : Run (Sources.step R) (Sources.Verified R) .start calls s) : s.Sound R := by
  refine run.invariant (Sources.Sound R) ?_ fun _ _ _ sound => sound_step sound lawful
  intro id session live source
  obtain ⟨held, found, -⟩ := Option.bind_eq_some_iff.mp source
  cases found

theorem length_snapshot : (live.snapshot session).events.length = live.events.size := by
  rw [LiveState.snapshot, List.length_map, BTreeMap.values_eq, List.length_map, ExtTreeMap.length_toList]

/-- However events are recorded and the registry is used, each relay of an observation
shows no more events than there is room for, and each event that is recorded changes the
live source of its relay alone: what would not fit is refused and leaves the events, and
what is taken exposes exactly the keys it took out. -/
theorem live_sources_exact (lawful : R.Lawful)
    (run : Run (Sources.step R) (Sources.Verified R) .start calls s) (id : ObservationId) :
    (∀ shown ∈ s.liveSnapshots id, shown.events.length ≤ liveEventsPerSession) ∧
      ∀ event : RelayEvent, R.verify event.event = .ok () →
        (∀ id' other, (id' ≠ id ∨ other ≠ event.occurrence.session) →
          (s.recordLiveEvent R id event).liveSource id' other = s.liveSource id' other) ∧
        ∀ live, s.liveSource id event.occurrence.session = some live →
          ∃ next, Recorded R event live next ∧
            (s.recordLiveEvent R id event).liveSource id event.occurrence.session = some next ∧
            next.snapshot event.occurrence.session ∈
              (s.recordLiveEvent R id event).liveSnapshots id := by
  have sound := sound_of_run lawful run
  refine ⟨fun shown listed => ?_,
    fun event verified => ⟨fun id' other apart => ?_, fun live source => ?_⟩⟩
  · obtain ⟨session, live, source, rfl⟩ := mem_liveSnapshots.mp listed
    rw [length_snapshot]
    exact (sound id session live source).bounded
  · rw [liveSource_record, if_neg fun both => apart.elim (· both.1) (· both.2)]
  · have after : (s.recordLiveEvent R id event).liveSource id event.occurrence.session =
        some ((live.admitted R event.occurrence.session event).getD live) := by
      rw [liveSource_record, if_pos ⟨rfl, rfl⟩, source, Option.map_some]
    exact ⟨_, (sound id _ live source).recorded lawful verified, after,
      mem_liveSnapshots.mpr ⟨_, _, after, rfl⟩⟩

end Runs

section Samples

def wantTwo : Wanted :=
  ((∅ : Wanted).insert "wss://a" (⟨1, 0, Filter.new, ⟨none, none, none⟩⟩, .automatic 1)).insert
    "wss://b" (⟨1, 0, Filter.new, ⟨none, none, none⟩⟩, .automatic 1)

/-- An observation of two relays. -/
def twoRelays : List Call :=
  [.op .install, .op (.assign 1 0 .unauthenticated wantTwo (some 1) .routeWithdrawn)]

/-- Two versions of one profile. -/
def profile (n : Nat) : RelayEvent := ⟨⟨n, 7, n, 0, [], "", 0⟩, "wss://a", .unauthenticated, 0⟩

def profileRules : Rules := listedRules [(profile 1).event, (profile 2).event]

/-- The newer version takes the place of the older one, which is exposed. -/
theorem newer_profile_exposes_older :
    ∃ s live next, Run (Sources.step profileRules) (Sources.Verified profileRules) .start
        (twoRelays ++ [.recordLiveEvent 1 (profile 1)]) s ∧
      (∀ shown ∈ s.liveSnapshots 1, shown.events.length ≤ liveEventsPerSession) ∧
      s.liveSource 1 "wss://a" = some live ∧ Recorded profileRules (profile 2) live next ∧
      next.retracted = [1] := by
  obtain ⟨s, run, checked⟩ := Run.of_any (show (exec (Sources.step profileRules)
    (Sources.Verified profileRules) .start (twoRelays ++ [.recordLiveEvent 1 (profile 1)])).any
      (fun s => (s.liveSource 1 "wss://a").isSome &&
        ((s.recordLiveEvent profileRules 1 (profile 2)).liveSource 1 "wss://a").any
          (·.retracted = [1])) = true by decide +kernel)
  rw [Bool.and_eq_true, Option.isSome_iff_exists, Option.any_eq_true] at checked
  obtain ⟨⟨live, source⟩, after, found, exposed⟩ := checked
  have lawful : profileRules.Lawful := listedRules_lawful (by decide)
  obtain ⟨bounded, records⟩ := live_sources_exact lawful run 1
  obtain ⟨next, recorded, same, -⟩ := (records (profile 2) (by decide)).2 live source
  have is := Option.some.inj (same.symm.trans found)
  exact ⟨s, live, next, run, bounded, source, recorded, is ▸ of_decide_eq_true exposed⟩

def noteEvent (n : Nat) : Event := ⟨n, 0, 0, 1, [], "", 0⟩

def note (session : RelayUrl) (n : Nat) : RelayEvent := ⟨noteEvent n, session, .unauthenticated, 0⟩

/-- The rules where one note more verifies than a live source has room for. -/
def noteRules : Rules := listedRules ((List.range (liveEventsPerSession + 1)).map noteEvent)

theorem mutations_note {current : List RelayEvent} {n : Nat}
    (others : ∀ known ∈ current, ∃ k ≠ n, known = note session k) :
    mutationsForEvent noteRules current (note session n) (note session n).occurrence.observedAt =
      [.upsert (note session n)] := by
  have undeleted : current.any (fun known =>
      deletionApplies noteRules known.event (note session n).event) = false := by
    rw [List.any_eq_false]
    intro known inside
    obtain ⟨k, -, rfl⟩ := others known inside
    have plain : (note session k).event.kind ≠ eventDeletion := show (1 : Nat) ≠ 5 by decide
    rw [not_deletes_of_kind plain]
    exact Bool.false_ne_true
  have unseen : (current.find? fun known => known.event.id = (note session n).event.id &&
      known.occurrence.session = (note session n).occurrence.session) = none := by
    rw [List.find?_eq_none]
    intro known inside
    obtain ⟨k, apart, rfl⟩ := others known inside
    rw [Bool.and_eq_true, decide_eq_true_eq]
    exact fun same => apart same.1
  have coordinate : coordinateOf noteRules (note session n).event = .event n := rfl
  unfold mutationsForEvent
  rw [undeleted, unseen, coordinate]
  rfl

/-- A live source holds the first notes of its relay. -/
structure Holds (session : RelayUrl) (n : Nat) (live : LiveState) : Prop where
  size : live.events.size = n
  notes : ∀ (id : EventId) (known : RelayEvent), live.events[id]? = some known →
    id < n ∧ known = note session id

theorem holds_of_empty (session : RelayUrl) (empty : live.events.isEmpty = true) :
    Holds session 0 live := by
  rw [ExtTreeMap.isEmpty_iff] at empty
  refine ⟨?_, fun id known found => ?_⟩
  · rw [empty]
    rfl
  · rw [empty] at found
    cases found

/-- A note that has a place is taken. -/
theorem admitted_note {n : Nat} (room : live.events.size < liveEventsPerSession)
    (others : ∀ (id : EventId) (known : RelayEvent), live.events[id]? = some known →
      id ≠ n ∧ known = note session id) :
    (live.admitted noteRules session (note session n)).map LiveState.events =
      some (live.events.insert n (note session n)) := by
  have takes : mutationsForEvent noteRules live.events.values (note session n)
      (note session n).occurrence.observedAt = [.upsert (note session n)] := by
    refine mutations_note fun known inside => ?_
    obtain ⟨id, found⟩ := BTreeMap.mem_values.mp inside
    exact ⟨id, others id known found⟩
  have makes : (live.transition noteRules (note session n)).1 =
      live.events.insert n (note session n) := by
    rw [LiveState.transition, takes]
    rfl
  have fits : ¬liveEventsPerSession < (live.transition noteRules (note session n)).1.size := by
    have grown := ExtTreeMap.size_insert_le (t := live.events) (k := n) (v := note session n)
    rw [makes]
    omega
  have taken := LiveState.admitted_eq (takes ▸ List.cons_ne_nil _ _)
  rw [if_neg fits] at taken
  change (live.admitted noteRules (note session n).occurrence.session (note session n)).map _ = _
  rw [taken, Option.map_some]
  exact congrArg _ makes

/-- A verified note that is taken joins the others of its relay. -/
theorem record_note {n : Nat} (listed : n ≤ liveEventsPerSession)
    (source : s.liveSource 1 session = some live) (room : live.events.size < liveEventsPerSession)
    (others : ∀ (id : EventId) (known : RelayEvent), live.events[id]? = some known →
      id ≠ n ∧ known = note session id) :
    ∃ t next, Run (Sources.step noteRules) (Sources.Verified noteRules) s
        [.recordLiveEvent 1 (note session n)] t ∧
      t.liveSource 1 session = some next ∧
      next.events = live.events.insert n (note session n) ∧
      ∀ other, other ≠ session → t.liveSource 1 other = s.liveSource 1 other := by
  obtain ⟨next, taken, events⟩ := Option.map_eq_some_iff.mp (admitted_note room others)
  have verified : noteRules.verify (note session n).event = .ok () :=
    verify_listed.mpr (List.mem_map_of_mem (List.mem_range.mpr (Nat.lt_succ_of_le listed)))
  refine ⟨s.recordLiveEvent noteRules 1 (note session n), next,
    Run.snoc .nil verified rfl, ?_, events, fun other apart => ?_⟩
  · rw [liveSource_record, if_pos ⟨rfl, rfl⟩]
    change (s.liveSource 1 session).map _ = _
    rw [source, Option.map_some]
    change some ((live.admitted noteRules session (note session n)).getD live) = _
    rw [taken, Option.getD_some]
  · rw [liveSource_record, if_neg fun both => apart both.2]

def notes (session : RelayUrl) (n : Nat) : List Call :=
  (List.range n).map fun k => .recordLiveEvent 1 (note session k)

theorem run_notes {n : Nat} (fits : n ≤ liveEventsPerSession)
    (source : s.liveSource 1 session = some first) (empty : first.events.isEmpty = true) :
    ∃ t live, Run (Sources.step noteRules) (Sources.Verified noteRules) s (notes session n) t ∧
      t.liveSource 1 session = some live ∧ Holds session n live ∧
      ∀ other, other ≠ session → t.liveSource 1 other = s.liveSource 1 other := by
  induction n with
  | zero => exact ⟨s, first, .nil, source, holds_of_empty session empty, fun _ _ => rfl⟩
  | succ n ih =>
    obtain ⟨t, live, run, found, holds, apart⟩ := ih (Nat.le_of_succ_le fits)
    obtain ⟨u, next, one, here, events, apart'⟩ := record_note (Nat.le_of_succ_le fits) found
      (by rw [holds.size]; exact fits)
      fun id known found => (holds.notes id known found).imp_left Nat.ne_of_lt
    refine ⟨u, next, ?_, here, ⟨?_, fun id known found => ?_⟩, fun other differs => ?_⟩
    · rw [notes, List.range_succ, List.map_append]
      exact run.append one
    · have absent : ¬live.events.contains n = true := by
        intro inside
        rw [ExtTreeMap.contains_iff_mem] at inside
        obtain ⟨known, found⟩ := Option.isSome_iff_exists.mp
          (ExtTreeMap.mem_iff_isSome_getElem?.mp inside)
        exact Nat.lt_irrefl n (holds.notes n known found).1
      rw [events, ExtTreeMap.size_insert, if_neg absent, holds.size]
    · rw [events, BTreeMap.find_insert] at found
      split at found
      · rename_i is
        cases found
        exact ⟨is ▸ Nat.lt_succ_self n, is ▸ rfl⟩
      · exact (holds.notes id known found).imp_left Nat.lt_succ_of_lt
    · rw [apart' other differs, apart other differs]

/-- The events one observation shows, over all of its relays. -/
def Sources.liveCount (s : Sources) (id : ObservationId) : Nat :=
  ((s.liveSnapshots id).map fun shown => shown.events.length).sum

theorem add_le_sum {α : Type} {f : α → Nat} {l : List α} {a b : α} (first : a ∈ l) (second : b ∈ l)
    (differ : a ≠ b) : f a + f b ≤ (l.map f).sum := by
  have inside : [a, b] ⊆ l := by simp [first, second]
  have distinct : [a, b].Nodup := by simpa using differ
  obtain ⟨pair, perm, sub⟩ := distinct.subperm inside
  calc
    f a + f b = (pair.map f).sum := by rw [(perm.map f).sum_eq]; simp
    _ ≤ (l.map f).sum := (sub.map f).sum_le_sum fun _ _ => Nat.zero_le _

/-- One of its relays fills its live source, and the other one brings a note more. -/
def twoRelaysFilled : List Call :=
  twoRelays ++ notes "wss://a" liveEventsPerSession ++ [.recordLiveEvent 1 (note "wss://b" 4096)]

/-- The room is that of each relay: the observation holds more. -/
theorem observation_holds_more :
    ∃ s, Run (Sources.step noteRules) (Sources.Verified noteRules) .start twoRelaysFilled s ∧
      liveEventsPerSession < s.liveCount 1 := by
  obtain ⟨s, start, checked⟩ := Run.of_any (show (exec (Sources.step noteRules)
    (Sources.Verified noteRules) .start twoRelays).any
      (fun s => (s.liveSource 1 "wss://a").any (·.events.isEmpty) &&
        (s.liveSource 1 "wss://b").any (·.events.isEmpty)) = true by decide +kernel)
  rw [Bool.and_eq_true, Option.any_eq_true, Option.any_eq_true] at checked
  obtain ⟨⟨first, source, empty⟩, second, source', empty'⟩ := checked
  obtain ⟨t, filled, run, found, holds, apart⟩ := run_notes (Nat.le_refl _) source empty
  rw [← apart "wss://b" (by decide)] at source'
  have nothing := holds_of_empty "wss://b" empty'
  obtain ⟨u, next, more, here, events, apart'⟩ := record_note (Nat.le_refl _) source'
    (by rw [nothing.size]; decide)
    fun id known found => absurd (nothing.notes id known found).1 (Nat.not_lt_zero id)
  rw [← apart' "wss://a" (by decide)] at found
  have grown : next.events.size = 1 := by
    have absent : ¬second.events.contains 4096 = true := by
      rw [ExtTreeMap.isEmpty_iff] at empty'
      rw [empty', ExtTreeMap.contains_empty]
      exact Bool.false_ne_true
    have count : next.events.size = second.events.size + 1 := by
      rw [events]
      exact ExtTreeMap.size_insert.trans (if_neg absent)
    rw [count, nothing.size]
  have differ : filled.snapshot "wss://a" ≠ next.snapshot "wss://b" := by
    intro same
    exact absurd (SourceKind.liveRelay.inj (congrArg SourceSnapshot.kind same)) (by decide)
  refine ⟨u, (start.append run).append more, ?_⟩
  have both := add_le_sum (f := fun shown : SourceSnapshot => shown.events.length)
    (mem_liveSnapshots.mpr ⟨_, _, found, rfl⟩) (mem_liveSnapshots.mpr ⟨_, _, here, rfl⟩)
    differ
  rw [length_snapshot, length_snapshot, holds.size, grown] at both
  exact both

end Samples

end Fava.Observe.Evidence
