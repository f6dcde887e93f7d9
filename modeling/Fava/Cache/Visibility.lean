import Fava.Cache.Invariant
import Fava.Lib.Run
import Fava.Queries.Evaluation

namespace Fava.Cache.CacheState

open Std Fava.Lib Fava.Nostr Fava.Relay Fava.State Fava.Queries Fava.Write

/-- What the cache shows to the queries. -/
def snapshot (s : CacheState) : SourceSnapshot :=
  ⟨.eventCache, s.revision, .isOpen, s.current.map .relay, s.retractions⟩

section Calls

variable (R : Rules) (capacity : Nat)

def step (s : CacheState) (c : Call) : Option CacheState :=
  match s.perform R capacity c with
  | (.ok (), next) => some next
  | (.error _, _) => none

/-- No copy of the event that another authority had no later is retained from its relay. -/
def Unopposed (s : CacheState) (e : RelayEvent) (now : Timestamp) : Prop :=
  ∀ known : RelayEvent, s.events[keyOf e]? = some known →
    eventIsExpired known.event.tags now = false →
      known.occurrence.authority = e.occurrence.authority ∨
        e.occurrence.observedAt < known.occurrence.observedAt

/-- The call leaves an event where it is, and brings no copy of it that another authority
had earlier. -/
def Spares (key : EventKey) (s : CacheState) (c : Call) : Prop :=
  (∀ next, s.step R capacity c = some next → key ∈ next.events) ∧
    ∀ e now, c = .admission e now → keyOf e = key → ∀ known : RelayEvent,
      s.events[key]? = some known → known.occurrence.authority = e.occurrence.authority ∨
        known.occurrence.observedAt ≤ e.occurrence.observedAt

end Calls

variable {R : Rules} {capacity : Nat} {s mid next : CacheState} {e known : RelayEvent}
  {key : EventKey} {now : Timestamp} {c : Call} {before after : List Call} {authority : Authority}
  {query : Query}

theorem perform_of_step (stepped : s.step R capacity c = some next) :
    s.perform R capacity c = (.ok (), next) := by
  unfold step at stepped
  split at stepped
  · rename_i done
    cases stepped
    exact done
  · cases stepped

theorem Tidy.step (tidy : s.Tidy R) (lawful : R.Lawful)
    (stepped : s.step R capacity c = some next) : next.Tidy R := by
  obtain ⟨now, sweeps, -⟩ | ⟨e, now, removed, -, admits⟩ :=
    tidy.perform lawful (perform_of_step stepped)
  · exact tidy.of_subset fun key known found => (sweeps.kept found).1
  · exact tidy.admits admits

theorem tidy_empty : empty.Tidy R := by
  have start : Watched.Invariant R 0 _ := Watched.Invariant.start
  exact start.tidy

/-- The authority an event is retained under. -/
def Under (s : CacheState) (key : EventKey) (authority : Authority) : Prop :=
  ∃ known : RelayEvent, s.events[key]? = some known ∧ known.occurrence.authority = authority

theorem Under.step (under : Under s key authority) (tidy : s.Tidy R) (lawful : R.Lawful)
    (spares : Spares R capacity key s c) (stepped : s.step R capacity c = some next) :
    Under next key authority := by
  obtain ⟨known, found, rfl⟩ := under
  obtain ⟨there, stays⟩ := find_of_mem (spares.1 next stepped)
  obtain ⟨now, sweeps, -⟩ | ⟨e, now, removed, rfl, admits⟩ :=
    tidy.perform lawful (perform_of_step stepped)
  · have before := (sweeps.kept stays).1
    rw [found] at before
    cases before
    exact ⟨known, stays, rfl⟩
  · by_cases here : key = keyOf e
    · subst here
      obtain ⟨put, earlier⟩ | ⟨retained, found', -, put⟩ := admits.puts.here
      · refine ⟨e, put, ?_⟩
        obtain same | later := spares.2 e now rfl rfl known found
        · exact same.symm
        · exact absurd (earlier known found) (Nat.not_lt_of_le later)
      · rw [found] at found'
        cases found'
        exact ⟨known, put, rfl⟩
    · have before := (admits.kept stays here).1
      rw [found] at before
      cases before
      exact ⟨known, stays, rfl⟩

/-- An event that is there after its admission is there under the authority it came
under, unless another one had it no later. -/
theorem under_of_admitted (tidy : s.Tidy R) (lawful : R.Lawful) (verified : R.verify e.event = .ok ())
    (unopposed : Unopposed s e now) (stepped : s.step R capacity (.admission e now) = some next)
    (present : keyOf e ∈ next.events) : Under next (keyOf e) e.occurrence.authority := by
  obtain ⟨now', sweeps, refused⟩ | ⟨e', now', removed, is, admits⟩ :=
    tidy.perform lawful (perform_of_step stepped)
  · obtain ⟨rfl, refused⟩ := refused e now rfl
    obtain ⟨known, stays⟩ := find_of_mem present
    obtain ⟨found, live⟩ := sweeps.kept stays
    obtain same | later := unopposed known found live
    · exact ⟨known, stays, same⟩
    · have earlier := refused.earlier tidy lawful verified found live
      exact absurd later (Nat.not_lt_of_le earlier)
  · cases is
    obtain ⟨put, -⟩ | ⟨retained, found, earlier, put⟩ := admits.puts.here
    · exact ⟨e, put, rfl⟩
    · have id : retained.event.id = e.event.id := congrArg EventKey.id (tidy.keyed _ _ found)
      have live := admits.due
      rw [← lawful.expired_eq (tidy.verified _ _ found) verified id] at live
      exact ⟨retained, put, (unopposed retained found live).resolve_right (Nat.not_lt_of_le earlier)⟩

theorem under_of_run (lawful : R.Lawful) (reached : Run (step R capacity) Free empty before s)
    (verified : R.verify e.event = .ok ()) (unopposed : Unopposed s e now)
    (stepped : s.step R capacity (.admission e now) = some mid) (present : keyOf e ∈ mid.events)
    (kept : Run (step R capacity) (Spares R capacity (keyOf e)) mid after next) :
    next.Tidy R ∧ Under next (keyOf e) e.occurrence.authority := by
  have tidy : s.Tidy R := reached.invariant (Tidy R) tidy_empty fun _ _ _ tidy _ stepped =>
    tidy.step lawful stepped
  refine kept.invariant (fun s => s.Tidy R ∧ Under s (keyOf e) e.occurrence.authority)
    ⟨tidy.step lawful stepped, under_of_admitted tidy lawful verified unopposed stepped present⟩ ?_
  exact fun _ _ _ ⟨tidy, under⟩ spares stepped =>
    ⟨tidy.step lawful stepped, under.step tidy lawful spares stepped⟩

theorem mem_offered {contribution : SourceEvent} : contribution ∈ offered query [s.snapshot] ↔
    ∃ known ∈ s.current, .relay known = contribution ∧ relayQualifies query known = true := by
  have all : contributions [s.snapshot] = s.current.map .relay := List.append_nil _
  rw [offered, all, List.mem_filter, List.mem_map]
  constructor
  · rintro ⟨⟨known, here, rfl⟩, qualifies⟩
    exact ⟨known, here, rfl, qualifies⟩
  · rintro ⟨known, here, rfl, qualifies⟩
    exact ⟨⟨known, here, rfl⟩, qualifies⟩

theorem sameBody_of_sig {a b : Event} (same : ∃ sig, b = { a with sig := sig }) :
    SameBody (.signed a) (.signed b) := by
  obtain ⟨sig, rfl⟩ := same
  exact ⟨rfl, rfl, rfl, rfl⟩

/-- What the cache retains is verified, so its identifiers are digests. -/
theorem Tidy.digested (tidy : s.Tidy R) (lawful : R.Lawful) :
    Digested (offered query [s.snapshot]) := by
  constructor
  · intro c here
    obtain ⟨known, -, rfl, -⟩ := mem_offered.mp here
    rfl
  · intro c here d here' same
    obtain ⟨known, listed, rfl, -⟩ := mem_offered.mp here
    obtain ⟨other, listed', rfl, -⟩ := mem_offered.mp here'
    exact sameBody_of_sig (lawful.eq_of_id (tidy.verified _ _ (tidy.mem_current.mp listed))
      (tidy.verified _ _ (tidy.mem_current.mp listed')) same)

/-- A query under the authority of a retained event, with nothing newer in its sight, finds
it. -/
theorem Tidy.returns (tidy : s.Tidy R) (lawful : R.Lawful) (here : known ∈ s.current)
    (qualifies : relayQualifies query known = true)
    (selected : matchesSelection query.selection known.event.id (.signed known.event) = true)
    (newest : ∀ other ∈ s.current, relayQualifies query other = true →
      coordinateOf R other.event = coordinateOf R known.event → other.newer known = false) :
    ∃ all, evaluateAll R.toLibrary query [s.snapshot] = .ok all ∧
      ∃ record ∈ all, record.id = known.event.id ∧ SameBody (.signed known.event) record.event := by
  have digested : Digested (offered query [s.snapshot]) := tidy.digested lawful
  have offer : .relay known ∈ offered query [s.snapshot] :=
    mem_offered.mpr ⟨known, here, rfl, qualifies⟩
  obtain ⟨all, h⟩ := digested.evaluateAll_total (N := R.toLibrary)
  obtain ⟨records, merged, chosen⟩ := evaluateAll_eq_ok h
  obtain ⟨record, listed, same⟩ := merged.exists_record offer
  refine ⟨all, h, record, (digested.wins_iff merged chosen offer listed same.symm).mpr ?_, same,
    digested.same_body merged listed offer same.symm⟩
  refine ⟨offer, selected, fun d offer' _ rivals => ?_⟩
  obtain ⟨other, listed', rfl, qualifies'⟩ := mem_offered.mp offer'
  by_cases id : other.event.id = known.event.id
  · exact .inl id
  · exact .inr (newer_total id (newest other listed' qualifies' rivals))

/-- An event that was admitted, and never went since, is returned to the queries of its own
authority, unless its relay had handed a copy to another authority no later, or did so
earlier by its clock. -/
theorem admitted_visible (lawful : R.Lawful)
    (reached : Run (step R capacity) Free empty before s)
    (verified : R.verify e.event = .ok ()) (unopposed : Unopposed s e now)
    (admitted : s.step R capacity (.admission e now) = some mid) (present : keyOf e ∈ mid.events)
    (kept : Run (step R capacity) (Spares R capacity (keyOf e)) mid after next)
    (query : Query) (access : query.access = e.occurrence.authority)
    (source : query.authority = .anyLocal ∨
      ∃ relays, query.authority = .onlyRelays relays ∧ e.occurrence.session ∈ relays)
    (something : query.matchesNothing = false)
    (selected : matchesSelection query.selection e.event.id (.signed e.event) = true)
    (newest : ∀ other ∈ next.current, relayQualifies query other = true →
      coordinateOf R other.event = coordinateOf R e.event → other.newer e = false) :
    ∃ whole, evaluate R.toLibrary query.unlimited [next.snapshot] = .ok whole ∧
      (∃ record ∈ whole.events, record.id = e.event.id ∧ SameBody (.signed e.event) record.event) ∧
      evaluate R.toLibrary query [next.snapshot] =
        .ok { whole with events := truncate query.limit whole.events } := by
  obtain ⟨tidy, known, found, authority⟩ := under_of_run lawful reached verified unopposed admitted
    present kept
  have keyed := tidy.keyed _ _ found
  have alike := lawful.eq_of_id (tidy.verified _ _ found) verified (congrArg EventKey.id keyed)
  have body : SameBody (.signed known.event) (.signed e.event) := sameBody_of_sig alike
  have id : known.event.id = e.event.id := congrArg EventKey.id keyed
  have time : known.event.createdAt = e.event.createdAt := body.2.2.1
  have coordinate : coordinateOf R known.event = coordinateOf R e.event :=
    lawful.coordinate_eq (tidy.verified _ _ found) verified id
  rw [← keyed] at found
  have qualifies : relayQualifies query known = true := by
    have session : known.occurrence.session = e.occurrence.session := congrArg EventKey.session keyed
    unfold relayQualifies
    rw [authority, access, session]
    obtain is | ⟨relays, is, listed⟩ := source
    · simp [is]
    · simp [is, ExtTreeSet.contains_iff_mem, listed]
  obtain ⟨all, h, record, listed, same', body'⟩ :=
    tidy.returns lawful (tidy.mem_current.mpr found) qualifies
      (by rw [id, matchesSelection_congr body]; exact selected) fun other here visible rivals => by
        rw [← newest other here visible (rivals.trans coordinate), RelayEvent.newer, RelayEvent.newer,
          id, time]
  refine ⟨_, evaluate_unlimited something h, ⟨record, listed, same'.trans id, ?_⟩,
    (evaluate_eq_ok something).mpr ⟨all, h, rfl⟩⟩
  obtain ⟨sig, is⟩ := alike
  rw [is]
  exact body'

section Samples

def sharedMessage : Event := ⟨41, 7, 20, 1, [], "", 1⟩

/-- The message as a relay handed it to one account. -/
def handed (account : PublicKey) (observedAt : Timestamp) : RelayEvent :=
  ⟨sharedMessage, ⟨"wss://relay.example", .asAccount account, observedAt⟩⟩

def accountQuery (account : PublicKey) : Query := { Query.events with access := .asAccount account }

/-- The second account takes the message from the first. -/
theorem admitted_lost_to_second_account : ∃ mid next : CacheState,
    step (listedRules [sharedMessage]) 4 empty (.admission (handed 1 100) 100) = some mid ∧
      keyOf (handed 1 100) ∈ mid.events ∧
      step (listedRules [sharedMessage]) 4 mid (.admission (handed 2 90) 101) = some next ∧
      keyOf (handed 1 100) ∈ next.events ∧
      (evaluate (listedRules [sharedMessage]).toLibrary (accountQuery 1)
        [next.snapshot]).toOption.map (fun result => result.events.map (·.id)) = some [] := by
  have computed : ((step (listedRules [sharedMessage]) 4 empty (.admission (handed 1 100) 100)).any
      fun mid => decide (keyOf (handed 1 100) ∈ mid.events) &&
        (step (listedRules [sharedMessage]) 4 mid (.admission (handed 2 90) 101)).any fun next =>
          decide (keyOf (handed 1 100) ∈ next.events) &&
            decide ((evaluate (listedRules [sharedMessage]).toLibrary (accountQuery 1)
              [next.snapshot]).toOption.map (fun result => result.events.map (·.id)) = some [])) =
      true := by
    decide +kernel
  obtain ⟨mid, first, computed⟩ := (Option.any_eq_true _ _).mp computed
  rw [Bool.and_eq_true, decide_eq_true_eq] at computed
  obtain ⟨present, computed⟩ := computed
  obtain ⟨next, second, computed⟩ := (Option.any_eq_true _ _).mp computed
  rw [Bool.and_eq_true, decide_eq_true_eq, decide_eq_true_eq] at computed
  exact ⟨mid, next, first, present, second, computed.1, computed.2⟩

theorem admitted_visible_message : ∃ mid next : CacheState,
    step (listedRules [sharedMessage]) 4 empty (.admission (handed 1 100) 100) = some mid ∧
      step (listedRules [sharedMessage]) 4 mid (.admission (handed 2 110) 111) = some next ∧
      ∃ whole, evaluate (listedRules [sharedMessage]).toLibrary (accountQuery 1).unlimited
        [next.snapshot] = .ok whole ∧ ∃ record ∈ whole.events, record.id = 41 := by
  have lawful : (listedRules [sharedMessage]).Lawful := listedRules_lawful (by decide)
  have computed : ((step (listedRules [sharedMessage]) 4 empty (.admission (handed 1 100) 100)).any
      fun mid => decide (keyOf (handed 1 100) ∈ mid.events) &&
        (mid.events[keyOf (handed 2 110)]?.all fun known => known.occurrence.observedAt ≤ 110) &&
        (step (listedRules [sharedMessage]) 4 mid (.admission (handed 2 110) 111)).any fun next =>
          decide (keyOf (handed 1 100) ∈ next.events) &&
            next.current.all fun other => !other.newer (handed 1 100)) = true := by
    decide +kernel
  obtain ⟨mid, first, computed⟩ := (Option.any_eq_true _ _).mp computed
  simp only [Bool.and_eq_true, decide_eq_true_eq] at computed
  obtain ⟨⟨present, later⟩, computed⟩ := computed
  obtain ⟨next, second, computed⟩ := (Option.any_eq_true _ _).mp computed
  rw [Bool.and_eq_true, decide_eq_true_eq, List.all_eq_true] at computed
  have kept : Run (step (listedRules [sharedMessage]) 4)
      (Spares (listedRules [sharedMessage]) 4 (keyOf (handed 1 100))) mid
      ([] ++ [.admission (handed 2 110) 111]) next := by
    refine .snoc .nil ⟨fun next' stepped => ?_, ?_⟩ second
    · rw [second] at stepped
      cases stepped
      exact computed.1
    · rintro e now is - known found
      cases is
      rw [show keyOf (handed 1 100) = keyOf (handed 2 110) from rfl] at found
      rw [found] at later
      exact .inr (of_decide_eq_true later)
  have start : Unopposed empty (handed 1 100) 100 := by
    intro known found
    rw [empty, ExtTreeMap.getElem?_empty] at found
    cases found
  obtain ⟨whole, evaluated, ⟨record, listed, id, -⟩, -⟩ := admitted_visible lawful .nil rfl start first
    present kept (accountQuery 1) rfl (.inl rfl) (by decide +kernel) (by decide +kernel)
    fun other here _ _ => by simpa using computed.2 other here
  exact ⟨mid, next, first, second, whole, evaluated, record, listed, id⟩

end Samples

end Fava.Cache.CacheState
