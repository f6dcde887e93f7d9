import Fava.Cache.Invariant
import Fava.Cache.Reload

namespace Fava.Cache

open Std Fava.Lib Fava.Nostr Fava.State

/-- What is asked of an event cache, of either kind. -/
inductive Operation
  | admission (event : RelayEvent) (now : Timestamp)
  | expire (now : Timestamp)
  | commit (mutations : List EventStateMutation)
  | transact (decide : List RelayEvent → List EventStateMutation)
  | reopen

section Operations

variable (R : Rules) (capacity : Nat)

/-- What fails leaves the cache as it was; there is nothing to open again. -/
def CacheState.operate (s : CacheState) : Operation → Except EventCacheError Unit × CacheState
  | .admission event now => s.perform R capacity (.admission event now)
  | .expire now => s.perform R capacity (.expiration now)
  | .commit mutations =>
    match s.commit R capacity mutations with
    | .ok next => (.ok (), next)
    | .error error => (.error error, s)
  | .transact decide =>
    match s.transact R capacity decide with
    | .ok (_, next) => (.ok (), next)
    | .error error => (.error error, s)
  | .reopen => (.ok (), s)

def RedbEventCache.operate (c : RedbEventCache) :
    Operation → Except EventCacheError Unit × RedbEventCache
  | .admission event now => c.admitEvent R capacity event now
  | .expire now => c.expire R capacity now
  | .commit mutations => c.commit R capacity mutations
  | .transact decide => c.transact R capacity decide
  | .reopen => (.ok (), c.reopen)

/-- The two caches side by side. -/
structure Caches where
  memory : CacheState
  durable : RedbEventCache

def Caches.start : Caches := ⟨.empty, .openBounded ∅⟩

def Caches.operate (p : Caches) (op : Operation) : Caches :=
  ⟨(p.memory.operate R capacity op).2, (p.durable.operate R capacity op).2⟩

/-- The batch of an operation, as far as the caller makes it. -/
def Operation.batch (s : CacheState) : Operation → List EventStateMutation
  | .commit mutations => mutations
  | .transact decide => decide s.current
  | .admission _ _ | .expire _ | .reopen => []

/-- The revisions do not run out, and a batch the caller made does not put in again what it
takes out. -/
def Caches.Meets (p : Caches) (op : Operation) : Prop :=
  p.memory.revision < 2 ^ 64 - 1 ∧ Apart R p.memory (op.batch p.memory)

end Operations

variable {R : Rules} {capacity : Nat} {m next : CacheState} {c : RedbEventCache} {p : Caches}
  {mutations : List EventStateMutation} {events : List RelayEvent} {e : RelayEvent}
  {now : Timestamp} {a b : AppliedMutations}

theorem CacheState.upserts_revision (ok : m.upserts R capacity events = .ok next) :
    next.revision = m.revision := by
  induction events generalizing m with
  | nil =>
    cases ok
    rfl
  | cons incoming rest ih =>
    obtain ⟨mid, put, later⟩ := CacheState.upserts_cons ok
    have first : mid.revision = m.revision := by
      obtain ⟨-, ⟨_, -, ⟨-, rfl⟩ | ⟨-, rfl⟩⟩ | ⟨-, ⟨-, rfl⟩ | ⟨-, -, _, -, rfl⟩⟩⟩ :=
        CacheState.upsert_cases put <;> rfl
    exact (ih later).trans first

theorem CacheState.apply_revision (ok : m.apply R capacity mutations = .ok next) :
    next.revision = m.revision := by
  obtain ⟨put, done, is⟩ := bind_eq_ok.mp ok
  obtain ⟨removed, drops, -⟩ := CacheState.drops_foldl { m with retractions := [] } mutations
  obtain rfl := Except.ok.inj is
  have revision := (CacheState.upserts_revision done).trans drops.revision
  split <;> exact revision

theorem AppliedMutations.retract_revision :
    (mutations.foldl AppliedMutations.retract a).next.revision = a.next.revision := by
  induction mutations generalizing a with
  | nil => rfl
  | cons mutation rest ih =>
    rw [List.foldl_cons, ih]
    cases mutation with
    | retract id session cause =>
      change (if a.next.events.contains ⟨id, session⟩ then a.remove ⟨id, session⟩ cause
        else a).next.revision = _
      split <;> rfl
    | upsert incoming => rfl

theorem RedbEventCache.apply_revision (ok : RedbEventCache.apply R capacity m mutations = .ok a) :
    a.next.revision = m.revision := by
  obtain ⟨put, done, is⟩ := bind_eq_ok.mp ok
  obtain rfl := Except.ok.inj is
  have start : (mutations.foldl AppliedMutations.retract
      ⟨{ m with retractions := [] }, [], []⟩).next.revision = m.revision :=
    AppliedMutations.retract_revision
  have revision := AppliedMutations.upserts_induction (P := fun a => a.next.revision = m.revision) start
    (fun a b incoming _ same ok => by
      obtain ⟨-, ⟨-, rfl | rfl⟩ | ⟨-, ⟨-, rfl⟩ | ⟨-, -, _, -, rfl⟩⟩⟩ :=
        AppliedMutations.upsert_cases ok <;> exact same) done
  split <;> exact revision

/-- The durable cache has what the other one has, in memory and on disk. -/
structure Mirrors (R : Rules) (m : CacheState) (c : RedbEventCache) : Prop where
  events : c.state.events = m.events
  rows : c.rows = m.events
  revision : c.state.revision ≤ m.revision
  tidy : Keyed R m.events

theorem current_congr {s : CacheState} (same : s.events = m.events) : s.current = m.current := by
  unfold CacheState.current
  rw [same]

variable (capacity) in
/-- The two answer a batch alike, and have the same afterwards. -/
theorem Mirrors.commit (mirrors : Mirrors R m c) (lawful : R.Lawful)
    (room : m.revision < 2 ^ 64 - 1) (apart : Apart R m mutations) :
    (∃ error, m.commit R capacity mutations = .error error ∧
        c.commit R capacity mutations = (.error error, c)) ∨
      ∃ next c', m.commit R capacity mutations = .ok next ∧
        c.commit R capacity mutations = (.ok (), c') ∧ Mirrors R next c' := by
  have both : (RedbEventCache.apply R capacity c.state mutations).map (·.next.events) =
      (m.apply R capacity mutations).map (·.events) := RedbEventCache.apply_events mirrors.events
  unfold CacheState.commit RedbEventCache.commit
  cases left : RedbEventCache.apply R capacity c.state mutations with
  | error error =>
    cases right : m.apply R capacity mutations with
    | error error' =>
      rw [left, right] at both
      obtain rfl : error = error' := Except.error.inj both
      exact .inl ⟨error, rfl, rfl⟩
    | ok next =>
      rw [left, right] at both
      cases both
  | ok a =>
    cases right : m.apply R capacity mutations with
    | error error =>
      rw [left, right] at both
      cases both
    | ok next =>
      rw [left, right] at both
      have same : a.next.events = next.events := Except.ok.inj both
      have apart' : Apart R c.state mutations := by
        unfold Apart
        rw [mirrors.events]
        exact apart
      have tidy := mirrors.tidy
      rw [← mirrors.events] at tidy
      obtain ⟨tidy, rows⟩ := apply_rows tidy lawful apart' left
      rw [same] at tidy
      rw [mirrors.events, ← mirrors.rows, same] at rows
      have kept := CacheState.apply_revision right
      have kept' := RedbEventCache.apply_revision left
      have published : CacheState.publish next = .ok { next with revision := next.revision + 1 } := by
        rw [← kept] at room
        exact if_pos room
      by_cases nothing : a.inserted = [] ∧ a.removed = []
      · refine .inr ⟨_, c, published, if_pos nothing, ?_⟩
        rw [nothing.1, nothing.2] at rows
        have rows : c.rows = next.events := rows
        refine ⟨mirrors.events.trans (mirrors.rows.symm.trans rows), rows, ?_, tidy⟩
        exact mirrors.revision.trans (kept.symm.le.trans (Nat.le_succ _))
      · have room' : a.next.revision < 2 ^ 64 - 1 := by
          rw [kept']
          exact mirrors.revision.trans_lt room
        refine .inr ⟨_, _, published, (if_neg nothing).trans (if_pos room'), same, rows, ?_, tidy⟩
        change a.next.revision + 1 ≤ next.revision + 1
        rw [kept, kept']
        exact Nat.succ_le_succ mirrors.revision

variable (capacity) in
theorem Mirrors.transact (mirrors : Mirrors R m c) (lawful : R.Lawful)
    (room : m.revision < 2 ^ 64 - 1) {decide : List RelayEvent → List EventStateMutation}
    (apart : Apart R m (decide m.current)) :
    (∃ error, m.transact R capacity decide = .error error ∧
        c.transact R capacity decide = (.error error, c)) ∨
      ∃ count next c', m.transact R capacity decide = .ok (count, next) ∧
        c.transact R capacity decide = (.ok (), c') ∧ Mirrors R next c' := by
  unfold CacheState.transact RedbEventCache.transact
  rw [current_congr mirrors.events]
  cases batch : decide m.current with
  | nil => exact .inr ⟨0, m, c, rfl, rfl, mirrors⟩
  | cons mutation rest =>
    rw [batch] at apart
    obtain ⟨error, first, second⟩ | ⟨next, c', first, second, after⟩ :=
      mirrors.commit capacity lawful room apart
    · refine .inl ⟨error, ?_, second⟩
      change (m.commit R capacity (mutation :: rest)).map _ = _
      rw [first]
      rfl
    · refine .inr ⟨(mutation :: rest).length, next, c', ?_, second, after⟩
      change (m.commit R capacity (mutation :: rest)).map _ = _
      rw [first]
      rfl

theorem apart_of_retracts (retracts : mutations.filterMap CacheState.incoming = []) :
    Apart R m mutations := by
  intro e listed
  rw [← mem_incoming, retracts] at listed
  cases listed

/-- An admission does not put in what it takes out. -/
theorem apart_of_admission (tidy : Keyed R m.events) (lawful : R.Lawful) :
    Apart R m (CacheState.decideAdmission R e now m.current) := by
  intro incoming listed verified here cause named
  have found := ExtTreeMap.mem_iff_isSome_getElem?.mp here
  obtain ⟨known, found⟩ := Option.isSome_iff_exists.mp found
  -- Whatever is retained under the key of the event is a copy of it.
  have copy : ∀ other ∈ m.current, other.event.id = incoming.event.id →
      R.verify other.event = .ok () := by
    intro other listed _
    obtain ⟨key, found⟩ := CacheState.mem_current.mp listed
    exact tidy.verified key other found
  have retracted : ∀ {out : List RelayEvent} {cause' : RetractionCause},
      EventStateMutation.retract incoming.event.id incoming.occurrence.session cause ∈
        out.map (·.retract cause') → ∃ other ∈ out, other.event.id = incoming.event.id := by
    intro out cause' named
    obtain ⟨other, listed, is⟩ := List.mem_map.mp named
    obtain ⟨id, -, -⟩ := EventStateMutation.retract.inj is
    exact ⟨other, listed, id⟩
  have put : ∀ {out : List RelayEvent} {cause' : RetractionCause},
      EventStateMutation.upsert incoming ∉ out.map (·.retract cause') := by
    intro out cause' listed
    obtain ⟨_, -, is⟩ := List.mem_map.mp listed
    cases is
  have decided : CacheState.decideAdmission R e now m.current =
    mutationsForExpiration m.current now ++ mutationsForEvent R (m.live now) e now := rfl
  rw [decided] at listed named
  have listed := (List.mem_append.mp listed).resolve_left put
  have outcome := mutationsForEvent_outcome R (m.live now) e now
  generalize mutationsForEvent R (m.live now) e now = mutations at outcome listed named
  have live : ∀ other ∈ m.live now, other ∈ m.current := fun other listed => List.mem_of_mem_filter listed
  have conflict : ∀ (out : List RelayEvent) (cause' : RetractionCause),
      mutations = out.map (·.retract cause') ++ [.upsert e] →
      Admissible R (m.live now) e now →
      (∀ other ∈ out, other ∈ m.live now ∧
        (deletionApplies R e.event other.event = true ∨ other.event.id ≠ e.event.id)) → False := by
    rintro out cause' rfl admissible why
    obtain rfl : incoming = e := by
      have last := (List.mem_append.mp listed).resolve_left put
      exact EventStateMutation.upsert.inj (List.mem_singleton.mp last)
    obtain expired | named := List.mem_append.mp named
    · obtain ⟨other, listed', id⟩ := retracted expired
      obtain ⟨held, due⟩ := List.mem_filter.mp listed'
      rw [lawful.expired_eq (copy other held id) verified id, admissible.1] at due
      cases due
    · obtain named | last := List.mem_append.mp named
      · obtain ⟨other, listed', id⟩ := retracted named
        obtain ⟨held, deletes | differs⟩ := why other listed'
        · obtain ⟨kind, target, -⟩ := kind_of_deletes deletes
          exact target ((lawful.kind_eq (copy other (live other held) id) verified id).trans kind)
        · exact differs id
      · cases List.mem_singleton.mp last
  cases outcome with
  | expired due => cases listed
  | deleted known here deletes => cases listed
  | seen known here id session earlier => cases listed
  | older known here rivals fresh loses => cases listed
  | deletion admissible kind out taken =>
    exact conflict out _ rfl admissible fun other listed =>
      ⟨((taken other).mp listed).1, .inl ((taken other).mp listed).2⟩
  | refresh admissible kind known here id session later => exact conflict [] .expired rfl admissible nofun
  | replace admissible kind fresh newest out taken =>
    refine conflict out _ rfl admissible fun other listed => ?_
    obtain ⟨here, session, -⟩ := (taken other).mp listed
    exact ⟨here, .inr fun id => fresh other here id session⟩
  | plain admissible kind fresh id coordinate => exact conflict [] .expired rfl admissible nofun

theorem operate_admission : m.operate R capacity (.admission e now) =
    m.operate R capacity (.transact (CacheState.decideAdmission R e now)) := by
  simp only [CacheState.operate, CacheState.perform, CacheState.admitEvent]
  cases m.transact R capacity (CacheState.decideAdmission R e now) <;> rfl

theorem Mirrors.operate_transact (mirrors : Mirrors R m c) (lawful : R.Lawful)
    {decide : List RelayEvent → List EventStateMutation} (room : m.revision < 2 ^ 64 - 1)
    (apart : Apart R m (decide m.current)) :
    (m.operate R capacity (.transact decide)).1 = (c.operate R capacity (.transact decide)).1 ∧
      Mirrors R (m.operate R capacity (.transact decide)).2
        (c.operate R capacity (.transact decide)).2 := by
  obtain ⟨error, first, second⟩ | ⟨count, next, c', first, second, after⟩ :=
    mirrors.transact capacity lawful room apart
  · simp only [CacheState.operate, RedbEventCache.operate, first, second]
    exact ⟨trivial, mirrors⟩
  · simp only [CacheState.operate, RedbEventCache.operate, first, second]
    exact ⟨trivial, after⟩

/-- An operation is answered alike, and what is alike stays so. -/
theorem Mirrors.operate (mirrors : Mirrors R m c) (lawful : R.Lawful) {op : Operation}
    (meets : Caches.Meets R ⟨m, c⟩ op) :
    (m.operate R capacity op).1 = (c.operate R capacity op).1 ∧
      Mirrors R (m.operate R capacity op).2 (c.operate R capacity op).2 := by
  obtain ⟨room, apart⟩ := meets
  cases op with
  | admission event now =>
    rw [operate_admission]
    exact mirrors.operate_transact lawful room (apart_of_admission mirrors.tidy lawful)
  | expire now =>
    exact mirrors.operate_transact lawful room
      (apart_of_retracts CacheState.incoming_retracts)
  | commit mutations =>
    have apart : Apart R m mutations := apart
    obtain ⟨error, first, second⟩ | ⟨next, c', first, second, after⟩ :=
      mirrors.commit capacity lawful room apart
    · simp only [CacheState.operate, RedbEventCache.operate, first, second]
      exact ⟨trivial, mirrors⟩
    · simp only [CacheState.operate, RedbEventCache.operate, first, second]
      exact ⟨trivial, after⟩
  | transact decide => exact mirrors.operate_transact lawful room apart
  | reopen =>
    have loaded : load c.rows = m.events := by
      rw [mirrors.rows]
      exact load_eq mirrors.tidy
    exact ⟨rfl, loaded, mirrors.rows, Nat.zero_le _, mirrors.tidy⟩

theorem mirrors_start : Mirrors R Caches.start.memory Caches.start.durable :=
  ⟨load_eq (R := R) keyed_empty, rfl, Nat.le_refl 0, keyed_empty⟩

/-- In a run whose batches put in nothing that they take out, the durable cache answers and
retains as the other one does, before and after it is opened again. -/
theorem durable_refines_memory (lawful : R.Lawful) {ops : List Operation}
    (run : Run (fun (p : Caches) op => some (p.operate R capacity op)) (Caches.Meets R) Caches.start
      ops p) :
    p.durable.state.events = p.memory.events ∧ p.durable.reopen.state.events = p.memory.events ∧
      ∀ op, p.Meets R op →
        (p.durable.operate R capacity op).1 = (p.memory.operate R capacity op).1 := by
  have mirrors : Mirrors R p.memory p.durable := by
    refine run.invariant (fun p => Mirrors R p.memory p.durable) mirrors_start ?_
    rintro p op _ mirrors meets stepped
    cases stepped
    exact (mirrors.operate lawful meets).2
  refine ⟨mirrors.events, ?_, fun op meets => (mirrors.operate lawful meets).1.symm⟩
  change load p.durable.rows = p.memory.events
  rw [mirrors.rows]
  exact load_eq mirrors.tidy

section Samples

/-- What a caller makes of a note: taken out, and put in again. -/
def renewal : List EventStateMutation :=
  [.retract 31 "wss://relay.example" .expired, .upsert CacheState.firstContacts]

/-- The rows of what a batch renews are gone. -/
theorem renewed_event_lost_by_reopening :
    let R := listedRules [CacheState.firstContacts.event]
    let p := (((Caches.start.operate R 2 (.commit [.upsert CacheState.firstContacts])).operate R 2
      (.commit renewal)).operate R 2 .reopen)
    p.memory.events.size = 1 ∧ p.durable.state.events.size = 0 := by
  decide +kernel

theorem durable_refines_memory_contacts : ∃ p : Caches,
    p.durable.reopen.state.events = p.memory.events ∧ p.memory.events.size = 1 := by
  have lawful : (listedRules [CacheState.firstContacts.event]).Lawful :=
    listedRules_lawful (by decide)
  have run : Run (fun (p : Caches) op => some (p.operate (listedRules [CacheState.firstContacts.event]) 2 op))
      (Caches.Meets (listedRules [CacheState.firstContacts.event])) Caches.start
      ([] ++ [.commit [.upsert CacheState.firstContacts]])
      (Caches.start.operate (listedRules [CacheState.firstContacts.event]) 2
        (.commit [.upsert CacheState.firstContacts])) := by
    refine .snoc .nil ⟨by decide, fun _ _ _ _ _ listed => ?_⟩ rfl
    cases List.mem_singleton.mp listed
  obtain ⟨-, reopened, -⟩ := durable_refines_memory lawful run
  exact ⟨_, reopened, by decide +kernel⟩

end Samples

end Fava.Cache
