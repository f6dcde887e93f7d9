import Fava.Runtime.Accounting

namespace Fava.Runtime

open Std Fava.Lib

namespace Inner

variable {s t u : Inner} {config : RuntimeConfig} {actions later : List Action} {index : Nat}
  {shutdown : Shutdown}

/-- Shutdown has begun, and no call got past the check before it. -/
structure Sealed (s : Inner) : Prop where
  down : s.shuttingDown = true
  empty : s.registry = ∅
  late : ∀ call ∈ s.calls, call.stage ≠ .locking ∧ ∀ ordinal, call.stage ≠ .inserting ordinal

/-- Past its first store, a shutdown has the flag up. -/
def Raised (s : Inner) : Prop :=
  ∀ shutdown ∈ s.shutdowns, shutdown.stage = .storing ∨ s.shuttingDown = true

theorem Moved.late {call : Call} {next : Option Call} (moved : Moved s call next)
    (down : s.shuttingDown = true) (other : Call) (is : next = some other) : other.stage ≠ .locking := by
  cases moved with
  | refusedSlot => cases is
  | reserves =>
    cases is
    exact nofun
  | refused =>
    unfold Inner.refused at is
    split at is <;> cases is
    exact nofun
  | checked stage up =>
    rw [down] at up
    cases up

/-- Once it is sealed, the runtime starts no task any more and its registry stays empty. -/
theorem Sealed.step (isSealed : Sealed s) (stepped : Stepped s t) :
    Sealed t ∧ t.tasks.length = s.tasks.length := by
  obtain ⟨down, empty, late⟩ := isSealed
  cases stepped with
  | @began call fresh =>
    refine ⟨⟨down, empty, List.forall_mem_append.mpr ⟨late, List.forall_mem_singleton.mpr ?_⟩⟩, rfl⟩
    obtain ⟨-, stage⟩ | ⟨-, stage⟩ := fresh <;> rw [stage] <;> exact ⟨nofun, nofun⟩
  | @moved index call next found moved =>
    exact ⟨⟨down, empty, forall_mem_proceed late found fun other is =>
      ⟨moved.late down other is, moved.quiet.2 other is⟩⟩, rfl⟩
  | counted found stage =>
    refine ⟨⟨down, empty, ?_⟩, rfl⟩
    show ∀ other ∈ proceed s.calls _ (some _), _
    refine forall_mem_proceed late found fun other is => ?_
    cases is
    dsimp only
    split <;> exact ⟨nofun, nofun⟩
  | yielded found stage =>
    refine ⟨⟨down, empty, ?_⟩, rfl⟩
    show ∀ other ∈ proceed s.calls _ none, _
    exact forall_mem_proceed late found fun other is => by cases is
  | spawned found stage => exact absurd stage (late _ (List.mem_of_getElem? found)).1
  | inserted found stage => exact absurd stage ((late _ (List.mem_of_getElem? found)).2 _)
  | released =>
    split <;> exact ⟨⟨down, empty, late⟩, List.length_set⟩
  | @finished ordinal task found released free =>
    refine ⟨⟨down, ?_, late⟩, List.length_set⟩
    show s.registry.erase ordinal = ∅
    rw [empty]
    exact BTreeMap.erase_of_not_mem ExtTreeMap.not_mem_empty
  | answered | reaped | expired => exact ⟨⟨down, empty, late⟩, List.length_set⟩
  | took => exact ⟨⟨down, rfl, late⟩, rfl⟩
  | stored => exact ⟨⟨rfl, empty, late⟩, rfl⟩
  | stopped | cancelled | joined => exact ⟨⟨down, empty, late⟩, rfl⟩

theorem Raised.step (raised : Raised s) (stepped : Stepped s t) : Raised t := by
  have set : ∀ {index : Nat} {next : Shutdown}, s.shuttingDown = true →
      ∀ other ∈ s.shutdowns.set index next, other.stage = .storing ∨ s.shuttingDown = true :=
    fun down _ _ => .inr down
  have past : ∀ {index : Nat} {shutdown : Shutdown}, s.shutdowns[index]? = some shutdown →
      shutdown.stage ≠ .storing → s.shuttingDown = true := by
    intro index shutdown found later
    exact (raised shutdown (List.mem_of_getElem? found)).resolve_left later
  cases stepped with
  | stopped => exact List.forall_mem_append.mpr ⟨raised, List.forall_mem_singleton.mpr (.inl rfl)⟩
  | stored => exact fun _ _ => .inr rfl
  | cancelled found stage => exact set (past found (by rw [stage]; exact nofun))
  | took found stage => exact set (past found (by rw [stage]; exact nofun))
  | expired found stage => exact set (past found (by rw [stage]; exact nofun))
  | joined found joined =>
    refine set (past found fun stage => ?_)
    rw [stage] at joined
    cases joined
  | released =>
    split <;> exact raised
  | began | moved | counted | yielded | spawned | inserted | answered | finished | reaped => exact raised

theorem raised_of_run (run : Run step Free (new config) actions s) : Raised s :=
  run.invariant Raised (fun _ member => by cases member) fun _ _ _ raised _ stepped =>
    raised.step (.of_step stepped)

/-- One task is spawned, and a shutdown comes to take it. -/
def beforeTaking : List Action :=
  [.spawn "feed", .register 0, .register 0, .register 0, .shutdown, .stop 0, .stop 0]

/-- The deadline passes, something is spawned too late, and shutdown is called again. -/
def afterTaking : List Action :=
  [.expire 0, .spawn "late", .register 0, .shutdown, .stop 1, .stop 1, .stop 1, .stop 1, .reap 0]

/-- The steps a shutdown takes itself, and the insertion of a call that keeps it waiting. -/
def Own (index : Nat) (s : Inner) (action : Action) : Prop :=
  action = .stop index ∨ action = .expire index ∨
    ∃ call, action = .register call ∧ (s.calls[call]?).any Call.isInserting = true

/-- It joins what is left one by one, or aborts it when the deadline has passed. -/
theorem joins {left : List (Nat × TaskName)} {unjoined : List TaskName} {taken : List Nat}
    (accounted : Accounted s) (found : s.shutdowns[index]? = some ⟨.joining left unjoined, taken⟩) :
    ∃ own t named, Run step (Own index) s own t ∧
      t.shutdowns[index]? = some ⟨.returned named, taken⟩ ∧ own.length = left.length + 1 := by
  induction left generalizing s unjoined with
  | nil =>
    have stepped : s.step (.stop index) =
        some (s.setShutdown index ⟨.returned unjoined, taken⟩) := by
      show s.shutdowns[index]?.bind (s.stop index) = _
      rw [found]
      rfl
    refine ⟨_, _, unjoined, .snoc .nil (.inl rfl) stepped, ?_, rfl⟩
    exact List.getElem?_set_self (List.getElem?_eq_some_iff.mp found).1
  | cons entry left ih =>
    obtain ⟨ordinal, name⟩ := entry
    have inside := List.mem_of_getElem? found
    obtain ⟨task, present, -⟩ := accounted.answered _ inside ordinal
      (accounted.pending _ inside (ordinal, name) List.mem_cons_self)
    have first : ∃ action t unjoined', Own index s action ∧ s.step action = some t ∧
        t.shutdowns[index]? = some ⟨.joining left unjoined', taken⟩ := by
      cases ended : task.isComplete with
      | true =>
        refine ⟨.stop index, s.setShutdown index ⟨.joining left unjoined, taken⟩, unjoined, .inl rfl,
          ?_, List.getElem?_set_self (List.getElem?_eq_some_iff.mp found).1⟩
        show s.shutdowns[index]?.bind (s.stop index) = _
        rw [found]
        show (if s.isComplete ordinal then _ else _) = _
        rw [isComplete, present]
        exact if_pos ended
      | false =>
        refine ⟨.expire index, (s.setTask ordinal { task with aborting := true }).setShutdown index
          ⟨.joining left (unjoined ++ [name]), taken⟩, unjoined ++ [name], .inr (.inl rfl), ?_,
          List.getElem?_set_self (List.getElem?_eq_some_iff.mp found).1⟩
        show s.shutdowns[index]?.bind (s.expire index) = _
        rw [found]
        show s.tasks[ordinal]?.bind _ = _
        rw [present]
        show (if task.isComplete = true then _ else _) = _
        rw [ended]
        rfl
    obtain ⟨action, t, unjoined', own, stepped, now⟩ := first
    obtain ⟨rest, u, named, run, returned, length⟩ := ih (accounted.step (.of_step stepped)) now
    have begins : Run step (Own index) s ([] ++ [action]) t := .snoc .nil own stepped
    refine ⟨_, u, named, begins.append run, returned, ?_⟩
    simp [length]

/-- The call that holds the lock inserts, and the lock is free. -/
theorem inserts (bounded : Bounded s) (locked : s.isLocked = true) :
    ∃ action t, Own index s action ∧ s.step action = some t ∧ t.isLocked = false ∧
      t.shutdowns = s.shutdowns := by
  obtain ⟨call, member, inserting⟩ := List.any_eq_true.mp locked
  obtain ⟨i, found⟩ := List.getElem?_of_mem member
  obtain ⟨ordinal, stage⟩ : ∃ ordinal, call.stage = .inserting ordinal := by
    unfold Call.isInserting at inserting
    split at inserting
    · exact ⟨_, ‹_›⟩
    · cases inserting
  let t : Inner := { s with
    registry := s.registry.insert ordinal call.name, calls := proceed s.calls i none }
  refine ⟨.register i, t, .inr (.inr ⟨i, rfl, ?_⟩), ?_, ?_, rfl⟩
  · rw [found]
    exact inserting
  · show s.calls[i]?.bind _ = _
    rw [found]
    show (s.register call).bind _ = _
    rw [register, stage]
    rfl
  · have moves := countP_proceed Call.isInserting found none
    rw [inserting] at moves
    simp only [Option.any_none, Bool.false_eq_true, if_false, if_true] at moves
    have alone := bounded.alone
    have empty : (proceed s.calls i none).countP Call.isInserting = 0 := by omega
    refine List.any_eq_false.mpr fun other member => ?_
    exact List.countP_eq_zero.mp empty other member

/-- A call of `shutdown` at the registry returns after joining what is there. -/
theorem returns_of_taking {taken : List Nat} (accounted : Accounted s) (bounded : Bounded s)
    (found : s.shutdowns[index]? = some ⟨.taking, taken⟩) :
    ∃ own t named taken, Run step (Own index) s own t ∧
      t.shutdowns[index]? = some ⟨.returned named, taken⟩ ∧ own.length ≤ s.config.maxTasks + 3 := by
  have free : ∃ own t, Run step (Own index) s own t ∧ Accounted t ∧ Bounded t ∧
      t.isLocked = false ∧ t.shutdowns = s.shutdowns ∧ t.config = s.config ∧ own.length ≤ 1 := by
    cases locked : s.isLocked with
    | false => exact ⟨[], s, .nil, accounted, bounded, locked, rfl, rfl, Nat.zero_le _⟩
    | true =>
      obtain ⟨action, t, own, stepped, unlocked, same⟩ := inserts bounded locked
      have moved := Stepped.of_step stepped
      exact ⟨[action], t, .snoc .nil own stepped, accounted.step moved, bounded.step moved, unlocked,
        same, config_of_stepped moved, Nat.le_refl _⟩
  obtain ⟨first, t, begins, accounted, bounded, unlocked, same, config, short⟩ := free
  rw [← same] at found
  let next : Shutdown := ⟨.joining t.registry.toList [], t.registry.keys⟩
  have stepped : t.step (.stop index) = some ({ t with registry := ∅ }.setShutdown index next) := by
    show t.shutdowns[index]?.bind (t.stop index) = _
    rw [found]
    show (if t.isLocked = true then _ else _) = _
    rw [unlocked]
    rfl
  have now := List.getElem?_set_self (a := next) (List.getElem?_eq_some_iff.mp found).1
  obtain ⟨rest, u, named, ends, returned, length⟩ :=
    joins (accounted.step (.of_step stepped)) now
  refine ⟨_, u, named, _, (begins.snoc (.inl rfl) stepped).append ends, returned, ?_⟩
  have room := bounded.room
  rw [config] at room
  rw [ExtTreeMap.length_toList] at length
  simp only [List.length_append, List.length_singleton]
  omega

theorem returns_of_cancelling {taken : List Nat} (accounted : Accounted s) (bounded : Bounded s)
    (found : s.shutdowns[index]? = some ⟨.cancelling, taken⟩) :
    ∃ own t named taken, Run step (Own index) s own t ∧
      t.shutdowns[index]? = some ⟨.returned named, taken⟩ ∧ own.length ≤ s.config.maxTasks + 4 := by
  have stepped : s.step (.stop index) =
      some ({ s with rootCancelled := true }.setShutdown index ⟨.taking, taken⟩) := by
    show s.shutdowns[index]?.bind (s.stop index) = _
    rw [found]
    rfl
  have moved := Stepped.of_step stepped
  obtain ⟨own, t, named, taken, run, returned, short⟩ :=
    returns_of_taking (accounted.step moved) (bounded.step moved)
      (List.getElem?_set_self (List.getElem?_eq_some_iff.mp found).1)
  have begins : Run step (Own index) s ([] ++ [.stop index]) _ := .snoc .nil (.inl rfl) stepped
  refine ⟨_, t, named, taken, begins.append run, returned, ?_⟩
  rw [config_of_stepped moved] at short
  simp only [List.nil_append, List.singleton_append, List.length_cons]
  omega

/-- From every state a run can reach, every call of `shutdown` can go on to its return: by its
own steps alone, after one insertion if the registry is locked, whatever the tasks do. It takes
no more of them than it has tasks left to join, or than the registry may hold, and five. -/
theorem shutdown_terminates (run : Run step Free (new config) actions s)
    (found : s.shutdowns[index]? = some shutdown) :
    ∃ own t named taken, Run step (Own index) s own t ∧
      t.shutdowns[index]? = some ⟨.returned named, taken⟩ ∧
      own.length ≤ shutdown.stage.left.length + config.maxTasks + 5 := by
  have accounted := accounted_of_run run
  obtain ⟨bounded, rfl⟩ := bounded_of_run run
  obtain ⟨stage, taken⟩ := shutdown
  have inside := (List.getElem?_eq_some_iff.mp found).1
  cases stage with
  | storing =>
    have stepped : s.step (.stop index) =
        some ({ s with shuttingDown := true }.setShutdown index ⟨.cancelling, taken⟩) := by
      show s.shutdowns[index]?.bind (s.stop index) = _
      rw [found]
      rfl
    have moved := Stepped.of_step stepped
    obtain ⟨own, t, named, taken, run, returned, short⟩ :=
      returns_of_cancelling (accounted.step moved) (bounded.step moved) (List.getElem?_set_self inside)
    have begins : Run step (Own index) s ([] ++ [.stop index]) _ := .snoc .nil (.inl rfl) stepped
    refine ⟨_, t, named, taken, begins.append run, returned, ?_⟩
    rw [config_of_stepped moved] at short
    simp only [List.nil_append, List.singleton_append, List.length_cons]
    omega
  | cancelling =>
    obtain ⟨own, t, named, taken, run, returned, short⟩ :=
      returns_of_cancelling accounted bounded found
    exact ⟨own, t, named, taken, run, returned, by omega⟩
  | taking =>
    obtain ⟨own, t, named, taken, run, returned, short⟩ := returns_of_taking accounted bounded found
    refine ⟨own, t, named, taken, run, returned, ?_⟩
    omega
  | joining left unjoined =>
    obtain ⟨own, t, named, run, returned, length⟩ := joins accounted found
    refine ⟨own, t, named, taken, run, returned, ?_⟩
    show own.length ≤ left.length + _ + 5
    omega
  | returned named => exact ⟨[], s, named, taken, .nil, found, Nat.zero_le _⟩

/-- A call is about to insert its task as a shutdown comes to the registry. -/
def lockedOut : List Action :=
  [.spawn "feed", .register 0, .register 0, .shutdown, .stop 0, .stop 0]

theorem shutdown_terminates_locked_out : ∃ s own t named taken,
    Run step Free (new ⟨2, 1⟩) lockedOut s ∧ s.isLocked = true ∧ Run step (Own 0) s own t ∧
    t.shutdowns[0]? = some ⟨.returned named, taken⟩ ∧ own.length ≤ 7 := by
  have ran : (exec step Free (new ⟨2, 1⟩) lockedOut).any (fun s =>
      s.isLocked = true ∧ s.shutdowns[0]? = some ⟨.taking, []⟩) = true := by decide +kernel
  obtain ⟨s, run, checked⟩ := Run.of_any ran
  obtain ⟨locked, found⟩ := of_decide_eq_true checked
  obtain ⟨own, t, named, taken, rest, returned, short⟩ := shutdown_terminates run found
  exact ⟨s, own, t, named, taken, run, locked, rest, returned, short⟩

end Inner

end Fava.Runtime
