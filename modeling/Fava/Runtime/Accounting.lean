import Fava.Runtime.Registry

namespace Fava.Runtime

open Std Fava.Lib

/-- The tasks a shutdown has yet to join. -/
def Stopping.left : Stopping → List (Nat × TaskName)
  | .joining left _ => left
  | .storing | .cancelling | .taking | .returned _ => []

/-- The tasks a shutdown names to its caller. -/
def Stopping.named : Stopping → List TaskName
  | .joining _ unjoined | .returned unjoined => unjoined
  | .storing | .cancelling | .taking => []

def Stopping.hasTaken : Stopping → Bool
  | .joining _ _ | .returned _ => true
  | .storing | .cancelling | .taking => false

/-- What a shutdown makes of a task it took: it waits for it, or it aborted and named it. -/
def Shutdown.Answers (shutdown : Shutdown) (ordinal : Nat) (task : Task) : Prop :=
  (ordinal, task.name) ∈ shutdown.stage.left ∨
    task.aborting = true ∧ task.name ∈ shutdown.stage.named

namespace Inner

variable {s t : Inner} {config : RuntimeConfig} {actions : List Action} {ordinal index : Nat}
  {name : TaskName} {call : Call} {task : Task} {shutdown : Shutdown}

/-- The task is registered, or the call that spawned it still holds the registry lock. -/
def Held (s : Inner) (ordinal : Nat) (name : TaskName) : Prop :=
  s.registry[ordinal]? = some name ∨
    ∃ call ∈ s.calls, call.stage = .inserting ordinal ∧ call.name = name

/-- Nothing that was spawned is out of sight before it has ended. -/
structure Accounted (s : Inner) : Prop where
  held : ∀ ordinal name, Held s ordinal name → ∃ task, s.tasks[ordinal]? = some task ∧
    task.name = name ∧ task.isComplete = false ∧ task.aborting = false
  located : ∀ ordinal task, s.tasks[ordinal]? = some task → task.isComplete = true ∨
    Held s ordinal task.name ∨ ∃ shutdown ∈ s.shutdowns, ordinal ∈ shutdown.taken
  answered : ∀ shutdown ∈ s.shutdowns, ∀ ordinal ∈ shutdown.taken, ∃ task,
    s.tasks[ordinal]? = some task ∧ (task.isComplete = true ∨ shutdown.Answers ordinal task)
  apart : ∀ shutdown ∈ s.shutdowns, ∀ ordinal ∈ shutdown.taken, ∀ name, ¬Held s ordinal name
  pending : ∀ shutdown ∈ s.shutdowns, ∀ entry ∈ shutdown.stage.left, entry.1 ∈ shutdown.taken
  fresh : ∀ shutdown ∈ s.shutdowns, shutdown.stage.hasTaken = false → shutdown.taken = []

/-- Only the tasks, the shutdowns and what is held count. -/
theorem Accounted.congr (accounted : Accounted s) (tasks : t.tasks = s.tasks)
    (shutdowns : t.shutdowns = s.shutdowns)
    (same : ∀ ordinal name, Held t ordinal name ↔ Held s ordinal name) : Accounted t := by
  constructor
  · simpa only [same, tasks] using accounted.held
  · simpa only [same, tasks, shutdowns] using accounted.located
  · simpa only [tasks, shutdowns] using accounted.answered
  · simpa only [same, shutdowns] using accounted.apart
  · simpa only [shutdowns] using accounted.pending
  · simpa only [shutdowns] using accounted.fresh

theorem not_inserting (free : s.isLocked = false) (member : call ∈ s.calls) :
    call.stage ≠ .inserting ordinal := by
  intro stage
  have holds := List.any_eq_false.mp free call member
  simp [Call.isInserting, stage] at holds

theorem held_of_free (free : s.isLocked = false) :
    Held s ordinal name ↔ s.registry[ordinal]? = some name := by
  refine ⟨fun held => held.resolve_right ?_, .inl⟩
  rintro ⟨call, member, stage, -⟩
  exact not_inserting free member stage

/-- A call that neither holds the lock nor gets it changes nothing that is held. -/
theorem held_proceed {next : Option Call} (found : s.calls[index]? = some call)
    (mine : ∀ ordinal, call.stage ≠ .inserting ordinal)
    (goes : ∀ other, next = some other → ∀ ordinal, other.stage ≠ .inserting ordinal) :
    Held { s with calls := proceed s.calls index next } ordinal name ↔ Held s ordinal name := by
  refine or_congr_right ⟨?_, ?_⟩
  · rintro ⟨other, member, stage, same⟩
    obtain is | member := mem_of_mem_proceed found member
    · exact absurd stage (goes other is ordinal)
    · exact ⟨other, member, stage, same⟩
  · rintro ⟨other, member, stage, same⟩
    obtain rfl | member := mem_proceed found next member
    · exact absurd stage (mine ordinal)
    · exact ⟨other, member, stage, same⟩

/-- One task goes on; it may leave the registry only if it has ended. -/
theorem Accounted.retask {next : Task} (accounted : Accounted s)
    (found : s.tasks[ordinal]? = some task) (tasks : t.tasks = s.tasks.set ordinal next)
    (shutdowns : t.shutdowns = s.shutdowns) (same : next.name = task.name)
    (ends : task.isComplete = true → next.isComplete = true)
    (aborts : task.aborting = true → next.aborting = true)
    (fewer : ∀ i name, Held t i name → Held s i name)
    (kept : ∀ i name, Held s i name → Held t i name ∨ i = ordinal ∧ next.isComplete = true)
    (live : ∀ name, Held t ordinal name → next.isComplete = false ∧ next.aborting = false) :
    Accounted t := by
  have here : t.tasks[ordinal]? = some next := by
    rw [tasks, List.getElem?_set_self (List.getElem?_eq_some_iff.mp found).1]
  have others : ∀ i, ordinal ≠ i → t.tasks[i]? = s.tasks[i]? := by
    intro i other
    rw [tasks, List.getElem?_set_ne other]
  refine ⟨fun i name isHeld => ?_, fun i other present => ?_, fun shutdown member i taken => ?_,
    fun shutdown member i taken name isHeld => ?_, ?_, ?_⟩
  · obtain ⟨before, present, named, runs, calm⟩ := accounted.held i name (fewer i name isHeld)
    by_cases mine : ordinal = i
    · subst mine
      rw [found] at present
      cases present
      exact ⟨next, here, same.trans named, live name isHeld⟩
    · exact ⟨before, (others i mine).trans present, named, runs, calm⟩
  · by_cases mine : ordinal = i
    · subst mine
      rw [here] at present
      cases present
      obtain ended | isHeld | taken := accounted.located ordinal task found
      · exact .inl (ends ended)
      · rw [← same] at isHeld
        exact (kept ordinal next.name isHeld).elim (fun still => .inr (.inl still)) fun ended => .inl ended.2
      · exact .inr (.inr (shutdowns ▸ taken))
    · rw [others i mine] at present
      obtain ended | isHeld | taken := accounted.located i other present
      · exact .inl ended
      · exact (kept i other.name isHeld).elim (fun still => .inr (.inl still))
          fun ended => absurd ended.1.symm mine
      · exact .inr (.inr (shutdowns ▸ taken))
  · rw [shutdowns] at member
    obtain ⟨before, present, answered⟩ := accounted.answered shutdown member i taken
    by_cases mine : ordinal = i
    · subst mine
      rw [found] at present
      cases present
      refine ⟨next, here, answered.imp ends fun answers => ?_⟩
      unfold Shutdown.Answers
      rw [same]
      exact answers.imp_right fun named => ⟨aborts named.1, named.2⟩
    · exact ⟨before, (others i mine).trans present, answered⟩
  · rw [shutdowns] at member
    exact accounted.apart shutdown member i taken name (fewer i name isHeld)
  · rw [shutdowns]
    exact accounted.pending
  · rw [shutdowns]
    exact accounted.fresh

/-- A task goes on that neither ends nor is told to. -/
theorem Accounted.setTask {next : Task} (accounted : Accounted s)
    (found : s.tasks[ordinal]? = some task) (same : next.name = task.name)
    (ends : next.isComplete = task.isComplete) (aborts : next.aborting = task.aborting) :
    Accounted (s.setTask ordinal next) := by
  refine accounted.retask found rfl rfl same (fun ended => ends ▸ ended) (fun told => aborts ▸ told)
    (fun _ _ => id) (fun _ _ => .inl) fun name isHeld => ?_
  obtain ⟨before, present, -, runs, calm⟩ := accounted.held ordinal name isHeld
  rw [found] at present
  cases present
  exact ⟨ends.trans runs, aborts.trans calm⟩

/-- One shutdown goes on with what it has taken. -/
theorem Accounted.setShutdown {next : Stopping} (accounted : Accounted s)
    (found : s.shutdowns[index]? = some shutdown)
    (same : next.hasTaken = shutdown.stage.hasTaken)
    (fewer : ∀ entry ∈ next.left, entry ∈ shutdown.stage.left)
    (answers : ∀ ordinal ∈ shutdown.taken, ∀ task, s.tasks[ordinal]? = some task →
      shutdown.Answers ordinal task → task.isComplete = true ∨
        Shutdown.Answers { shutdown with stage := next } ordinal task) :
    Accounted (s.setShutdown index { shutdown with stage := next }) := by
  have inside := List.mem_of_getElem? found
  have member : ∀ other ∈ s.shutdowns.set index { shutdown with stage := next },
      other = { shutdown with stage := next } ∨ other ∈ s.shutdowns :=
    fun other member => (List.mem_or_eq_of_mem_set member).symm
  refine ⟨accounted.held, fun i task present => ?_, fun other new i taken => ?_,
    fun other new i taken name isHeld => ?_, fun other new entry left => ?_, fun other new early => ?_⟩
  · refine (accounted.located i task present).imp_right (Or.imp_right ?_)
    rintro ⟨other, old, taken⟩
    obtain rfl | still := mem_proceed found (some { shutdown with stage := next }) old
    · exact ⟨_, next_mem_proceed found, taken⟩
    · exact ⟨other, still, taken⟩
  · obtain rfl | old := member other new
    · obtain ⟨task, present, answered⟩ := accounted.answered shutdown inside i taken
      exact ⟨task, present, answered.elim .inl (answers i taken task present)⟩
    · exact accounted.answered other old i taken
  · obtain rfl | old := member other new
    · exact accounted.apart shutdown inside i taken name isHeld
    · exact accounted.apart other old i taken name isHeld
  · obtain rfl | old := member other new
    · exact accounted.pending shutdown inside entry (fewer entry left)
    · exact accounted.pending other old entry left
  · obtain rfl | old := member other new
    · exact accounted.fresh shutdown inside (same.symm.trans early)
    · exact accounted.fresh other old early

theorem Accounted.inserted (accounted : Accounted s)
    (found : s.calls[index]? = some call) (stage : call.stage = .inserting ordinal) :
    Accounted { s with
      registry := s.registry.insert ordinal call.name, calls := proceed s.calls index none } := by
  refine accounted.congr rfl rfl fun i name => ⟨?_, ?_⟩
  · rintro (entry | ⟨other, member, inserts, same⟩)
    · rw [BTreeMap.find_insert] at entry
      split at entry
      · rename_i mine
        cases entry
        exact .inr ⟨call, List.mem_of_getElem? found, mine ▸ stage, rfl⟩
      · exact .inl entry
    · change other ∈ proceed s.calls index none at member
      obtain is | member := mem_of_mem_proceed found member
      · cases is
      · exact .inr ⟨other, member, inserts, same⟩
  · intro isHeld
    obtain ⟨task, present, rfl, -⟩ := accounted.held i name isHeld
    by_cases mine : ordinal = i
    · subst mine
      obtain ⟨held, again, named, -⟩ := accounted.held ordinal call.name
        (.inr ⟨call, List.mem_of_getElem? found, stage, rfl⟩)
      rw [present] at again
      cases again
      rw [named]
      exact .inl BTreeMap.find_insert_self
    · obtain entry | ⟨other, member, inserts, same⟩ := isHeld
      · exact .inl ((BTreeMap.find_insert_of_ne mine).trans entry)
      · obtain rfl | still := mem_proceed found none member
        · rw [stage] at inserts
          cases inserts
          exact absurd rfl mine
        · exact .inr ⟨other, still, inserts, same⟩

theorem Accounted.spawned (accounted : Accounted s) (found : s.calls[index]? = some call)
    (stage : call.stage = .locking) :
    Accounted { s with
      tasks := s.tasks ++ [⟨call.name, call.provider, false, .running⟩]
      calls := proceed s.calls index (some { call with stage := .inserting s.tasks.length }) } := by
  let t : Inner := { s with
    tasks := s.tasks ++ [⟨call.name, call.provider, false, .running⟩]
    calls := proceed s.calls index (some { call with stage := .inserting s.tasks.length }) }
  have more : ∀ i name, Held s i name → Held t i name := by
    rintro i name (entry | ⟨other, member, inserts, same⟩)
    · exact .inl entry
    · obtain rfl | still := mem_proceed found (some _) member
      · rw [stage] at inserts
        cases inserts
      · exact .inr ⟨other, still, inserts, same⟩
  have fewer : ∀ i name, Held t i name → Held s i name ∨ i = s.tasks.length ∧ name = call.name := by
    rintro i name (entry | ⟨other, member, inserts, same⟩)
    · exact .inl (.inl entry)
    · change other ∈ proceed s.calls index (some _) at member
      obtain is | member := mem_of_mem_proceed found member
      · cases is
        cases inserts
        exact .inr ⟨rfl, same.symm⟩
      · exact .inl (.inr ⟨other, member, inserts, same⟩)
  have stays : ∀ (i : Nat) (task : Task), s.tasks[i]? = some task → t.tasks[i]? = some task := by
    intro i task present
    exact (List.getElem?_append_left (List.getElem?_eq_some_iff.mp present).1).trans present
  have new : t.tasks[s.tasks.length]? = some ⟨call.name, call.provider, false, .running⟩ := by
    simp [t]
  refine ⟨fun i name isHeld => ?_, fun i task present => ?_, fun shutdown member i taken => ?_,
    fun shutdown member i taken name isHeld => ?_, accounted.pending, accounted.fresh⟩
  · obtain isHeld | ⟨rfl, rfl⟩ := fewer i name isHeld
    · obtain ⟨task, present, rest⟩ := accounted.held i name isHeld
      exact ⟨task, stays i task present, rest⟩
    · exact ⟨_, new, rfl, rfl, rfl⟩
  · by_cases old : i < s.tasks.length
    · have present : s.tasks[i]? = some task := (List.getElem?_append_left old).symm.trans present
      exact (accounted.located i task present).imp_right (Or.imp_left (more i task.name))
    · have last : i = s.tasks.length := by
        have bound := (List.getElem?_eq_some_iff.mp present).1
        simp only [List.length_append, List.length_singleton] at bound
        omega
      subst last
      cases new.symm.trans present
      exact .inr (.inl (.inr ⟨_, next_mem_proceed found, rfl, rfl⟩))
  · obtain ⟨task, present, answered⟩ := accounted.answered shutdown member i taken
    exact ⟨task, stays i task present, answered⟩
  · obtain isHeld | ⟨rfl, -⟩ := fewer i name isHeld
    · exact accounted.apart shutdown member i taken name isHeld
    · obtain ⟨task, present, -⟩ := accounted.answered shutdown member _ taken
      exact absurd (List.getElem?_eq_some_iff.mp present).1 (Nat.lt_irrefl _)

theorem Accounted.took (accounted : Accounted s) (found : s.shutdowns[index]? = some shutdown)
    (stage : shutdown.stage = .taking) (free : s.isLocked = false) :
    Accounted ({ s with registry := ∅ }.setShutdown index
      ⟨.joining s.registry.toList [], s.registry.keys⟩) := by
  let next : Shutdown := ⟨.joining s.registry.toList [], s.registry.keys⟩
  let t : Inner := { s with registry := ∅ }.setShutdown index next
  have none : ∀ i name, ¬Held t i name := by
    rintro i name (entry | ⟨other, member, inserts, -⟩)
    · change (∅ : BTreeMap Nat TaskName)[i]? = some name at entry
      simp at entry
    · exact not_inserting free member inserts
  have entries : ∀ i : Nat, i ∈ s.registry.keys → ∃ task, s.tasks[i]? = some task ∧
      (i, task.name) ∈ s.registry.toList := by
    intro i key
    obtain ⟨name, entry⟩ := Option.isSome_iff_exists.mp
      (ExtTreeMap.mem_iff_isSome_getElem?.mp (ExtTreeMap.mem_keys.mp key))
    obtain ⟨task, present, rfl, -⟩ := accounted.held i name (.inl entry)
    exact ⟨task, present, ExtTreeMap.mem_toList_iff_getElem?_eq_some.mpr entry⟩
  have member : ∀ other ∈ t.shutdowns, other = next ∨ other ∈ s.shutdowns :=
    fun other member => (List.mem_or_eq_of_mem_set member).symm
  refine ⟨fun i name isHeld => absurd isHeld (none i name), fun i task present => ?_,
    fun other new i taken => ?_, fun _ _ i _ name => none i name, fun other new entry left => ?_,
    fun other new early => ?_⟩
  · refine (accounted.located i task present).imp_right fun kept => .inr ?_
    obtain isHeld | ⟨other, old, taken⟩ := kept
    · refine ⟨next, next_mem_proceed found, ExtTreeMap.mem_keys.mpr ?_⟩
      rw [ExtTreeMap.mem_iff_isSome_getElem?, (held_of_free free).mp isHeld]
      rfl
    · obtain rfl | still := mem_proceed found (some next) old
      · rw [accounted.fresh other old (by rw [stage]; rfl)] at taken
        cases taken
      · exact ⟨other, still, taken⟩
  · obtain same | old := member other new
    · rw [same] at taken ⊢
      obtain ⟨task, present, listed⟩ := entries i taken
      exact ⟨task, present, .inr (.inl listed)⟩
    · exact accounted.answered other old i taken
  · obtain same | old := member other new
    · rw [same] at left ⊢
      show entry.1 ∈ s.registry.keys
      rw [← ExtTreeMap.map_fst_toList_eq_keys]
      exact List.mem_map_of_mem left
    · exact accounted.pending other old entry left
  · obtain same | old := member other new
    · rw [same] at early
      cases early
    · exact accounted.fresh other old early

theorem Moved.quiet {next : Option Call} (moved : Moved s call next) :
    (∀ ordinal, call.stage ≠ .inserting ordinal) ∧
      ∀ other, next = some other → ∀ ordinal, other.stage ≠ .inserting ordinal := by
  cases moved with
  | refusedSlot stage =>
    rw [stage]
    exact ⟨nofun, nofun⟩
  | reserves stage | checked stage =>
    rw [stage]
    refine ⟨nofun, fun other is ordinal inserts => ?_⟩
    cases is
    cases inserts
  | refused stage =>
    refine ⟨fun ordinal inserts => ?_, fun other is ordinal inserts => ?_⟩
    · rw [inserts] at stage
      obtain ⟨wrong, -⟩ | ⟨wrong, -⟩ := stage <;> cases wrong
    · unfold Inner.refused at is
      split at is <;> cases is
      cases inserts

theorem Accounted.step (accounted : Accounted s) (stepped : Stepped s t) : Accounted t := by
  cases stepped with
  | @began new fresh =>
    refine accounted.congr rfl rfl fun i name => or_congr_right ⟨?_, ?_⟩
    · rintro ⟨other, member, inserts, same⟩
      obtain member | is := List.mem_append.mp member
      · exact ⟨other, member, inserts, same⟩
      · rw [List.mem_singleton.mp is] at inserts
        obtain ⟨-, stage⟩ | ⟨-, stage⟩ := fresh <;> rw [stage] at inserts <;> cases inserts
    · rintro ⟨other, member, inserts, same⟩
      exact ⟨other, List.mem_append_left _ member, inserts, same⟩
  | moved found moved =>
    exact accounted.congr rfl rfl fun _ _ => held_proceed found moved.quiet.1 moved.quiet.2
  | counted found stage =>
    refine accounted.congr rfl rfl fun _ _ => held_proceed found ?_ ?_
    · rw [stage]
      exact nofun
    · intro other is ordinal inserts
      cases is
      revert inserts
      dsimp only
      split <;> exact nofun
  | yielded found stage =>
    refine accounted.congr rfl rfl fun _ _ => held_proceed found ?_ nofun
    obtain stage | stage := stage <;> rw [stage] <;> exact nofun
  | spawned found stage free room => exact accounted.spawned found stage
  | inserted found stage => exact accounted.inserted found stage
  | answered found running =>
    exact accounted.setTask found rfl (by simp [Task.isComplete, running]) rfl
  | @released ordinal task found answered =>
    have kept : Accounted (s.setTask ordinal { task with progress := .released }) :=
      accounted.setTask found rfl (by simp [Task.isComplete, answered]) rfl
    split
    · exact kept.congr rfl rfl fun _ _ => Iff.rfl
    · exact kept
  | @finished ordinal task found released free =>
    refine accounted.retask found rfl rfl rfl (fun _ => rfl) id ?_ ?_ ?_
    · rintro i name (entry | inserting)
      · exact .inl (BTreeMap.find_of_erase entry)
      · exact .inr inserting
    · intro i name isHeld
      by_cases mine : ordinal = i
      · exact .inr ⟨mine.symm, rfl⟩
      · exact .inl (.inl ((BTreeMap.find_erase_of_ne mine).trans ((held_of_free free).mp isHeld)))
    · rintro name (entry | ⟨other, member, inserts, -⟩)
      · cases BTreeMap.find_erase_self.symm.trans entry
      · exact absurd inserts (not_inserting free member)
  | reaped found running aborting =>
    refine accounted.retask found rfl rfl rfl (fun _ => rfl) id (fun _ _ => id) (fun _ _ => .inl) ?_
    intro name isHeld
    obtain ⟨task, present, -, -, calm⟩ := accounted.held _ name isHeld
    rw [found] at present
    cases present
    rw [aborting] at calm
    cases calm
  | stopped =>
    refine ⟨accounted.held, fun i task present => ?_, ?_, ?_, ?_, ?_⟩
    · refine (accounted.located i task present).imp_right (Or.imp_right ?_)
      rintro ⟨other, member, taken⟩
      exact ⟨other, List.mem_append_left _ member, taken⟩
    all_goals refine List.forall_mem_append.mpr ⟨?_, List.forall_mem_singleton.mpr ?_⟩
    · exact accounted.answered
    · exact nofun
    · exact accounted.apart
    · exact nofun
    · exact accounted.pending
    · exact nofun
    · exact accounted.fresh
    · exact fun _ => rfl
  | @stored index shutdown found stage =>
    have kept : Accounted (s.setShutdown index { shutdown with stage := .cancelling }) := by
      refine accounted.setShutdown found (by rw [stage]; rfl) nofun ?_
      intro i taken
      rw [accounted.fresh shutdown (List.mem_of_getElem? found) (by rw [stage]; rfl)] at taken
      cases taken
    exact kept.congr rfl rfl fun _ _ => Iff.rfl
  | @cancelled index shutdown found stage =>
    have kept : Accounted (s.setShutdown index { shutdown with stage := .taking }) := by
      refine accounted.setShutdown found (by rw [stage]; rfl) nofun ?_
      intro i taken
      rw [accounted.fresh shutdown (List.mem_of_getElem? found) (by rw [stage]; rfl)] at taken
      cases taken
    exact kept.congr rfl rfl fun _ _ => Iff.rfl
  | took found stage free => exact accounted.took found stage free
  | @joined index shutdown next found joined =>
    obtain ⟨stage, taken⟩ := shutdown
    cases joined with
    | @joined ordinal name left unjoined complete =>
      refine accounted.setShutdown found rfl (fun _ => List.mem_cons_of_mem _) ?_
      rintro i - task present (pending | named)
      · obtain same | pending := List.mem_cons.mp pending
        · cases same
          unfold isComplete at complete
          rw [present] at complete
          exact .inl complete
        · exact .inr (.inl pending)
      · exact .inr (.inr named)
    | returned =>
      refine accounted.setShutdown found rfl (fun _ => id) ?_
      rintro i - task present (pending | named)
      · cases pending
      · exact .inr (.inr named)
  | @expired index ordinal name shutdown task left unjoined found stage present runs =>
    have taken := accounted.pending shutdown (List.mem_of_getElem? found) (ordinal, name)
      (by rw [stage]; exact List.mem_cons_self)
    have told := accounted.retask (t := s.setTask ordinal { task with aborting := true }) present
      rfl rfl rfl id (fun _ => rfl) (fun _ _ => id) (fun _ _ => .inl)
      fun name isHeld => absurd isHeld (accounted.apart shutdown (List.mem_of_getElem? found) _ taken name)
    refine told.setShutdown found (by rw [stage]; rfl) ?_ ?_
    · rw [stage]
      exact fun _ => List.mem_cons_of_mem _
    · rintro i - other now answers
      unfold Shutdown.Answers at answers ⊢
      rw [stage] at answers
      obtain pending | ⟨aborts, named⟩ := answers
      · obtain same | pending := List.mem_cons.mp pending
        · cases same
          have here := List.getElem?_set_self (a := { task with aborting := true })
            (List.getElem?_eq_some_iff.mp present).1
          cases here.symm.trans now
          exact .inr (.inr ⟨rfl, List.mem_append_right _ List.mem_cons_self⟩)
        · exact .inr (.inl pending)
      · exact .inr (.inr ⟨aborts, List.mem_append_left _ named⟩)

/-- There is room for what is registered and for the one task about to be. -/
structure Bounded (s : Inner) : Prop where
  room : s.registry.size + s.calls.countP Call.isInserting ≤ s.config.maxTasks
  alone : s.calls.countP Call.isInserting ≤ 1

theorem isInserting_eq_false (quiet : ∀ ordinal, call.stage ≠ .inserting ordinal) :
    call.isInserting = false := by
  unfold Call.isInserting
  split
  · exact absurd ‹_› (quiet _)
  · rfl

theorem Bounded.step (bounded : Bounded s) (stepped : Stepped s t) : Bounded t := by
  have same : ∀ {t : Inner}, t.registry = s.registry → t.config = s.config →
      t.calls.countP Call.isInserting = s.calls.countP Call.isInserting → Bounded t := by
    intro t registry config calls
    constructor
    · rw [registry, config, calls]
      exact bounded.room
    · rw [calls]
      exact bounded.alone
  cases stepped with
  | began fresh =>
    refine same rfl rfl ?_
    rw [List.countP_append, List.countP_singleton, isInserting_eq_false]
    · rfl
    · obtain ⟨-, stage⟩ | ⟨-, stage⟩ := fresh <;> rw [stage] <;> exact nofun
  | @moved index call next found moved =>
    refine same rfl rfl (countP_proceed_same found next ?_)
    rw [isInserting_eq_false moved.quiet.1]
    cases next with
    | none => rfl
    | some other => exact isInserting_eq_false (moved.quiet.2 other rfl)
  | @counted index call found stage =>
    refine same rfl rfl (countP_proceed_same found (some { call with stage :=
      if s.config.maxProviderOperations ≤ s.providerOperations then .releasing else .checking }) ?_)
    simp only [Option.any_some, Call.isInserting, stage]
    by_cases full : (s.config.maxProviderOperations : Int) ≤ s.providerOperations
    · rw [if_pos full]
    · rw [if_neg full]
  | yielded found stage =>
    refine same rfl rfl (countP_proceed_same found none ?_)
    obtain stage | stage := stage <;> simp [Call.isInserting, stage]
  | @spawned index call found stage free room =>
    have moves := countP_proceed Call.isInserting found
      (some { call with stage := .inserting s.tasks.length })
    have none : s.calls.countP Call.isInserting = 0 := by
      refine List.countP_eq_zero.mpr fun other member inserts => ?_
      exact List.any_eq_false.mp free other member inserts
    have before : call.isInserting = false := by simp [Call.isInserting, stage]
    rw [before, none] at moves
    simp only [Option.any_some, Call.isInserting, Bool.false_eq_true, if_false, if_true] at moves
    constructor
    · show s.registry.size + (proceed s.calls index (some _)).countP _ ≤ s.config.maxTasks
      omega
    · show (proceed s.calls index (some _)).countP _ ≤ 1
      omega
  | @inserted index ordinal call found stage =>
    have moves := countP_proceed Call.isInserting found none
    have before : call.isInserting = true := by simp [Call.isInserting, stage]
    have grows : (s.registry.insert ordinal call.name).size ≤ s.registry.size + 1 :=
      ExtTreeMap.size_insert_le
    rw [before] at moves
    obtain ⟨room, alone⟩ := bounded
    simp only [Option.any_none, Bool.false_eq_true, if_false, if_true] at moves
    constructor
    · show (s.registry.insert ordinal call.name).size + (proceed s.calls index none).countP _ ≤
        s.config.maxTasks
      omega
    · show (proceed s.calls index none).countP _ ≤ 1
      omega
  | released =>
    split <;> exact same rfl rfl rfl
  | @finished ordinal task found released free =>
    have shrinks : (s.registry.erase ordinal).size ≤ s.registry.size := ExtTreeMap.size_erase_le
    exact ⟨(Nat.add_le_add_right shrinks _).trans bounded.room, bounded.alone⟩
  | took =>
    refine ⟨?_, bounded.alone⟩
    show 0 + s.calls.countP _ ≤ s.config.maxTasks
    exact (Nat.add_le_add_right (Nat.zero_le _) _).trans bounded.room
  | answered | reaped | stopped | stored | cancelled | joined | expired => exact same rfl rfl rfl

theorem accounted_new : Accounted (new config) where
  held i name isHeld := by
    obtain entry | ⟨_, member, -⟩ := isHeld
    · change (∅ : BTreeMap Nat TaskName)[i]? = some name at entry
      simp at entry
    · cases member
  located _ _ present := by cases present
  answered _ member := by cases member
  apart _ member := by cases member
  pending _ member := by cases member
  fresh _ member := by cases member

theorem accounted_of_run (run : Run step Free (new config) actions s) : Accounted s :=
  run.invariant Accounted accounted_new fun _ _ _ accounted _ stepped =>
    accounted.step (.of_step stepped)

theorem bounded_of_run (run : Run step Free (new config) actions s) :
    Bounded s ∧ s.config = config := by
  refine run.invariant (fun s => Bounded s ∧ s.config = config)
    ⟨⟨Nat.zero_le _, Nat.zero_le _⟩, rfl⟩ ?_
  intro s action t both _ stepped
  have stepped := Stepped.of_step stepped
  exact ⟨both.1.step stepped, (config_of_stepped stepped).trans both.2⟩

/-- Two tasks are spawned and a shutdown takes both; the deadline passes on the first. -/
def twoTaken : List Action :=
  [.spawn "round", .register 0, .register 0, .register 0, .spawn "feed", .register 0, .register 0, .register 0,
    .shutdown, .stop 0, .stop 0, .stop 0, .expire 0]

end Inner

end Fava.Runtime
