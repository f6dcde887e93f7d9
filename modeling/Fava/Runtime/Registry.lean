import Fava.Lib.BTree
import Fava.Lib.Pool
import Fava.Lib.Run

namespace Fava.Runtime

open Std Fava.Lib

abbrev TaskName := String

/-- How far a spawned task is. Once its future has answered it awaits nothing any more, so
only a running one can be dropped by `abort`. -/
inductive Progress
  | running
  | answered
  | released
  | finished
  | aborted
deriving DecidableEq

/-- One spawned task; its ordinal is its position among all of them. -/
structure Task where
  name : TaskName
  provider : Bool
  aborting : Bool
  progress : Progress
deriving DecidableEq

/-- The handle of the task resolves. -/
def Task.isComplete (task : Task) : Bool :=
  task.progress = .finished || task.progress = .aborted

/-- How far a call of `spawn` or `call_provider` is until its task is registered: a provider
call reserves a slot first, and gives it back if it may not spawn. -/
inductive Admission
  | reserving
  | counting
  | releasing
  | checking
  | locking
  | inserting (ordinal : Nat)
  | yielding
deriving DecidableEq

structure Call where
  name : TaskName
  provider : Bool
  stage : Admission
deriving DecidableEq

def Call.isInserting (call : Call) : Bool := call.stage matches .inserting _

/-- How far a call of `shutdown` is. -/
inductive Stopping
  | storing
  | cancelling
  | taking
  | joining (left : List (Nat × TaskName)) (unjoined : List TaskName)
  | returned (unjoined : List TaskName)
deriving DecidableEq

/-- One call of `shutdown`, with the ordinals it took out of the registry. -/
structure Shutdown where
  stage : Stopping
  taken : List Nat
deriving DecidableEq

structure RuntimeConfig where
  maxTasks : Nat
  maxProviderOperations : Nat

/-- What the clones of one runtime share, and the calls in progress on it. -/
structure Inner where
  config : RuntimeConfig
  rootCancelled : Bool
  shuttingDown : Bool
  registry : BTreeMap Nat TaskName
  providerOperations : Int
  tasks : List Task
  calls : List Call
  shutdowns : List Shutdown

namespace Inner

def new (config : RuntimeConfig) : Inner := ⟨config, false, false, ∅, 0, [], [], []⟩

/-- The registry lock is held across a spawn, up to the insertion. -/
def isLocked (s : Inner) : Bool := s.calls.any Call.isInserting

def outstandingTasks (s : Inner) : List TaskName := s.registry.values

def runningProviderOperations (s : Inner) : Int := s.providerOperations

def releaseProviderSlot (s : Inner) : Inner :=
  { s with providerOperations := s.providerOperations - 1 }

/-- What is left of a call that may not spawn. -/
def refused (call : Call) : Option Call :=
  if call.provider then some { call with stage := .yielding } else none

/-- The next access of `reserve_provider_slot` or `register`, and what is left of the call. -/
def register (s : Inner) (call : Call) : Option (Inner × Option Call) :=
  match call.stage with
  | .reserving =>
    some (s, if s.shuttingDown then none else some { call with stage := .counting })
  | .counting =>
    some ({ s with providerOperations := s.providerOperations + 1 },
      some { call with stage :=
        if s.config.maxProviderOperations ≤ s.providerOperations then .releasing else .checking })
  | .releasing | .yielding => some (s.releaseProviderSlot, none)
  | .checking =>
    some (s, if s.shuttingDown then refused call else some { call with stage := .locking })
  | .locking =>
    if s.isLocked then none
    else if s.config.maxTasks ≤ s.registry.size then some (s, refused call)
    else
      some ({ s with tasks := s.tasks ++ [⟨call.name, call.provider, false, .running⟩] },
        some { call with stage := .inserting s.tasks.length })
  | .inserting ordinal => some ({ s with registry := s.registry.insert ordinal call.name }, none)

def isComplete (s : Inner) (ordinal : Nat) : Bool := (s.tasks[ordinal]?).any Task.isComplete

def setTask (s : Inner) (ordinal : Nat) (task : Task) : Inner :=
  { s with tasks := s.tasks.set ordinal task }

/-- `finish`, one access at a time. -/
def finish (s : Inner) (ordinal : Nat) (task : Task) : Option Inner :=
  match task.progress with
  | .answered =>
    let released := if task.provider then s.releaseProviderSlot else s
    some (released.setTask ordinal { task with progress := .released })
  | .released =>
    if s.isLocked then none
    else
      let deregistered := { s with registry := s.registry.erase ordinal }
      some (deregistered.setTask ordinal { task with progress := .finished })
  | .running | .finished | .aborted => none

def setShutdown (s : Inner) (index : Nat) (shutdown : Shutdown) : Inner :=
  { s with shutdowns := s.shutdowns.set index shutdown }

/-- The next access of one call of `shutdown`. -/
def stop (s : Inner) (index : Nat) (shutdown : Shutdown) : Option Inner :=
  match shutdown.stage with
  | .storing =>
    some ({ s with shuttingDown := true }.setShutdown index { shutdown with stage := .cancelling })
  | .cancelling =>
    some ({ s with rootCancelled := true }.setShutdown index { shutdown with stage := .taking })
  | .taking =>
    if s.isLocked then none
    else
      some ({ s with registry := ∅ }.setShutdown index
        ⟨.joining s.registry.toList [], s.registry.keys⟩)
  | .joining ((ordinal, _) :: left) unjoined =>
    if s.isComplete ordinal then
      some (s.setShutdown index { shutdown with stage := .joining left unjoined })
    else none
  | .joining [] unjoined =>
    some (s.setShutdown index { shutdown with stage := .returned unjoined })
  | .returned _ => none

/-- The deadline passes before the next task has ended. -/
def expire (s : Inner) (index : Nat) (shutdown : Shutdown) : Option Inner :=
  match shutdown.stage with
  | .joining ((ordinal, name) :: left) unjoined => do
    let task ← s.tasks[ordinal]?
    if task.isComplete then none
    else
      some ((s.setTask ordinal { task with aborting := true }).setShutdown index
        { shutdown with stage := .joining left (unjoined ++ [name]) })
  | _ => none

inductive Action
  | spawn (name : TaskName)
  | callProvider (operation : TaskName)
  | shutdown
  | register (call : Nat)
  | answer (ordinal : Nat)
  | finish (ordinal : Nat)
  | reap (ordinal : Nat)
  | stop (index : Nat)
  | expire (index : Nat)

def step (s : Inner) : Action → Option Inner
  | .spawn name => some { s with calls := s.calls ++ [⟨name, false, .checking⟩] }
  | .callProvider operation => some { s with calls := s.calls ++ [⟨operation, true, .reserving⟩] }
  | .shutdown => some { s with shutdowns := s.shutdowns ++ [⟨.storing, []⟩] }
  | .register index => do
    let call ← s.calls[index]?
    let (s, next) ← s.register call
    some { s with calls := proceed s.calls index next }
  | .answer ordinal => do
    let task ← s.tasks[ordinal]?
    if task.progress = .running then some (s.setTask ordinal { task with progress := .answered })
    else none
  | .finish ordinal => do
    let task ← s.tasks[ordinal]?
    s.finish ordinal task
  | .reap ordinal => do
    let task ← s.tasks[ordinal]?
    if task.progress = .running ∧ task.aborting = true then
      some (s.setTask ordinal { task with progress := .aborted })
    else none
  | .stop index => do
    let shutdown ← s.shutdowns[index]?
    s.stop index shutdown
  | .expire index => do
    let shutdown ← s.shutdowns[index]?
    s.expire index shutdown

/-- How a call goes on without anything else happening. -/
inductive Moved (s : Inner) (call : Call) : Option Call → Prop
  | refusedSlot (stage : call.stage = .reserving) (down : s.shuttingDown = true) : Moved s call none
  | reserves (stage : call.stage = .reserving) (up : s.shuttingDown = false) :
      Moved s call (some { call with stage := .counting })
  | refused (stage : call.stage = .checking ∧ s.shuttingDown = true ∨
      call.stage = .locking ∧ s.isLocked = false ∧ s.config.maxTasks ≤ s.registry.size) :
      Moved s call (refused call)
  | checked (stage : call.stage = .checking) (up : s.shuttingDown = false) :
      Moved s call (some { call with stage := .locking })

/-- How a shutdown goes on without anything else happening. -/
inductive Joined (s : Inner) : Stopping → Stopping → Prop
  | joined {ordinal : Nat} {name : TaskName} {left : List (Nat × TaskName)} {unjoined : List TaskName}
      (complete : s.isComplete ordinal = true) :
      Joined s (.joining ((ordinal, name) :: left) unjoined) (.joining left unjoined)
  | returned {unjoined : List TaskName} : Joined s (.joining [] unjoined) (.returned unjoined)

/-- What one step can do. -/
inductive Stepped (s : Inner) : Inner → Prop
  | began {call : Call}
      (fresh : call.provider = false ∧ call.stage = .checking ∨
        call.provider = true ∧ call.stage = .reserving) :
      Stepped s { s with calls := s.calls ++ [call] }
  | moved {index : Nat} {call : Call} {next : Option Call} (found : s.calls[index]? = some call)
      (moved : Moved s call next) : Stepped s { s with calls := proceed s.calls index next }
  | counted {index : Nat} {call : Call} (found : s.calls[index]? = some call)
      (stage : call.stage = .counting) :
      Stepped s { s with
        providerOperations := s.providerOperations + 1
        calls := proceed s.calls index (some { call with stage :=
          if s.config.maxProviderOperations ≤ s.providerOperations then .releasing else .checking }) }
  | yielded {index : Nat} {call : Call} (found : s.calls[index]? = some call)
      (stage : call.stage = .releasing ∨ call.stage = .yielding) :
      Stepped s { s with
        providerOperations := s.providerOperations - 1
        calls := proceed s.calls index none }
  | spawned {index : Nat} {call : Call} (found : s.calls[index]? = some call)
      (stage : call.stage = .locking) (free : s.isLocked = false)
      (room : s.registry.size < s.config.maxTasks) :
      Stepped s { s with
        tasks := s.tasks ++ [⟨call.name, call.provider, false, .running⟩]
        calls := proceed s.calls index (some { call with stage := .inserting s.tasks.length }) }
  | inserted {index ordinal : Nat} {call : Call} (found : s.calls[index]? = some call)
      (stage : call.stage = .inserting ordinal) :
      Stepped s { s with
        registry := s.registry.insert ordinal call.name
        calls := proceed s.calls index none }
  | answered {ordinal : Nat} {task : Task} (found : s.tasks[ordinal]? = some task)
      (running : task.progress = .running) :
      Stepped s (s.setTask ordinal { task with progress := .answered })
  | released {ordinal : Nat} {task : Task} (found : s.tasks[ordinal]? = some task)
      (answered : task.progress = .answered) :
      Stepped s ((if task.provider then s.releaseProviderSlot else s).setTask ordinal
        { task with progress := .released })
  | finished {ordinal : Nat} {task : Task} (found : s.tasks[ordinal]? = some task)
      (released : task.progress = .released) (free : s.isLocked = false) :
      Stepped s ({ s with registry := s.registry.erase ordinal }.setTask ordinal
        { task with progress := .finished })
  | reaped {ordinal : Nat} {task : Task} (found : s.tasks[ordinal]? = some task)
      (running : task.progress = .running) (aborting : task.aborting = true) :
      Stepped s (s.setTask ordinal { task with progress := .aborted })
  | stopped : Stepped s { s with shutdowns := s.shutdowns ++ [⟨.storing, []⟩] }
  | stored {index : Nat} {shutdown : Shutdown} (found : s.shutdowns[index]? = some shutdown)
      (stage : shutdown.stage = .storing) :
      Stepped s ({ s with shuttingDown := true }.setShutdown index
        { shutdown with stage := .cancelling })
  | cancelled {index : Nat} {shutdown : Shutdown} (found : s.shutdowns[index]? = some shutdown)
      (stage : shutdown.stage = .cancelling) :
      Stepped s ({ s with rootCancelled := true }.setShutdown index { shutdown with stage := .taking })
  | took {index : Nat} {shutdown : Shutdown} (found : s.shutdowns[index]? = some shutdown)
      (stage : shutdown.stage = .taking) (free : s.isLocked = false) :
      Stepped s ({ s with registry := ∅ }.setShutdown index
        ⟨.joining s.registry.toList [], s.registry.keys⟩)
  | joined {index : Nat} {shutdown : Shutdown} {next : Stopping}
      (found : s.shutdowns[index]? = some shutdown) (joined : Joined s shutdown.stage next) :
      Stepped s (s.setShutdown index { shutdown with stage := next })
  | expired {index ordinal : Nat} {name : TaskName} {shutdown : Shutdown} {task : Task}
      {left : List (Nat × TaskName)} {unjoined : List TaskName}
      (found : s.shutdowns[index]? = some shutdown)
      (stage : shutdown.stage = .joining ((ordinal, name) :: left) unjoined)
      (present : s.tasks[ordinal]? = some task) (runs : task.isComplete = false) :
      Stepped s ((s.setTask ordinal { task with aborting := true }).setShutdown index
        { shutdown with stage := .joining left (unjoined ++ [name]) })

variable {s t : Inner} {action : Action}

theorem Stepped.of_register {index : Nat} {call : Call} {next : Option Call} {u : Inner}
    (found : s.calls[index]? = some call) (admitted : s.register call = some (u, next)) :
    Stepped s { u with calls := proceed u.calls index next } := by
  unfold register at admitted
  split at admitted
  · rename_i stage
    cases admitted
    split
    · exact .moved found (.refusedSlot stage ‹_›)
    · exact .moved found (.reserves stage (Bool.of_not_eq_true ‹_›))
  · cases admitted
    exact .counted found ‹_›
  · cases admitted
    exact .yielded found (.inl ‹_›)
  · cases admitted
    exact .yielded found (.inr ‹_›)
  · rename_i stage
    cases admitted
    split
    · exact .moved found (.refused (.inl ⟨stage, ‹_›⟩))
    · exact .moved found (.checked stage (Bool.of_not_eq_true ‹_›))
  · rename_i stage
    split at admitted
    · cases admitted
    · rename_i free
      have free := Bool.of_not_eq_true free
      split at admitted
      · cases admitted
        exact .moved found (.refused (.inr ⟨stage, free, ‹_›⟩))
      · rename_i room
        cases admitted
        exact .spawned found stage free (Nat.lt_of_not_le room)
  · cases admitted
    exact .inserted found ‹_›

theorem Stepped.of_stop {index : Nat} {shutdown : Shutdown}
    (found : s.shutdowns[index]? = some shutdown) (stopped : s.stop index shutdown = some t) :
    Stepped s t := by
  unfold stop at stopped
  split at stopped
  · cases stopped
    exact .stored found ‹_›
  · cases stopped
    exact .cancelled found ‹_›
  · split at stopped
    · cases stopped
    · rename_i free
      cases stopped
      exact .took found ‹_› (Bool.of_not_eq_true free)
  · rename_i stage
    split at stopped
    · cases stopped
      exact .joined found (stage ▸ .joined ‹_›)
    · cases stopped
  · rename_i stage
    cases stopped
    exact .joined found (stage ▸ .returned)
  · cases stopped

theorem Stepped.of_step (stepped : s.step action = some t) : Stepped s t := by
  cases action with
  | spawn name =>
    cases stepped
    exact .began (.inl ⟨rfl, rfl⟩)
  | callProvider operation =>
    cases stepped
    exact .began (.inr ⟨rfl, rfl⟩)
  | shutdown =>
    cases stepped
    exact .stopped
  | register index =>
    obtain ⟨call, found, goes⟩ := Option.bind_eq_some_iff.mp stepped
    obtain ⟨⟨u, next⟩, admitted, same⟩ := Option.bind_eq_some_iff.mp goes
    cases same
    exact .of_register found admitted
  | answer ordinal =>
    obtain ⟨task, found, goes⟩ := Option.bind_eq_some_iff.mp stepped
    obtain ⟨running, same⟩ := Option.ite_none_right_eq_some.mp goes
    cases same
    exact .answered found running
  | finish ordinal =>
    obtain ⟨task, found, goes⟩ := Option.bind_eq_some_iff.mp stepped
    unfold finish at goes
    split at goes
    · cases goes
      exact .released found ‹_›
    · split at goes
      · cases goes
      · rename_i free
        cases goes
        exact .finished found ‹_› (Bool.of_not_eq_true free)
    · cases goes
    · cases goes
    · cases goes
  | reap ordinal =>
    obtain ⟨task, found, goes⟩ := Option.bind_eq_some_iff.mp stepped
    obtain ⟨⟨running, aborting⟩, same⟩ := Option.ite_none_right_eq_some.mp goes
    cases same
    exact .reaped found running aborting
  | stop index =>
    obtain ⟨shutdown, found, goes⟩ := Option.bind_eq_some_iff.mp stepped
    exact .of_stop found goes
  | expire index =>
    obtain ⟨shutdown, found, goes⟩ := Option.bind_eq_some_iff.mp stepped
    unfold expire at goes
    split at goes
    · obtain ⟨task, present, same⟩ := Option.bind_eq_some_iff.mp goes
      split at same
      · cases same
      · rename_i runs
        cases same
        exact .expired found ‹_› present (Bool.of_not_eq_true runs)
    · cases goes

theorem config_of_stepped (stepped : Stepped s t) : t.config = s.config := by
  cases stepped with
  | released =>
    show (if _ then s.releaseProviderSlot else s).config = _
    split <;> rfl
  | _ => rfl

end Inner

end Fava.Runtime
