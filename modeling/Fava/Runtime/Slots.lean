import Fava.Runtime.Registry

namespace Fava.Runtime

open Std Fava.Lib

/-- The call counts as a running provider operation. -/
def Call.holdsSlot (call : Call) : Bool :=
  call.provider && match call.stage with
    | .releasing | .checking | .locking | .yielding => true
    | .reserving | .counting | .inserting _ => false

/-- The call was given one of the slots there are. -/
def Call.isAdmitted (call : Call) : Bool := call.holdsSlot && call.stage ≠ .releasing

/-- A task that was dropped never gives its slot back. -/
def Task.holdsSlot (task : Task) : Bool :=
  task.provider && match task.progress with
    | .running | .answered | .aborted => true
    | .released | .finished => false

namespace Inner

variable {s t : Inner} {config : RuntimeConfig} {actions : List Action}

/-- Only provider calls deal with slots. -/
def Sorted (call : Call) : Prop := call.provider = false →
  call.stage ≠ .reserving ∧ call.stage ≠ .counting ∧ call.stage ≠ .releasing ∧ call.stage ≠ .yielding

/-- The counter is the number of those that hold a slot, of which there are never more than
configured. -/
structure Slotted (s : Inner) : Prop where
  sorted : ∀ call ∈ s.calls, Sorted call
  counted : s.providerOperations = s.calls.countP Call.holdsSlot + s.tasks.countP Task.holdsSlot
  bounded : s.calls.countP Call.isAdmitted + s.tasks.countP Task.holdsSlot ≤
    s.config.maxProviderOperations

theorem holdsSlot_refused (call : Call) : (refused call).any Call.holdsSlot = call.provider ∧
    (refused call).any Call.isAdmitted = call.provider := by
  unfold refused
  split <;> simp_all [Call.holdsSlot, Call.isAdmitted]

theorem sorted_step (sorted : ∀ call ∈ s.calls, Sorted call) (stepped : Stepped s t) :
    ∀ call ∈ t.calls, Sorted call := by
  cases stepped with
  | began fresh =>
    intro other member plain
    obtain member | same := List.mem_append.mp member
    · exact sorted other member plain
    · rw [List.mem_singleton.mp same] at plain ⊢
      obtain ⟨-, stage⟩ | ⟨provider, -⟩ := fresh
      · simp [stage]
      · rw [plain] at provider
        cases provider
  | @moved index call next found moved =>
    refine forall_mem_proceed sorted found fun other is plain => ?_
    have mine := sorted call (List.mem_of_getElem? found)
    cases moved with
    | refusedSlot => cases is
    | reserves stage =>
      cases is
      exact absurd stage (mine plain).1
    | refused =>
      unfold refused at is
      split at is
      · cases is
        simp_all
      · cases is
    | checked =>
      cases is
      simp
  | @counted index call found stage =>
    show ∀ call ∈ proceed s.calls index (some _), Sorted call
    refine forall_mem_proceed sorted found fun other is plain => ?_
    cases is
    exact absurd stage (sorted call (List.mem_of_getElem? found) plain).2.1
  | @yielded index _ found | @inserted index _ _ found =>
    show ∀ call ∈ proceed s.calls index none, Sorted call
    exact forall_mem_proceed sorted found fun _ is => by cases is
  | @spawned index _ found =>
    show ∀ call ∈ proceed s.calls index (some _), Sorted call
    refine forall_mem_proceed sorted found fun other is plain => ?_
    cases is
    simp
  | released =>
    intro other member
    refine sorted other ?_
    split at member <;> exact member
  | _ => exact sorted

theorem isAdmitted_le (calls : List Call) :
    calls.countP Call.isAdmitted ≤ calls.countP Call.holdsSlot :=
  List.countP_mono_left fun _ _ admitted => (Bool.and_eq_true_iff.mp admitted).1

theorem Moved.holds {call : Call} {next : Option Call} (moved : Moved s call next) :
    next.any Call.holdsSlot = call.holdsSlot ∧ next.any Call.isAdmitted = call.isAdmitted := by
  cases moved with
  | refusedSlot stage | reserves stage | checked stage =>
    simp [Call.isAdmitted, Call.holdsSlot, stage]
  | refused stage =>
    obtain ⟨holds, admitted⟩ := holdsSlot_refused call
    rw [holds, admitted]
    obtain ⟨stage, -⟩ | ⟨stage, -⟩ := stage <;> simp [Call.isAdmitted, Call.holdsSlot, stage]

/-- What keeps the counter, the slots that are held and the configuration. -/
theorem Slotted.keeps (slotted : Slotted s) (sorted : ∀ call ∈ t.calls, Sorted call)
    (config : t.config = s.config) (counter : t.providerOperations = s.providerOperations)
    (holding : t.calls.countP Call.holdsSlot = s.calls.countP Call.holdsSlot)
    (admitted : t.calls.countP Call.isAdmitted = s.calls.countP Call.isAdmitted)
    (tasks : t.tasks.countP Task.holdsSlot = s.tasks.countP Task.holdsSlot) : Slotted t := by
  refine ⟨sorted, ?_, ?_⟩
  · rw [counter, holding, tasks]
    exact slotted.counted
  · rw [config, admitted, tasks]
    exact slotted.bounded

theorem Slotted.setTask (slotted : Slotted s) {ordinal : Nat} {task later : Task}
    (found : s.tasks[ordinal]? = some task) (same : later.holdsSlot = task.holdsSlot) :
    Slotted (s.setTask ordinal later) :=
  slotted.keeps slotted.sorted rfl rfl rfl rfl (countP_proceed_same found (some later) same)

theorem Slotted.step (slotted : Slotted s) (stepped : Stepped s t) : Slotted t := by
  have sorted := sorted_step slotted.sorted stepped
  have counted := slotted.counted
  have bounded := slotted.bounded
  have held := isAdmitted_le s.calls
  cases stepped with
  | @began call fresh =>
    have plain : call.holdsSlot = false ∧ call.isAdmitted = false := by
      obtain ⟨provider, -⟩ | ⟨-, stage⟩ := fresh
      · simp [Call.isAdmitted, Call.holdsSlot, provider]
      · simp [Call.isAdmitted, Call.holdsSlot, stage]
    refine slotted.keeps sorted rfl rfl ?_ ?_ rfl
    · rw [List.countP_append, List.countP_singleton, plain.1]
      rfl
    · rw [List.countP_append, List.countP_singleton, plain.2]
      rfl
  | moved found moved =>
    obtain ⟨holds, admitted⟩ := moved.holds
    exact slotted.keeps sorted rfl rfl (countP_proceed_same found _ holds)
      (countP_proceed_same found _ admitted) rfl
  | @counted index call found stage =>
    have provider : call.provider = true := Bool.of_not_eq_false fun plain =>
      (slotted.sorted call (List.mem_of_getElem? found) plain).2.1 stage
    have before : call.holdsSlot = false ∧ call.isAdmitted = false := by
      simp [Call.isAdmitted, Call.holdsSlot, stage]
    by_cases full : (s.config.maxProviderOperations : Int) ≤ s.providerOperations
    · rw [if_pos full] at sorted ⊢
      have holds := countP_proceed Call.holdsSlot found (some { call with stage := .releasing })
      have admits := countP_proceed Call.isAdmitted found (some { call with stage := .releasing })
      have after : Call.holdsSlot { call with stage := .releasing } = true ∧
          Call.isAdmitted { call with stage := .releasing } = false := by
        simp [Call.isAdmitted, Call.holdsSlot, provider]
      simp only [before, after, Option.any_some, Bool.false_eq_true, if_false, if_true] at holds admits
      refine ⟨sorted, ?_, ?_⟩
      · show s.providerOperations + 1 = ((proceed s.calls index (some _)).countP _ : Int) +
          (s.tasks.countP Task.holdsSlot : Nat)
        omega
      · show (proceed s.calls index (some _)).countP _ + s.tasks.countP Task.holdsSlot ≤
          s.config.maxProviderOperations
        omega
    · rw [if_neg full] at sorted ⊢
      have holds := countP_proceed Call.holdsSlot found (some { call with stage := .checking })
      have admits := countP_proceed Call.isAdmitted found (some { call with stage := .checking })
      have after : Call.holdsSlot { call with stage := .checking } = true ∧
          Call.isAdmitted { call with stage := .checking } = true := by
        simp [Call.isAdmitted, Call.holdsSlot, provider]
      simp only [before, after, Option.any_some, Bool.false_eq_true, if_false, if_true] at holds admits
      refine ⟨sorted, ?_, ?_⟩
      · show s.providerOperations + 1 = ((proceed s.calls index (some _)).countP _ : Int) +
          (s.tasks.countP Task.holdsSlot : Nat)
        omega
      · show (proceed s.calls index (some _)).countP _ + s.tasks.countP Task.holdsSlot ≤
          s.config.maxProviderOperations
        omega
  | @yielded index call found stage =>
    have provider : call.provider = true := Bool.of_not_eq_false fun plain => by
      have apart := slotted.sorted call (List.mem_of_getElem? found) plain
      exact stage.elim apart.2.2.1 apart.2.2.2
    have holds := countP_proceed Call.holdsSlot found none
    have admits := countP_proceed Call.isAdmitted found none
    have before : call.holdsSlot = true := by
      obtain stage | stage := stage <;> simp [Call.holdsSlot, stage, provider]
    simp only [before, Option.any_none, Bool.false_eq_true, if_false, if_true] at holds admits
    refine ⟨sorted, ?_, ?_⟩
    · show s.providerOperations - 1 = ((proceed s.calls index none).countP _ : Int) +
        (s.tasks.countP Task.holdsSlot : Nat)
      omega
    · show (proceed s.calls index none).countP _ + s.tasks.countP Task.holdsSlot ≤
        s.config.maxProviderOperations
      omega
  | @spawned index call found stage =>
    have holds := countP_proceed Call.holdsSlot found
      (some { call with stage := .inserting s.tasks.length })
    have admits := countP_proceed Call.isAdmitted found
      (some { call with stage := .inserting s.tasks.length })
    have before : call.holdsSlot = call.provider ∧ call.isAdmitted = call.provider := by
      simp [Call.isAdmitted, Call.holdsSlot, stage]
    have after : Call.holdsSlot { call with stage := .inserting s.tasks.length } = false ∧
        Call.isAdmitted { call with stage := .inserting s.tasks.length } = false := by
      simp [Call.isAdmitted, Call.holdsSlot]
    let task : Task := ⟨call.name, call.provider, false, .running⟩
    have same : task.holdsSlot = call.provider := by simp [task, Task.holdsSlot]
    simp only [before, after, Option.any_some, Bool.false_eq_true, if_false] at holds admits
    have tasks : (s.tasks ++ [task]).countP Task.holdsSlot =
        s.tasks.countP Task.holdsSlot + if call.provider = true then 1 else 0 := by
      rw [List.countP_append, List.countP_singleton, same]
    refine ⟨sorted, ?_, ?_⟩
    · show s.providerOperations = ((proceed s.calls index (some _)).countP _ : Int) +
        ((s.tasks ++ [task]).countP _ : Nat)
      rw [tasks]
      omega
    · show (proceed s.calls index (some _)).countP _ + (s.tasks ++ [task]).countP _ ≤
        s.config.maxProviderOperations
      rw [tasks]
      omega
  | inserted found stage =>
    refine slotted.keeps sorted rfl rfl (countP_proceed_same found none ?_) (countP_proceed_same found none ?_) rfl
    · simp [Call.holdsSlot, stage]
    · simp [Call.isAdmitted, Call.holdsSlot, stage]
  | answered found running =>
    exact slotted.setTask found (by simp [Task.holdsSlot, running])
  | @released ordinal task found answered =>
    have holds := countP_proceed Task.holdsSlot found (some { task with progress := .released })
    have before : task.holdsSlot = task.provider := by simp [Task.holdsSlot, answered]
    have after : Task.holdsSlot { task with progress := .released } = false := by
      simp [Task.holdsSlot]
    simp only [before, after, Option.any_some, Bool.false_eq_true, if_false] at holds
    split at sorted
    · rename_i provider
      rw [if_pos provider] at holds ⊢
      refine ⟨sorted, ?_, ?_⟩
      · show s.providerOperations - 1 = (s.calls.countP Call.holdsSlot : Int) +
          ((proceed s.tasks ordinal (some _)).countP _ : Nat)
        omega
      · show s.calls.countP Call.isAdmitted + (proceed s.tasks ordinal (some _)).countP _ ≤
          s.config.maxProviderOperations
        omega
    · rename_i plain
      rw [if_neg plain]
      exact slotted.setTask found (by rw [before, after, Bool.of_not_eq_true plain])
  | finished found released =>
    exact slotted.keeps sorted rfl rfl rfl rfl
      (countP_proceed_same found (some _) (by simp [Task.holdsSlot, released]))
  | reaped found running =>
    exact slotted.setTask found (by simp [Task.holdsSlot, running])
  | expired found stage present =>
    exact slotted.keeps sorted rfl rfl rfl rfl
      (countP_proceed_same present (some _) (by simp [Task.holdsSlot]))
  | stopped | stored | cancelled | took | joined => exact slotted.keeps sorted rfl rfl rfl rfl rfl

/-- Over every run of any calls, tasks and shutdowns, the counter of provider operations is
the number of those that hold a slot, and no more of them were ever let in than configured:
no slot is given back twice, and none is lost except by a task that shutdown aborted. -/
theorem slots_accounted (run : Run step Free (.new config) actions s) :
    s.runningProviderOperations =
        ((s.calls.countP Call.holdsSlot + s.tasks.countP Task.holdsSlot : Nat) : Int) ∧
      s.calls.countP Call.isAdmitted + s.tasks.countP Task.holdsSlot ≤ config.maxProviderOperations := by
  have both : Slotted s ∧ s.config = config := by
    refine run.invariant (fun s => Slotted s ∧ s.config = config) ⟨⟨(fun _ member => by cases member), rfl, Nat.zero_le _⟩, rfl⟩ ?_
    intro s action t both _ stepped
    have stepped := Stepped.of_step stepped
    exact ⟨both.1.step stepped, (config_of_stepped stepped).trans both.2⟩
  obtain ⟨slotted, same⟩ := both
  exact ⟨slotted.counted, same ▸ slotted.bounded⟩

/-- Two providers are called at once where one slot is configured; the first is spawned. -/
def oneSlotTwoCalls : List Action :=
  [.callProvider "sign", .callProvider "open", .register 0, .register 0, .register 1, .register 1,
    .register 0, .register 0, .register 0]

theorem slots_accounted_two_calls : ∃ s, Run step Free (.new ⟨4, 1⟩) oneSlotTwoCalls s ∧
    s.runningProviderOperations = 2 ∧
    s.calls.countP Call.isAdmitted + s.tasks.countP Task.holdsSlot ≤ 1 := by
  have ran : (exec step Free (.new ⟨4, 1⟩) oneSlotTwoCalls).any (fun s =>
      s.calls.countP Call.holdsSlot = 1 ∧ s.tasks.countP Task.holdsSlot = 1) = true := by
    decide +kernel
  obtain ⟨s, run, checked⟩ := Run.of_any ran
  obtain ⟨calls, tasks⟩ := of_decide_eq_true checked
  obtain ⟨counted, bounded⟩ := slots_accounted run
  rw [calls, tasks] at counted
  exact ⟨s, run, counted, bounded⟩

end Inner

end Fava.Runtime
