import Fava.Lib.Watching
import Fava.Publication.Completion
import Fava.WriteStore.Memory.Atomicity
import Fava.WriteStore.Memory.Lanes

namespace Fava.Publication

open Std Fava.Lib Fava.Nostr Fava.Write Fava.WriteStore Fava.WriteStore.Memory

/-- The errors of a publication that end a wait. -/
inductive WaitError
  | receiptMissing (receiptId : ReceiptId)
deriving DecidableEq

/-- The changes of receipts that are kept for whoever waits for them. -/
def receiptChangeCapacity : Nat := 256

/-- Who waits until a receipt is as wanted or has ended. -/
def waitUntil (receiptId : ReceiptId) (predicate : Receipt → Bool) :
    Watcher ReceiptId Receipt (Except WaitError (Receipt × Bool)) where
  key := receiptId
  decides
    | none => some (.error (.receiptMissing receiptId))
    | some receipt =>
      if predicate receipt then some (.ok (receipt, true))
      else if receipt.isTerminal then some (.ok (receipt, false))
      else none
  removed := .error (.receiptMissing receiptId)

structure Waiter where
  receiptId : ReceiptId
  predicate : Receipt → Bool
  stage : WatchStage (Except WaitError (Receipt × Bool))

/-- A store and who waits for some of its receipts. -/
structure Waits where
  store : Locked.MemoryWriteStore
  waiters : List Waiter

namespace Waits

def new : Waits := ⟨.default, []⟩

def value (ledger : WriteState) (receiptId : ReceiptId) : Option Receipt := ledger.writes[receiptId]?

inductive Action
  | store (action : WriteStore.Memory.Action)
  | wait (receiptId : ReceiptId) (predicate : Receipt → Bool)
  | advance (index : Nat)

def step (N : Library) (capacity : Nat) (s : Waits) : Action → Option Waits
  | .store action => some { s with store := (Locked.call N capacity s.store action).2 }
  | .wait receiptId predicate =>
    some { s with waiters := s.waiters ++ [⟨receiptId, predicate, .subscribing⟩] }
  | .advance index => do
    let waiter ← s.waiters[index]?
    let watcher := waitUntil waiter.receiptId waiter.predicate
    let next ← watcher.advance receiptChangeCapacity (value s.store.toWriteState)
      s.store.receiptChanges waiter.stage
    some { s with waiters := s.waiters.set index { waiter with stage := next } }

variable {N : Library} {capacity : Nat} {s t : Waits} {actions : List Action} {waiter : Waiter}
  {index : Nat}

theorem undecided {receiptId : ReceiptId} {predicate : Receipt → Bool} {latest : Option Receipt}
    (undecided : (waitUntil receiptId predicate).decides latest = none) :
    ∃ receipt, latest = some receipt ∧ predicate receipt = false ∧ receipt.isTerminal = false := by
  unfold waitUntil at undecided
  dsimp only at undecided
  split at undecided
  · cases undecided
  · rename_i receipt
    split at undecided
    · cases undecided
    · split at undecided
      · cases undecided
      · exact ⟨receipt, rfl, Bool.of_not_eq_true ‹_›, Bool.of_not_eq_true ‹_›⟩

/-- Every waiter is informed, and receipts are kept under the identities they are announced by. -/
structure Informed (s : Waits) : Prop where
  keyed : Locked.Keyed s.store.toWriteState
  waiters : ∀ waiter ∈ s.waiters, (waitUntil waiter.receiptId waiter.predicate).Informed
    (value s.store.toWriteState) s.store.receiptChanges waiter.stage

theorem Informed.new : Informed new where
  keyed r receipt found := by
    simp only [Waits.new, Locked.MemoryWriteStore.default, WriteState.default,
      ExtTreeMap.getElem?_empty] at found
    cases found
  waiters _ member := by cases member

theorem Informed.step {action : Action} (informed : Informed s)
    (stepped : step N capacity s action = some t) : Informed t := by
  obtain ⟨keyed, waiters⟩ := informed
  cases action with
  | store action =>
    cases stepped
    refine ⟨keyed_call keyed action, fun waiter member => ?_⟩
    obtain ⟨more, sent, announced⟩ :
        Locked.Announces s.store (Locked.call N capacity s.store action).2 := (call_ends action).2
    dsimp only
    rw [sent]
    exact (waiters waiter member).sends (announced keyed)
  | wait receiptId predicate =>
    cases stepped
    refine ⟨keyed, List.forall_mem_append.mpr ⟨waiters, List.forall_mem_singleton.mpr ?_⟩⟩
    trivial
  | advance index =>
    obtain ⟨waiter, found, goes⟩ := Option.bind_eq_some_iff.mp stepped
    obtain ⟨next, advanced, same⟩ := Option.bind_eq_some_iff.mp goes
    cases same
    refine ⟨keyed, fun other member => ?_⟩
    obtain old | rfl := List.mem_or_eq_of_mem_set member
    · exact waiters other old
    · exact ((waiters waiter (List.mem_of_getElem? found)).advance advanced).1

/-- Whatever the store and others do meanwhile, and however many changes are lost, a call of
`wait_until` left alone returns, unless the receipt is there, not as wanted and open. -/
theorem wait_misses_nothing (run : Run (step N capacity) Free new actions s)
    (member : waiter ∈ s.waiters) :
    ∃ steps next, Run ((waitUntil waiter.receiptId waiter.predicate).alone receiptChangeCapacity
        (value s.store.toWriteState) s.store.receiptChanges) Free waiter.stage steps next ∧
      steps.length ≤ 2 * receiptChangeCapacity + 4 ∧
      ((∃ result, next = .returned result) ∨
        ∃ receipt, s.store.writes[waiter.receiptId]? = some receipt ∧
          waiter.predicate receipt = false ∧ receipt.isTerminal = false) := by
  have informed : Informed s :=
    run.invariant Informed .new fun _ _ _ informed _ => informed.step
  obtain ⟨steps, next, run, short, settled⟩ := (informed.waiters waiter member).settles
  exact ⟨steps, next, run, short, settled.imp_right undecided⟩

/-- A receipt is cancelled while someone waits for its end. -/
def cancelledMeanwhile : List Action :=
  [.store (.accept ⟨.presigned note, .automatic, .unauthenticated⟩),
    .wait 1 Receipt.isTerminal, .advance 0, .advance 0, .store (.cancel 1)]

theorem wait_misses_nothing_cancelled : ∃ s waiter steps result,
    Run (step plainLibrary 10) Free new cancelledMeanwhile s ∧ waiter ∈ s.waiters ∧
      Run ((waitUntil waiter.receiptId waiter.predicate).alone receiptChangeCapacity
        (value s.store.toWriteState) s.store.receiptChanges) Free waiter.stage steps (.returned result) ∧
      steps.length ≤ 516 := by
  have ran : (exec (step plainLibrary 10) Free new cancelledMeanwhile).any (fun s =>
      s.waiters.any fun waiter => (s.store.writes[waiter.receiptId]?).all Receipt.isTerminal) = true := by
    decide +kernel
  obtain ⟨s, run, checked⟩ := Run.of_any ran
  obtain ⟨waiter, member, terminal⟩ := List.any_eq_true.mp checked
  obtain ⟨steps, next, own, short, ⟨result, rfl⟩ | ⟨receipt, found, -, isOpen⟩⟩ :=
    wait_misses_nothing run member
  · exact ⟨s, waiter, steps, result, run, member, own, short⟩
  · rw [found, Option.all_some, isOpen] at terminal
    cases terminal

end Waits

end Fava.Publication
