import Fava.WriteStore.Memory.Coherence
import Fava.WriteStore.Memory.Locked

namespace Fava.WriteStore.Memory

open Std Fava.Lib Fava.Nostr Fava.Relay Fava.Routing Fava.Write

/-- The error an operation answers with, if it does. -/
def errorOf {α σ : Type} : Except WriteStoreError α × σ → Option WriteStoreError
  | (.error error, _) => some error
  | (.ok _, _) => none

namespace Locked

/-- The error an operation is refused with, if it is, and the store it leaves. -/
def outcome {α : Type} (op : Transaction α) (state : MemoryWriteStore) :
    Option WriteStoreError × MemoryWriteStore := (errorOf (leaves op state), (leaves op state).2)

def call (N : Library) (capacity : Nat) (state : MemoryWriteStore) :
    Action → Option WriteStoreError × MemoryWriteStore
  | .reserveActive edit author => outcome (reserveActiveSlot capacity edit author) state
  | .releaseActive reservation => outcome (releaseActiveSlot reservation) state
  | .accept intent => outcome (accept capacity intent) state
  | .acceptAppliedEdit now intent event source =>
    outcome (acceptSemantic N capacity now intent event source) state
  | .acceptReservedAppliedEdit now reservation intent event source initialRoute =>
    outcome (acceptReservedSemantic N capacity now reservation intent event source initialRoute) state
  | .installRevision now writeId receiptId expected expectedSource appliedEdits event source
      initialRoute =>
    outcome (installSemantic N now writeId receiptId expected expectedSource appliedEdits event source
      initialRoute) state
  | .recordRevisionFailure writeId receiptId expected expectedSource source reason =>
    outcome (recordSemanticFailure N writeId receiptId expected expectedSource source reason) state
  | .installSigned writeId receiptId revisionId eventId event =>
    outcome (installSignedCurrent N writeId receiptId revisionId eventId event) state
  | .authorizeSigning writeId receiptId revisionId eventId =>
    outcome (authorizeSigningCurrent N writeId receiptId revisionId eventId) state
  | .recordSignerRetryable writeId receiptId revisionId eventId reason =>
    outcome (recordSignerRetryableCurrent N writeId receiptId revisionId eventId reason) state
  | .recordSignerRefusal writeId receiptId revisionId eventId reason =>
    outcome (recordSignerRefusalCurrent N writeId receiptId revisionId eventId reason) state
  | .applyRoute writeId receiptId revisionId eventId plan =>
    outcome (applyRouteCurrent N writeId receiptId revisionId eventId plan) state
  | .beginAttempt writeId receiptId revisionId eventId session attempt =>
    outcome (beginAttemptCurrent writeId receiptId revisionId eventId session attempt) state
  | .recordOutcome writeId receiptId revisionId eventId session attempt result =>
    outcome (recordOutcomeCurrent writeId receiptId revisionId eventId session attempt result) state
  | .cancel receiptId => outcome (cancel receiptId) state
  | .removeReceipt receiptId => outcome (removeReceipt receiptId) state

/-- Every call leaves a store, whether it is refused or not. -/
def step (N : Library) (capacity : Nat) (state : MemoryWriteStore) (action : Action) :
    Option MemoryWriteStore := some (call N capacity state action).2

end Locked

/-- The reservation an action presents. -/
def presented : Action → Option Nat
  | .acceptReservedAppliedEdit _ reservation _ _ _ _ => some reservation
  | _ => none

variable {N : Library} {capacity : Nat} {s : WriteState} {r : ReceiptId} {error : WriteStoreError}

theorem atomically_error {α : Type} {f : WriteState → Except WriteStoreError (α × WriteState)}
    (failed : errorOf (atomically f s) = some error) : (atomically f s).2 = s := by
  unfold atomically at failed ⊢
  split
  · rename_i done
    rw [done] at failed
    cases failed
  · rfl

/-- A reservation that was matched is consumed, and nothing else is touched. -/
theorem acceptSemanticInner_error {now : Timestamp} {reservation : Option Nat} {intent : WriteIntent}
    {event : UnsignedEvent} {source : Option EventValue} {initialRoute : Option RoutePlan}
    (failed : errorOf (acceptSemanticInner N capacity now reservation intent event source initialRoute
      s) = some error) :
    (acceptSemanticInner N capacity now reservation intent event source initialRoute s).2 = s ∨
      ∃ id ∈ reservation,
        (acceptSemanticInner N capacity now reservation intent event source initialRoute s).2 =
          { s with reservations := s.reservations.erase id } := by
  unfold acceptSemanticInner at failed ⊢
  split
  · rename_i edit author payload
    rw [payload] at failed
    dsimp only at failed
    split
    · exact .inl rfl
    · rename_i taken took
      rw [took] at failed
      rw [atomically_error failed]
      unfold takeReservation at took
      split at took
      · cases took
        exact .inl rfl
      · rename_i id
        obtain ⟨reserved, -, took⟩ := demand_bind_eq_ok.mp took
        obtain ⟨-, took⟩ := require_bind_eq_ok.mp took
        cases took
        exact .inr ⟨id, rfl, rfl⟩
  · exact .inl rfl

/-- A successor that waits is not lost: once it is taken out nothing can refuse it. -/
theorem promoteAuthorizedSuccessor_error (h : Coherent N s)
    (failed : errorOf (promoteAuthorizedSuccessor N r s) = some error) :
    (promoteAuthorizedSuccessor N r s).2 = s := by
  cases later : nextRevision s.revision with
  | error exhausted => rw [promoteAuthorizedSuccessor, later]
  | ok revision =>
    cases retained : s.successors[r]? with
    | none => rw [promoteAuthorizedSuccessor, later, retained]
    | some successor =>
      obtain ⟨receipt, cell, updated, c, -, -, -, -, -, -, -, -, done⟩ :=
        promoteAuthorizedSuccessor_eq h retained later
      rw [done] at failed
      cases failed

theorem concludeSigning_error {promotes : WriteState → Receipt → Bool}
    {standing : WriteState → Except WriteStoreError Standing} {recorded : Receipt → Receipt}
    (h : Coherent N s)
    (failed : errorOf (concludeSigning N r promotes standing recorded s) = some error) :
    (concludeSigning N r promotes standing recorded s).2 = s := by
  unfold concludeSigning at failed ⊢
  split
  · rfl
  · rfl
  · rename_i receipt stands
    rw [stands] at failed
    dsimp only at failed
    split
    · rename_i promotion
      rw [if_pos promotion] at failed
      exact promoteAuthorizedSuccessor_error h failed
    · rename_i stays
      rw [if_neg stays] at failed
      exact atomically_error failed

section Calls

open Locked (MemoryWriteStore EndsAs Keyed Announces call outcome)

variable {s : MemoryWriteStore} {α : Type} {op : Locked.Transaction α}
  {expected : Except WriteStoreError α × WriteState}

theorem left_eq (ends : EndsAs s expected (leaves op s)) :
    (outcome op s).2.toWriteState = expected.2 := congrArg Prod.snd ends.same

theorem refused_of_failed (failed : (outcome op s).1 = some error) :
    (leaves op s).1 = .error error := by
  unfold outcome errorOf at failed
  dsimp only at failed
  split at failed
  · rename_i refused
    rw [refused, ← Option.some.inj failed]
  · cases failed

theorem failed_eq (ends : EndsAs s expected (leaves op s)) (failed : (outcome op s).1 = some error) :
    errorOf expected = some error := by
  rw [← ends.same, refused_of_failed failed]
  rfl

/-- What is refused sends nothing, so that the store is left with the ledger it had. -/
theorem kept_of_failed (ends : EndsAs s expected (leaves op s))
    (failed : (outcome op s).1 = some error) :
    (outcome op s).2 = { s with toWriteState := expected.2 } := by
  have silent : (outcome op s).2.receiptChanges = s.receiptChanges :=
    ends.silent (by rw [refused_of_failed failed]; rfl)
  rw [← left_eq ends, ← silent]

theorem atomic_error {f : WriteState → Except WriteStoreError (α × WriteState)}
    (ends : EndsAs s (atomically f s.toWriteState) (leaves op s))
    (failed : (outcome op s).1 = some error) : (outcome op s).2 = s := by
  rw [kept_of_failed ends failed, atomically_error (failed_eq ends failed)]

theorem concluded_error {op : Locked.Transaction Receipt} {promotes : WriteState → Receipt → Bool}
    {standing : WriteState → Except WriteStoreError Standing} {recorded : Receipt → Receipt}
    (h : Coherent N s.toWriteState)
    (ends : EndsAs s (concludeSigning N r promotes standing recorded s.toWriteState) (leaves op s))
    (failed : (outcome op s).1 = some error) : (outcome op s).2 = s := by
  rw [kept_of_failed ends failed, concludeSigning_error h (failed_eq ends failed)]

/-- An acceptance that is refused has at most taken the reservation. -/
theorem acceptance_error {op : Locked.Transaction AcceptedWrite} {now : Timestamp}
    {reservation : Option Nat} {intent : WriteIntent} {event : UnsignedEvent}
    {source : Option EventValue} {initialRoute : Option RoutePlan}
    (ends : EndsAs s (acceptSemanticInner N capacity now reservation intent event source initialRoute
      s.toWriteState) (leaves op s)) (failed : (outcome op s).1 = some error) :
    (outcome op s).2 = s ∨ ∃ id ∈ reservation,
      (outcome op s).2 = { s with reservations := s.reservations.erase id } := by
  rw [kept_of_failed ends failed]
  obtain kept | ⟨id, presented, erased⟩ := acceptSemanticInner_error (failed_eq ends failed)
  · exact .inl (by rw [kept])
  · exact .inr ⟨id, presented, by rw [erased]⟩

/-- The writes a call makes in its own order leave what the operation leaves that writes
at its end, and whatever receipt they change is announced. -/
theorem call_ends (action : Action) :
    (call N capacity s action).2.toWriteState = perform N capacity s.toWriteState action ∧
      Announces s (call N capacity s action).2 := by
  have both {α : Type} {op : Locked.Transaction α} {expected : Except WriteStoreError α × WriteState}
      (ends : EndsAs s expected (leaves op s)) :
      (outcome op s).2.toWriteState = expected.2 ∧ Announces s (outcome op s).2 :=
    ⟨left_eq ends, ends.announces⟩
  cases action with
  | reserveActive => exact both (Locked.ends_reserveActiveSlot ..)
  | releaseActive => exact both (Locked.ends_releaseActiveSlot ..)
  | accept => exact both (Locked.ends_accept ..)
  | acceptAppliedEdit => exact both (Locked.ends_acceptSemanticInner ..)
  | acceptReservedAppliedEdit => exact both (Locked.ends_acceptSemanticInner ..)
  | installRevision => exact both (Locked.ends_installSemantic ..)
  | recordRevisionFailure => exact both (Locked.ends_recordSemanticFailure ..)
  | installSigned => exact both (Locked.ends_installSignedCurrent ..)
  | authorizeSigning => exact both (Locked.ends_authorizeSigningCurrent ..)
  | recordSignerRetryable => exact both (Locked.ends_recordSignerRetryableCurrent ..)
  | recordSignerRefusal => exact both (Locked.ends_recordSignerRefusalCurrent ..)
  | applyRoute => exact both (Locked.ends_applyRouteCurrent ..)
  | beginAttempt => exact both (Locked.ends_beginAttemptCurrent ..)
  | recordOutcome => exact both (Locked.ends_recordOutcomeCurrent ..)
  | cancel => exact both (Locked.ends_cancel ..)
  | removeReceipt => exact both (Locked.ends_removeReceipt ..)

theorem call_error (h : Coherent N s.toWriteState) (action : Action)
    (failed : (call N capacity s action).1 = some error) :
    (call N capacity s action).2 = s ∨ ∃ reservation ∈ presented action,
      (call N capacity s action).2 =
        { s with reservations := s.reservations.erase reservation } := by
  cases action with
  | reserveActive => exact .inl (atomic_error (Locked.ends_reserveActiveSlot ..) failed)
  | releaseActive => exact .inl (atomic_error (Locked.ends_releaseActiveSlot ..) failed)
  | accept => exact .inl (atomic_error (Locked.ends_accept ..) failed)
  | acceptAppliedEdit =>
    obtain kept | ⟨id, none, -⟩ := acceptance_error (Locked.ends_acceptSemanticInner ..) failed
    · exact .inl kept
    · cases none
  | acceptReservedAppliedEdit =>
    exact acceptance_error (Locked.ends_acceptSemanticInner ..) failed
  | installRevision => exact .inl (atomic_error (Locked.ends_installSemantic ..) failed)
  | recordRevisionFailure => exact .inl (atomic_error (Locked.ends_recordSemanticFailure ..) failed)
  | installSigned => exact .inl (concluded_error h (Locked.ends_installSignedCurrent ..) failed)
  | authorizeSigning => exact .inl (atomic_error (Locked.ends_authorizeSigningCurrent ..) failed)
  | recordSignerRetryable =>
    exact .inl (concluded_error h (Locked.ends_recordSignerRetryableCurrent ..) failed)
  | recordSignerRefusal =>
    exact .inl (concluded_error h (Locked.ends_recordSignerRefusalCurrent ..) failed)
  | applyRoute => exact .inl (atomic_error (Locked.ends_applyRouteCurrent ..) failed)
  | beginAttempt => exact .inl (atomic_error (Locked.ends_beginAttemptCurrent ..) failed)
  | recordOutcome => exact .inl (atomic_error (Locked.ends_recordOutcomeCurrent ..) failed)
  | cancel => exact .inl (atomic_error (Locked.ends_cancel ..) failed)
  | removeReceipt => exact .inl (atomic_error (Locked.ends_removeReceipt ..) failed)

/-- The ledger of a store goes the ways of a ledger that is written at the end of each call. -/
theorem ledger_coherent {actions : List Action}
    (run : Run (Locked.step N capacity) Free .default actions s) : Coherent N s.toWriteState := by
  refine run.invariant (fun s => Coherent N s.toWriteState) default_coherent ?_
  intro t action u coherent _ stepped
  obtain rfl := Option.some.inj stepped
  rw [(call_ends action).1]
  exact perform_coherent coherent action

theorem keyed_call (keyed : Keyed s.toWriteState) (action : Action) :
    Keyed (call N capacity s action).2.toWriteState := by
  rw [(call_ends action).1]
  intro r updated found
  obtain kept | ⟨receipt, before, changes⟩ | ⟨-, enters⟩ :=
    (perform_transition N capacity s.toWriteState action).receipts r updated found
  · exact keyed r updated kept
  · exact (names_of_changes changes).1.trans (keyed r receipt before)
  · exact (names_of_enters enters).1

end Calls

/-- In every reachable store an operation that is refused, whatever it wrote before, leaves
everything as it was, with nothing sent, but for a reservation that was presented to it. -/
theorem memory_errors_atomic {s : Locked.MemoryWriteStore} {actions : List Action}
    (run : Run (Locked.step N capacity) Free .default actions s) (action : Action)
    (failed : (Locked.call N capacity s action).1 = some error) :
    (Locked.call N capacity s action).2 = s ∨ ∃ reservation ∈ presented action,
      (Locked.call N capacity s action).2 =
        { s with reservations := s.reservations.erase reservation } := by
  exact call_error (ledger_coherent run) action failed

/-- The receipt whose head is being signed cannot be removed. -/
theorem memory_errors_atomic_during_signing : ∃ s error,
    Run (Locked.step plainLibrary 10) Free .default editDuringSigning s ∧
      (Locked.call plainLibrary 10 s (.removeReceipt 1)).1 = some error ∧
      ((Locked.call plainLibrary 10 s (.removeReceipt 1)).2 = s ∨
        ∃ reservation ∈ presented (.removeReceipt 1),
          (Locked.call plainLibrary 10 s (.removeReceipt 1)).2 =
            { s with reservations := s.reservations.erase reservation }) := by
  obtain ⟨s, run, checked⟩ := Run.of_any (show (exec (Locked.step plainLibrary 10) Free .default
    editDuringSigning).any (fun s => (Locked.call plainLibrary 10 s (.removeReceipt 1)).1.isSome) =
      true by decide +kernel)
  obtain ⟨error, failed⟩ := Option.isSome_iff_exists.mp checked
  exact ⟨s, error, run, failed, memory_errors_atomic run _ failed⟩

end Fava.WriteStore.Memory
