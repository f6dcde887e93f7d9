import Fava.Lib.Pool
import Fava.Publication.Completion
import Fava.Session.Mutators

namespace Fava.Publication

open Std Fava.Lib Fava.Nostr Fava.Relay Fava.Routing Fava.Session Fava.Write Fava.WriteStore
open Fava.WriteStore.Memory

inductive SignerAvailability
  | available
  | unavailable
deriving DecidableEq

abbrev StaleCompletion := ReceiptId × WriteId × RevisionId × EventId × String

def staleCompletionCapacity : Nat := 256

/-- One use of an attached signer: the receipt as it was last read, what is to be signed, the
attachment that was selected, and the sessions there were from then until its answer was taken. -/
structure Signing where
  receipt : Receipt
  unsigned : UnsignedEvent
  generation : Nat
  sessions : List Locked

/-- How far `start_signing` is, and the task it spawns. -/
inductive SigningTask
  | started (receipt : Receipt)
  | selected (signing : Signing)
  | authorized (signing : Signing)
  | asked (signing : Signing)
  | completed (signing : Signing) (completion : Except SignerError Event)
  | refused (signing : Signing) (refusal : String)

/-- The session, the ledger, what is being signed, and the completions that came too late:
those that are kept, and all there were. -/
structure Signings where
  session : Locked
  ledger : WriteState
  tasks : List SigningTask
  stale : List StaleCompletion
  rejected : List StaleCompletion

/-- As long as the attachment is awaited, the task lives through what becomes of the session. -/
def SigningTask.sees (session : Locked) : SigningTask → SigningTask
  | .selected signing => .selected { signing with sessions := signing.sessions ++ [session] }
  | .authorized signing => .authorized { signing with sessions := signing.sessions ++ [session] }
  | .asked signing => .asked { signing with sessions := signing.sessions ++ [session] }
  | task => task

namespace Signings

def new (session : Locked) : Signings := ⟨session, .default, [], [], []⟩

def rejectStaleCompletion (s : Signings) (receipt : Receipt) (reason : String) : Signings :=
  let entry : StaleCompletion := (receipt.receiptId, receipt.writeId,
    receipt.current.publication.revisionId, receipt.current.id, reason)
  let retained := if s.stale.length = staleCompletionCapacity then s.stale.tail else s.stale
  { s with stale := retained ++ [entry], rejected := s.rejected ++ [entry] }

section Signing

variable (N : Library)

/-- Look up the attachment of the author. -/
def select (s : Signings) (receipt : Receipt) (availability : SignerAvailability) : Option Signing :=
  match receipt.current.event with
  | .signed _ => none
  | .unsigned unsigned =>
    match s.session.signers[unsigned.pubkey]?, availability with
    | some generation, .available => some ⟨receipt, unsigned, generation, [s.session]⟩
    | _, _ => none

def authorize (s : Signings) (signing : Signing) : Signings × Option SigningTask :=
  match authorizeSigningCurrent N signing.receipt.writeId signing.receipt.receiptId
      signing.receipt.current.publication.revisionId signing.receipt.current.id s.ledger with
  | (.error _, ledger) => ({ s with ledger }, none)
  | (.ok receipt, ledger) =>
    ({ s with ledger },
      if receipt.current.publication.signature = .authorized then
        some (.authorized { signing with receipt })
      else none)

def retiredBeforeInvocation (signing : Signing) : String :=
  "authorized signer attachment generation " ++ toString signing.generation ++ " for " ++
    N.keyToHex signing.unsigned.pubkey ++
    " was retired before provider invocation; retry is permitted"

/-- Record that a receipt may be signed later; a refusal of that is kept as stale. -/
def retryLater (s : Signings) (receipt : Receipt) (reason refused : String) : Signings :=
  match recordSignerRetryableCurrent N receipt.writeId receipt.receiptId
      receipt.current.publication.revisionId receipt.current.id reason s.ledger with
  | (.ok _, ledger) => { s with ledger }
  | (.error error, ledger) =>
    ({ s with ledger } : Signings).rejectStaleCompletion receipt (refused ++ error.text)

/-- Ask the signer, if its attachment is still the one that was selected. -/
def invokeSigner (s : Signings) (signing : Signing) : Signings × Option SigningTask :=
  if s.session.isCurrent signing.unsigned.pubkey signing.generation then (s, some (.asked signing))
  else
    (s.retryLater N signing.receipt (retiredBeforeInvocation N signing)
      "retired pre-invocation transition was rejected: ", none)

def retiredBeforeCompletion (signing : Signing) : String :=
  "signer attachment generation " ++ toString signing.generation ++ " for " ++
    N.keyToHex signing.unsigned.pubkey ++ " was retired before its completion arrived"

/-- The signer answers. -/
def complete (s : Signings) (signing : Signing) (completion : Except SignerError Event) :
    Signings × Option SigningTask :=
  if s.session.isCurrent signing.unsigned.pubkey signing.generation then
    (s, some (.completed signing completion))
  else (s.rejectStaleCompletion signing.receipt (retiredBeforeCompletion N signing), none)

def unavailableBeforeEffect (reason : String) : String :=
  "signer unavailable before effect: " ++ reason ++ "; retry is permitted"

/-- Take an answer to the ledger, up to its refusal. -/
def conclude (s : Signings) (signing : Signing) (completion : Except SignerError Event) :
    Signings × Option SigningTask :=
  let receipt := signing.receipt
  match completion with
  | .ok event =>
    match installSignedCurrent N receipt.writeId receipt.receiptId
        receipt.current.publication.revisionId receipt.current.id event s.ledger with
    | (.ok _, ledger) => ({ s with ledger }, none)
    | (.error error, ledger) => ({ s with ledger }, some (.refused signing error.text))
  | .error .cancelled =>
    ({ s with ledger := (recordSignerRetryableCurrent N receipt.writeId receipt.receiptId
        receipt.current.publication.revisionId receipt.current.id
        (cancelledBeforeEffect N receipt signing.generation) s.ledger).2 }, none)
  | .error (.unavailable reason) =>
    ({ s with ledger := (recordSignerRetryableCurrent N receipt.writeId receipt.receiptId
        receipt.current.publication.revisionId receipt.current.id
        (unavailableBeforeEffect reason) s.ledger).2 }, none)
  | .error error => (s, some (.refused signing error.text))

def refuse (s : Signings) (signing : Signing) (refusal : String) : Signings :=
  match refuseSigning N signing.receipt refusal s.ledger with
  | (none, ledger) => { s with ledger }
  | (some reason, ledger) =>
    ({ s with ledger } : Signings).rejectStaleCompletion signing.receipt reason

def cancelledBecause (receipt : Receipt) (generation : Option Nat) (cause : String) : String :=
  "authorized signer operation for write " ++ toString receipt.writeId ++ " receipt " ++
    toString receipt.receiptId ++ " revision " ++
    toString receipt.current.publication.revisionId ++ " event " ++ N.idToHex receipt.current.id ++
    " attachment generation " ++ generation.elim "unknown" toString ++
    " cancelled before effect because " ++ cause ++ "; retry is permitted"

def cancelAuthorizedSigning (s : Signings) (receipt : Receipt) (generation : Option Nat)
    (cause : String) : Signings :=
  if receipt.current.publication.signature = .authorized then
    s.retryLater N receipt (cancelledBecause N receipt generation cause)
      "authorized cancellation transition was rejected: "
  else s

/-- The next part of a task whose answer was asked of nobody. -/
def advance (s : Signings) : SigningTask → Option (Signings × Option SigningTask)
  | .selected signing => some (s.authorize N signing)
  | .authorized signing => some (s.invokeSigner N signing)
  | .completed signing completion => some (s.conclude N signing completion)
  | .refused signing refusal => some (s.refuse N signing refusal, none)
  | .started _ | .asked _ => none

end Signing

end Signings

/-- The store authorizes and installs nothing but for a signing. -/
def isSigning : WriteStore.Memory.Action → Bool
  | .installSigned .. | .authorizeSigning .. => true
  | _ => false

namespace Signings

/-- A command of the session, an operation of the store that others ask for, a receipt that
is read to be signed or to have its signing cancelled, and what its task does next. -/
inductive Action
  | session (command : State.Command)
  | store (action : WriteStore.Memory.Action)
  | start (receiptId : ReceiptId)
  | select (index : Nat) (availability : SignerAvailability)
  | cancel (index : Nat) (generation : Option Nat) (cause : String)
  | advance (index : Nat)
  | complete (index : Nat) (completion : Except SignerError Event)

/-- The task an action is about. -/
def Action.about : Action → Option Nat
  | .select index _ | .cancel index _ _ | .advance index | .complete index _ => some index
  | .session _ | .store _ | .start _ => none

def step (N : Library) (capacity : Nat) (s : Signings) : Action → Option Signings
  | .session command =>
    let session := (s.session.call command).2
    some { s with session := session, tasks := s.tasks.map (SigningTask.sees session) }
  | .store action =>
    if isSigning action then none else some { s with ledger := perform N capacity s.ledger action }
  | .start receiptId => do
    let receipt ← s.ledger.writes[receiptId]?
    some { s with tasks := s.tasks ++ [.started receipt] }
  | .select index availability => do
    let task ← s.tasks[index]?
    match task with
    | .started receipt =>
      some { s with
        tasks := proceed s.tasks index ((s.select receipt availability).map SigningTask.selected) }
    | _ => none
  | .cancel index generation cause => do
    let task ← s.tasks[index]?
    match task with
    | .started receipt =>
      some { s.cancelAuthorizedSigning N receipt generation cause with
        tasks := proceed s.tasks index none }
    | _ => none
  | .advance index => do
    let task ← s.tasks[index]?
    let (s, next) ← s.advance N task
    some { s with tasks := proceed s.tasks index next }
  | .complete index completion => do
    let task ← s.tasks[index]?
    match task with
    | .asked signing =>
      let (s, next) := s.complete N signing completion
      some { s with tasks := proceed s.tasks index next }
    | _ => none

/-- `finish_signing` as one: an answer is taken, concluded and, if it is not used, refused. -/
def finish (N : Library) (s : Signings) (signing : Signing) (completion : Except SignerError Event) :
    Signings :=
  match s.complete N signing completion with
  | (s, some (.completed signing completion)) =>
    match s.conclude N signing completion with
    | (s, some (.refused signing refusal)) => s.refuse N signing refusal
    | (s, _) => s
  | (s, _) => s

/-- The ledger that an answer leaves, and the evidence of one that came too late. -/
def answered (s : Signings) (receipt : Receipt) (done : Option String × WriteState) : Signings :=
  done.1.elim { s with ledger := done.2 }
    (({ s with ledger := done.2 } : Signings).rejectStaleCompletion receipt)

theorem refuse_eq (N : Library) (s : Signings) (signing : Signing) (refusal : String) :
    s.refuse N signing refusal =
      s.answered signing.receipt (refuseSigning N signing.receipt refusal s.ledger) := by
  unfold refuse
  generalize refuseSigning N signing.receipt refusal s.ledger = done
  obtain ⟨reason, ledger⟩ := done
  cases reason <;> rfl

/-- If nothing happens between them, the parts do what `finishSigning` does as a whole. -/
theorem finish_eq (N : Library) (s : Signings) (signing : Signing)
    (completion : Except SignerError Event) : s.finish N signing completion =
      s.answered signing.receipt (finishSigning N
        (s.session.isCurrent signing.unsigned.pubkey signing.generation)
        signing.receipt signing.unsigned.pubkey signing.generation completion s.ledger) := by
  unfold finish complete finishSigning
  by_cases current : s.session.isCurrent signing.unsigned.pubkey signing.generation = true
  · simp only [current, if_true, Bool.not_true, Bool.false_eq_true, if_false]
    unfold conclude
    cases completion with
    | ok event =>
      dsimp only
      generalize installSignedCurrent N signing.receipt.writeId signing.receipt.receiptId
        signing.receipt.current.publication.revisionId signing.receipt.current.id event s.ledger = done
      obtain ⟨answer, ledger⟩ := done
      cases answer with
      | ok receipt => rfl
      | error error => exact refuse_eq N _ signing _
    | error error =>
      cases error with
      | cancelled =>
        dsimp only [answered, Option.elim]
      | unavailable reason =>
        dsimp only [answered, Option.elim, unavailableBeforeEffect]
      | rejected | invalidOutput => exact refuse_eq N _ signing _
  · simp only [current, if_false, Bool.false_eq_true, Bool.not_false, if_true]
    unfold retiredBeforeCompletion
    rfl

end Signings

end Fava.Publication
