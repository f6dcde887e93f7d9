import Fava.Lib.Text
import Fava.WriteStore.Memory.Coherence
import Fava.WriteStore.Memory.Lanes
import Fava.WriteStore.Memory.Regular

namespace Fava

open Std Lib Nostr Relay Routing Write

def Write.InvalidEventValue.text : InvalidEventValue → String
  | .missingId => "unsigned event has no computed event id"

def WriteStore.WriteStoreError.text : WriteStore.WriteStoreError → String
  | .closed => "write store is closed"
  | .invalidEvent error => error.text
  | .invalidIntent error => error.text
  | .refused reason => "write store refused operation: " ++ reason

namespace Publication

open WriteStore WriteStore.Memory

inductive SignerError
  | unavailable (reason : String)
  | rejected (reason : String)
  | cancelled
  | invalidOutput (reason : String)

def SignerError.text : SignerError → String
  | .unavailable reason => "signer unavailable: " ++ reason
  | .rejected reason => "signer rejected event: " ++ reason
  | .cancelled => "signing cancelled"
  | .invalidOutput reason => "signer returned invalid event: " ++ reason

section Signing

variable (N : Library)

def cancelledBeforeEffect (receipt : Receipt) (generation : Nat) : String :=
  "authorized signer operation for write " ++ toString receipt.writeId ++ " receipt " ++
    toString receipt.receiptId ++ " revision " ++
    toString receipt.current.publication.revisionId ++ " event " ++ N.idToHex receipt.current.id ++
    " attachment generation " ++ toString generation ++
    " cancelled before effect; retry is permitted"

/-- Record why the signer's answer cannot be used; a refusal of that is only kept as
evidence. -/
def refuseSigning (receipt : Receipt) (refusal : String) (state : WriteState) :
    Option String × WriteState :=
  match recordSignerRefusalCurrent N receipt.writeId receipt.receiptId
      receipt.current.publication.revisionId receipt.current.id refusal state with
  | (.ok _, state) => (none, state)
  | (.error stale, state) =>
    (some ("signer completion rejected (" ++ refusal ++ "); evidence refused (" ++ stale.text ++ ")"),
      state)

/-- What becomes of a signer's answer: the ledger, and the evidence of an answer that came
too late. -/
def finishSigning (isCurrent : Bool) (receipt : Receipt) (publicKey : PublicKey) (generation : Nat)
    (completion : Except SignerError Event) (state : WriteState) : Option String × WriteState :=
  if !isCurrent then
    (some ("signer attachment generation " ++ toString generation ++ " for " ++ N.keyToHex publicKey ++
      " was retired before its completion arrived"), state)
  else
    match completion with
    | .ok event =>
      match installSignedCurrent N receipt.writeId receipt.receiptId
          receipt.current.publication.revisionId receipt.current.id event state with
      | (.ok _, state) => (none, state)
      | (.error error, state) => refuseSigning N receipt error.text state
    | .error .cancelled =>
      (none, (recordSignerRetryableCurrent N receipt.writeId receipt.receiptId
        receipt.current.publication.revisionId receipt.current.id
        (cancelledBeforeEffect N receipt generation) state).2)
    | .error (.unavailable reason) =>
      (none, (recordSignerRetryableCurrent N receipt.writeId receipt.receiptId
        receipt.current.publication.revisionId receipt.current.id
        ("signer unavailable before effect: " ++ reason ++ "; retry is permitted") state).2)
    | .error error => refuseSigning N receipt error.text state

end Signing

inductive PublishOutcome
  | acknowledged (message : String)
  | rejected (message : String)
  | authenticationRequired (message : String)
  | notHandedOff (reason : String)
  | outcomeUnknown (reason : String)

def PublishOutcome.words : PublishOutcome → String
  | .acknowledged text | .rejected text | .authenticationRequired text | .notHandedOff text
  | .outcomeUnknown text => text

def deliveryOutcome : PublishOutcome → RelayDeliveryOutcome
  | .acknowledged message => .acknowledged message
  | .rejected message => .rejected message
  | .authenticationRequired message => .authenticationDenied message
  | .notHandedOff reason => .retryable reason
  | .outcomeUnknown reason => .unknown reason

/-- What a delivery policy is told of one destination. -/
structure DeliveryFacts where
  attempts : Nat
  outcome : RelayDeliveryOutcome

inductive DeliveryDecision
  | attemptNow
  | giveUp (reason : String)
  | settled
deriving DecidableEq

abbrev DeliveryPolicy := DeliveryFacts → DeliveryDecision

/-- The standard policy, with one ceiling for the attempts of every destination. -/
def standardDeliveryPolicy (maximumAttempts : Nat) : DeliveryPolicy := fun facts =>
  match facts.outcome with
  | .pending => if facts.attempts < maximumAttempts then .attemptNow else .settled
  | .retryable reason =>
    if facts.attempts < maximumAttempts then .attemptNow
    else .giveUp ("attempt ceiling " ++ toString maximumAttempts ++ " reached after: " ++ reason)
  | .attempting | .acknowledged _ | .rejected _ | .authenticationDenied _ | .givenUp _ | .unknown _
  | .cancelledBeforeHandoff => .settled

/-- How one turn of a lane ends: for good, with another turn, or with an attempt that the
publisher is asked to make. -/
inductive Turn
  | over
  | again
  | publish (attempt : Nat) (event : Event)

/-- One turn of a destination's lane, up to where the publisher is asked. -/
def runDestination (policy : DeliveryPolicy) (writeId : WriteId) (receiptId : ReceiptId)
    (revisionId : RevisionId) (eventId : EventId) (session : RelayUrl) (state : WriteState) :
    Turn × WriteState :=
  match state.writes[receiptId]? with
  | none => (.over, state)
  | some receipt =>
    if receipt.writeId ≠ writeId ∨ receipt.current.publication.revisionId ≠ revisionId ∨
        receipt.current.id ≠ eventId ∨ session ∉ receipt.desiredDestinations then (.over, state)
    else
      match receipt.destinations[session]? with
      | none => (.over, state)
      | some outcome =>
        let attempts := (receipt.attempts[session]?).getD 0
        match policy ⟨attempts, outcome⟩ with
        | .settled => (.over, state)
        | .giveUp reason =>
          (.over, (recordOutcomeCurrent writeId receiptId revisionId eventId session attempts
            (.givenUp reason) state).2)
        | .attemptNow =>
          if attempts + 1 < 2 ^ 32 then
            match beginAttemptCurrent writeId receiptId revisionId eventId session (attempts + 1)
                state with
            | (.error _, state) => (.again, state)
            | (.ok receipt, state) =>
              match receipt.current.event with
              | .unsigned _ => (.again, state)
              | .signed event => (.publish (attempts + 1) event, state)
          else (.again, state)

/-- Record what the publisher answered. -/
def finishAttempt (writeId : WriteId) (receiptId : ReceiptId) (revisionId : RevisionId)
    (eventId : EventId) (session : RelayUrl) (attempt : Nat) (outcome : PublishOutcome)
    (state : WriteState) : WriteState :=
  (recordOutcomeCurrent writeId receiptId revisionId eventId session attempt
    (deliveryOutcome outcome) state).2

/-- A generation that was handed to its signer still waits for the answer. -/
def Unanswered (s : WriteState) (r : ReceiptId) (revisionId : RevisionId) : Prop :=
  ∃ receipt : Receipt, s.writes[r]? = some receipt ∧
    receipt.current.publication.revisionId = revisionId ∧
    receipt.current.publication.signature = .authorized

/-- A lane is still in a state it was to leave. -/
def LaneStays (s : WriteState) (r : ReceiptId) (session : RelayUrl)
    (waits : RelayDeliveryOutcome → Bool) : Prop :=
  ∃ (receipt : Receipt) (outcome : RelayDeliveryOutcome), s.writes[r]? = some receipt ∧
    receipt.destinations[session]? = some outcome ∧ waits outcome = true

/-- The words of a signer's answer leave room for what the loop adds to them. -/
def completionFits (N : Library) : Except SignerError Event → Prop
  | .ok event =>
    match N.verify event with
    | .ok _ => True
    | .error reason => reason.utf8ByteSize ≤ 4065
  | .error .cancelled => True
  | .error (.unavailable reason) => reason.utf8ByteSize ≤ 4042
  | .error (.rejected reason) => reason.utf8ByteSize ≤ 4073
  | .error (.invalidOutput reason) => reason.utf8ByteSize ≤ 4065

variable {N : Library} {s : WriteState} {r : ReceiptId} {receipt : Receipt} {text : String}

theorem validateReceiptText_of_fits (fits : text.utf8ByteSize ≤ maxReceiptTextBytes) :
    validateReceiptText text = .ok () := if_pos fits

theorem validateReceiptText_of_exceeds (exceeds : ¬text.utf8ByteSize ≤ maxReceiptTextBytes) :
    ∃ error, validateReceiptText text = .error error := ⟨_, if_neg exceeds⟩

theorem validateCurrentRevision_self (isOpen : receipt.isTerminal = false) :
    validateCurrentRevision receipt receipt.writeId receipt.current.publication.revisionId
      receipt.current.id = .ok () := by
  rw [validateCurrentRevision, if_neg]
  simp [isOpen]

theorem record_of_counts (counts : s.revision + 1 < counterBound) (updated : Receipt) :
    s.record r updated =
      .ok { s with revision := s.revision + 1, writes := s.writes.insert r updated } := by
  rw [WriteState.record, nextRevision, if_pos counts]
  rfl

theorem record_of_exhausted (exhausted : ¬s.revision + 1 < counterBound) (updated : Receipt) :
    s.record r updated = .error (.refused "source revision exhausted") := by
  rw [WriteState.record, nextRevision, if_neg exhausted]
  rfl

section Signing

variable {promotes : WriteState → Receipt → Bool}
  {standing : WriteState → Except WriteStoreError Standing} {recorded : Receipt → Receipt}

/-- An answer for the current generation is settled unless the ledger's revisions are used
up: it is recorded, or the generation that waits for it takes over. -/
theorem concludeSigning_settles (h : Coherent N s) (receipt : Receipt)
    (stands : standing s = .ok (.current receipt))
    (waiting : promotes s receipt = s.successors.contains r)
    (decided : (recorded receipt).current.publication.signature ≠ .authorized)
    (counts : s.revision + 1 < counterBound) :
    (∃ answer, (concludeSigning N r promotes standing recorded s).1 = .ok answer) ∧
      ∃ updated, (concludeSigning N r promotes standing recorded s).2.writes[r]? = some updated ∧
        updated.current.publication.signature ≠ .authorized := by
  unfold concludeSigning
  rw [stands]
  dsimp only
  rw [waiting]
  by_cases waits : s.successors.contains r = true
  · rw [if_pos waits]
    rw [ExtTreeMap.contains_iff_mem, ExtTreeMap.mem_iff_isSome_getElem?] at waits
    obtain ⟨successor, retained⟩ := Option.isSome_iff_exists.mp waits
    have later : nextRevision s.revision = .ok (s.revision + 1) := if_pos counts
    obtain ⟨_, _, updated, _, -, -, -, -, -, -, -, unsigned, done⟩ :=
      promoteAuthorizedSuccessor_eq h retained later
    rw [done]
    refine ⟨⟨updated, rfl⟩, updated, ?_, ?_⟩
    · exact BTreeMap.find_insert.trans (if_pos rfl)
    · rw [unsigned]
      exact nofun
  · rw [if_neg waits, atomically, record_of_counts counts]
    exact ⟨⟨_, rfl⟩, recorded receipt, BTreeMap.find_insert.trans (if_pos rfl), decided⟩

theorem concludeSigning_of_exhausted (receipt : Receipt) (stands : standing s = .ok (.current receipt))
    (exhausted : ¬s.revision + 1 < counterBound) :
    concludeSigning N r promotes standing recorded s =
      (.error (.refused "source revision exhausted"), s) := by
  unfold concludeSigning
  rw [stands]
  dsimp only
  split
  · unfold promoteAuthorizedSuccessor
    rw [nextRevision, if_neg exhausted]
  · rw [atomically, record_of_exhausted exhausted]
    rfl

theorem concludeSigning_of_error {error : WriteStoreError} (stands : standing s = .error error) :
    concludeSigning N r promotes standing recorded s = (.error error, s) := by
  rw [concludeSigning, stands]

/-- What is left of a receipt that waits for its signer: the answer is settled or the
ledger is as it was. -/
theorem not_unanswered_iff {s' : WriteState} {settled : Prop}
    (found : s.writes[r]? = some receipt)
    (authorized : receipt.current.publication.signature = .authorized)
    (settles : settled → ∃ updated, s'.writes[r]? = some updated ∧
      updated.current.publication.signature ≠ .authorized)
    (stays : ¬settled → s' = s) :
    ¬Unanswered s' r receipt.current.publication.revisionId ↔ settled := by
  constructor
  · intro answered
    by_contra unsettled
    rw [stays unsettled] at answered
    exact answered ⟨receipt, found, rfl, authorized⟩
  · rintro done ⟨receipt', found', -, authorized'⟩
    obtain ⟨updated, written, decided⟩ := settles done
    rw [written, Option.some.injEq] at found'
    subst found'
    exact decided authorized'

section Waiting

variable (h : Coherent N s) (found : s.writes[r]? = some receipt)
  (authorized : receipt.current.publication.signature = .authorized)
include h found authorized

/-- An answer is settled exactly if it is taken and a revision is left. -/
theorem concludeSigning_settles_iff {taken : Prop}
    (waiting : promotes s receipt = s.successors.contains r)
    (decided : (recorded receipt).current.publication.signature ≠ .authorized)
    (stands : taken → standing s = .ok (.current receipt))
    (refuses : ¬taken → ∃ error, standing s = .error error) :
    ¬Unanswered (concludeSigning N r promotes standing recorded s).2 r
        receipt.current.publication.revisionId ↔ taken ∧ s.revision + 1 < counterBound := by
  refine not_unanswered_iff found authorized ?_ ?_
  · rintro ⟨take, counts⟩
    exact (concludeSigning_settles h receipt (stands take) waiting decided counts).2
  · intro unsettled
    by_cases take : taken
    · rw [concludeSigning_of_exhausted receipt (stands take) fun counts => unsettled ⟨take, counts⟩]
    · obtain ⟨error, refused⟩ := refuses take
      rw [concludeSigning_of_error refused]

variable (isOpen : receipt.isTerminal = false) (key : receipt.receiptId = r)
include isOpen key

theorem refuseSigning_settles_iff :
    ¬Unanswered (refuseSigning N receipt text s).2 r receipt.current.publication.revisionId ↔
      text.utf8ByteSize ≤ maxReceiptTextBytes ∧ s.revision + 1 < counterBound := by
  have second : (refuseSigning N receipt text s).2 = (recordSignerRefusalCurrent N receipt.writeId r
      receipt.current.publication.revisionId receipt.current.id text s).2 := by
    rw [refuseSigning, key]
    split
    · rename_i done
      rw [done]
    · rename_i done
      rw [done]
  rw [second]
  refine concludeSigning_settles_iff h found authorized rfl nofun (fun fits => ?_) fun exceeds => ?_
  · simp only [validateReceiptText_of_fits fits, found, demand, bind, Except.bind,
      validateCurrentRevision_self isOpen, authorized]
  · obtain ⟨error, refused⟩ := validateReceiptText_of_exceeds exceeds
    refine ⟨error, ?_⟩
    rw [refused]
    rfl

theorem recordSignerRetryable_settles_iff :
    ¬Unanswered (recordSignerRetryableCurrent N receipt.writeId receipt.receiptId
          receipt.current.publication.revisionId receipt.current.id text s).2 r
        receipt.current.publication.revisionId ↔
      text.utf8ByteSize ≤ maxReceiptTextBytes ∧ s.revision + 1 < counterBound := by
  rw [key]
  refine concludeSigning_settles_iff h found authorized ?_ nofun (fun fits => ?_) fun exceeds => ?_
  · simp only [authorized, decide_true, Bool.true_and]
  · simp only [validateReceiptText_of_fits fits, found, demand, bind, Except.bind,
      validateCurrentRevision_self isOpen, authorized]
  · obtain ⟨error, refused⟩ := validateReceiptText_of_exceeds exceeds
    refine ⟨error, ?_⟩
    rw [refused]
    rfl

end Waiting

section Texts

/-- Words put before a text leave that much less room for it. -/
theorem prefixed_fits_iff {words reason : String} {room : Nat}
    (left : words.utf8ByteSize + room = maxReceiptTextBytes) :
    (words ++ reason).utf8ByteSize ≤ maxReceiptTextBytes ↔ reason.utf8ByteSize ≤ room := by
  rw [String.utf8ByteSize_append]
  omega

theorem enclosed_fits_iff {before after reason : String} {room : Nat}
    (left : before.utf8ByteSize + after.utf8ByteSize + room = maxReceiptTextBytes) :
    (before ++ reason ++ after).utf8ByteSize ≤ maxReceiptTextBytes ↔ reason.utf8ByteSize ≤ room := by
  rw [String.utf8ByteSize_append, String.utf8ByteSize_append]
  omega

/-- What is said of a cancelled signing always fits. -/
theorem cancelledBeforeEffect_fits (hex : ∀ id, (N.idToHex id).utf8ByteSize = 64)
    (regular : Regular r receipt) {generation : Nat} (counts : generation < counterBound) :
    (cancelledBeforeEffect N receipt generation).utf8ByteSize ≤ maxReceiptTextBytes := by
  obtain ⟨⟨writeId, receiptId⟩, ⟨small, revised⟩, -, -⟩ := regular
  have first := utf8ByteSize_toString_le small
  have second := utf8ByteSize_toString_le revised
  have third := utf8ByteSize_toString_le counts
  have event := hex receipt.current.id
  unfold cancelledBeforeEffect maxReceiptTextBytes
  rw [writeId, receiptId]
  simp only [String.utf8ByteSize_append, event]
  have words : ("authorized signer operation for write ").utf8ByteSize + (" receipt ").utf8ByteSize +
      (" revision ").utf8ByteSize + (" event ").utf8ByteSize + (" attachment generation ").utf8ByteSize +
      (" cancelled before effect; retry is permitted").utf8ByteSize = 131 := by decide
  omega

end Texts

section Signed

variable {event : Event} {unsigned : UnsignedEvent} {u : Unit} (found : s.writes[r]? = some receipt)
  (authorized : receipt.current.publication.signature = .authorized)
  (isOpen : receipt.isTerminal = false) (verified : N.verify event = .ok u)
  (holding : receipt.current.event = .unsigned unsigned) (signed : signs event unsigned)
include found authorized isOpen verified holding signed

/-- The signature that was asked for is installed, if a revision is left. -/
theorem installSigned_settles (h : Coherent N s) (counts : s.revision + 1 < counterBound) :
    (∃ answer, (installSignedCurrent N receipt.writeId r receipt.current.publication.revisionId
        receipt.current.id event s).1 = .ok answer) ∧
      ∃ updated, (installSignedCurrent N receipt.writeId r receipt.current.publication.revisionId
          receipt.current.id event s).2.writes[r]? = some updated ∧
        updated.current.publication.signature ≠ .authorized := by
  refine concludeSigning_settles h receipt ?_ rfl nofun counts
  simp only [verified, Except.mapError, found, demand, bind, Except.bind,
    validateCurrentRevision_self isOpen, holding, require, signed, authorized, true_or, if_true]

theorem installSigned_of_exhausted (exhausted : ¬s.revision + 1 < counterBound) :
    installSignedCurrent N receipt.writeId r receipt.current.publication.revisionId receipt.current.id
      event s = (.error (.refused "source revision exhausted"), s) := by
  refine concludeSigning_of_exhausted receipt ?_ exhausted
  simp only [verified, Except.mapError, found, demand, bind, Except.bind,
    validateCurrentRevision_self isOpen, holding, require, signed, authorized, true_or, if_true]

end Signed

/-- An answer of the signer is settled exactly if its words fit and a revision is left. -/
theorem finishSigning_settles_iff (h : Coherent N s) (regular : Regular r receipt)
    (found : s.writes[r]? = some receipt) (isOpen : receipt.isTerminal = false)
    (authorized : receipt.current.publication.signature = .authorized)
    (hex : ∀ id, (N.idToHex id).utf8ByteSize = 64) {generation : Nat}
    (counts : generation < counterBound) {publicKey : PublicKey}
    {completion : Except SignerError Event} :
    ¬Unanswered (finishSigning N true receipt publicKey generation completion s).2 r
        receipt.current.publication.revisionId ↔
      completionFits N completion ∧ s.revision + 1 < counterBound := by
  have key := regular.named.2
  have refuses : ∀ text : String, ¬Unanswered (refuseSigning N receipt text s).2 r
      receipt.current.publication.revisionId ↔
        text.utf8ByteSize ≤ maxReceiptTextBytes ∧ s.revision + 1 < counterBound :=
    fun _ => refuseSigning_settles_iff h found authorized isOpen key
  have retries : ∀ text : String, ¬Unanswered (recordSignerRetryableCurrent N receipt.writeId
      receipt.receiptId receipt.current.publication.revisionId receipt.current.id text s).2 r
        receipt.current.publication.revisionId ↔
          text.utf8ByteSize ≤ maxReceiptTextBytes ∧ s.revision + 1 < counterBound :=
    fun _ => recordSignerRetryable_settles_iff h found authorized isOpen key
  unfold finishSigning
  rw [if_neg (by simp)]
  cases completion with
  | error error =>
    cases error with
    | cancelled =>
      dsimp only
      rw [retries]
      exact and_congr_left' (iff_of_true (cancelledBeforeEffect_fits hex regular counts) trivial)
    | unavailable reason =>
      dsimp only
      rw [retries]
      exact and_congr_left' (enclosed_fits_iff (by decide))
    | rejected reason =>
      dsimp only
      rw [refuses]
      exact and_congr_left' (prefixed_fits_iff (by decide))
    | invalidOutput reason =>
      dsimp only
      rw [refuses]
      exact and_congr_left' (prefixed_fits_iff (by decide))
  | ok event =>
    dsimp only
    obtain ⟨unsigned, holding⟩ := regular.unsigned authorized
    rw [key]
    cases verified : N.verify event with
    | error reason =>
      have refused : installSignedCurrent N receipt.writeId r receipt.current.publication.revisionId
          receipt.current.id event s = (.error (.refused reason), s) := by
        refine concludeSigning_of_error ?_
        rw [verified]
        rfl
      rw [refused, completionFits, verified]
      dsimp only
      rw [refuses]
      exact and_congr_left' (prefixed_fits_iff (by decide))
    | ok _ =>
      rw [completionFits, verified, true_and]
      -- The answer is the signature that was asked for, or it is refused with fixed words.
      by_cases signed : signs event unsigned
      · by_cases left : s.revision + 1 < counterBound
        · obtain ⟨⟨answer, done⟩, updated, written, decided⟩ :=
            installSigned_settles found authorized isOpen verified holding signed h left
          generalize installSignedCurrent N receipt.writeId r receipt.current.publication.revisionId
            receipt.current.id event s = result at done written
          obtain ⟨first, s'⟩ := result
          cases done
          refine iff_of_true ?_ left
          rintro ⟨receipt', found', -, authorized'⟩
          dsimp only at written found'
          rw [written, Option.some.injEq] at found'
          subst found'
          exact decided authorized'
        · rw [installSigned_of_exhausted found authorized isOpen verified holding signed left]
          dsimp only
          rw [refuses]
          exact iff_of_false (fun both => left both.2) left
      · have refused : installSignedCurrent N receipt.writeId r receipt.current.publication.revisionId
            receipt.current.id event s =
              (.error (.refused "signature does not match current unsigned event"), s) := by
          refine concludeSigning_of_error ?_
          simp only [verified, Except.mapError, found, demand, bind, Except.bind,
            validateCurrentRevision_self isOpen, holding, require, signed, if_false]
        rw [refused]
        dsimp only
        rw [refuses, and_iff_right]
        decide

end Signing

theorem writes_of_release {ended : Prop} [Decidable ended] :
    (if ended then releaseSemantic s r else s).writes = s.writes := by
  split <;> rfl

section Delivery

variable {session : RelayUrl} {attempt : Nat} {current outcome : RelayDeliveryOutcome}
  (found : s.writes[r]? = some receipt) (isOpen : receipt.isTerminal = false)
  (lane : receipt.destinations[session]? = some current)
include found isOpen lane

/-- What is reported of the current attempt is recorded exactly if its text fits and a
revision is left. -/
theorem recordOutcome_settles_iff (numbered : receipt.attempts[session]? = some attempt)
    (moves : current = .attempting ∨ current.isRetryable = true ∧ outcome.isGivenUp = true)
    (decided : outcome.isTerminal = true ∨ outcome.isRetryable = true)
    (bounded : validateDeliveryOutcome outcome = validateReceiptText text) (apart : current ≠ outcome)
    {waits : RelayDeliveryOutcome → Bool} (before : waits current = true)
    (after : waits outcome = false) :
    ¬LaneStays (recordOutcomeCurrent receipt.writeId r receipt.current.publication.revisionId
        receipt.current.id session attempt outcome s).2 r session waits ↔
      text.utf8ByteSize ≤ maxReceiptTextBytes ∧ s.revision + 1 < counterBound := by
  have stays : LaneStays s r session waits := ⟨receipt, current, found, lane, before⟩
  unfold recordOutcomeCurrent atomically
  by_cases fits : text.utf8ByteSize ≤ maxReceiptTextBytes
  · by_cases counts : s.revision + 1 < counterBound
    · refine iff_of_true ?_ ⟨fits, counts⟩
      simp only [bounded, validateReceiptText_of_fits fits, require, decided, if_true, found, demand,
        bind, Except.bind, validateCurrentRevision_self isOpen, numbered, lane, apart, if_false, moves,
        record_of_counts counts]
      rintro ⟨receipt', outcome', found', lane', still⟩
      rw [writes_of_release, BTreeMap.find_insert, if_pos rfl, Option.some.injEq] at found'
      subst found'
      rw [(settle_lanes _).1] at lane'
      change (receipt.destinations.insert session outcome)[session]? = some outcome' at lane'
      rw [BTreeMap.find_insert, if_pos rfl, Option.some.injEq] at lane'
      subst lane'
      rw [after] at still
      cases still
    · refine iff_of_false (not_not.mpr ?_) fun both => counts both.2
      simp only [bounded, validateReceiptText_of_fits fits, require, decided, if_true, found, demand,
        bind, Except.bind, validateCurrentRevision_self isOpen, numbered, lane, apart, if_false, moves,
        record_of_exhausted counts]
      exact stays
  · obtain ⟨error, refused⟩ := validateReceiptText_of_exceeds fits
    refine iff_of_false (not_not.mpr ?_) fun both => fits both.1
    simp only [bounded, refused, bind, Except.bind]
    exact stays

/-- What a publisher answers is recorded exactly if its words fit. -/
theorem finishAttempt_settles_iff (attempting : current = .attempting)
    (numbered : receipt.attempts[session]? = some attempt) (answer : PublishOutcome) :
    ¬LaneStays (finishAttempt receipt.writeId r receipt.current.publication.revisionId
        receipt.current.id session attempt answer s) r session (· = .attempting) ↔
      answer.words.utf8ByteSize ≤ maxReceiptTextBytes ∧ s.revision + 1 < counterBound := by
  subst attempting
  have decided : (deliveryOutcome answer).isTerminal = true ∨
      (deliveryOutcome answer).isRetryable = true := by
    cases answer with
    | acknowledged | rejected | authenticationRequired | outcomeUnknown => exact .inl rfl
    | notHandedOff => exact .inr rfl
  have bounded : validateDeliveryOutcome (deliveryOutcome answer) = validateReceiptText answer.words := by
    cases answer <;> rfl
  have apart : RelayDeliveryOutcome.attempting ≠ deliveryOutcome answer := by
    cases answer <;> exact nofun
  refine recordOutcome_settles_iff found isOpen lane numbered (.inl rfl) decided bounded apart
    (decide_eq_true rfl) ?_
  exact decide_eq_false apart.symm

/-- A lane is given up exactly if the policy's reason fits. -/
theorem giveUp_settles_iff (tried : Tried receipt) (retryable : current.isRetryable = true)
    (desired : session ∈ receipt.desiredDestinations) {policy : DeliveryPolicy} {reason : String}
    (gives : policy ⟨(receipt.attempts[session]?).getD 0, current⟩ = .giveUp reason) :
    ¬LaneStays (runDestination policy receipt.writeId r receipt.current.publication.revisionId
        receipt.current.id session s).2 r session RelayDeliveryOutcome.isRetryable ↔
      reason.utf8ByteSize ≤ maxReceiptTextBytes ∧ s.revision + 1 < counterBound := by
  obtain ⟨attempt, numbered⟩ := Option.isSome_iff_exists.mp (tried session current lane (.inr retryable))
  rw [numbered, Option.getD_some] at gives
  unfold runDestination
  rw [found]
  dsimp only
  rw [if_neg (by simp [desired]), lane]
  dsimp only
  rw [numbered, Option.getD_some, gives]
  dsimp only
  refine recordOutcome_settles_iff found isOpen lane numbered (.inr ⟨retryable, rfl⟩) (.inl rfl) rfl ?_
    retryable rfl
  rintro rfl
  cases retryable

end Delivery

/-- What the standard policy says when it gives up leaves room for as much less of the
reason it gives up for. -/
theorem standard_giveUp {attempts maximum : Nat} (reached : maximum ≤ attempts) :
    ∃ reason, standardDeliveryPolicy maximum ⟨attempts, .retryable text⟩ = .giveUp reason ∧
      reason.utf8ByteSize = 32 + (toString maximum).utf8ByteSize + text.utf8ByteSize := by
  refine ⟨_, if_neg (Nat.not_lt.mpr reached), ?_⟩
  rw [String.utf8ByteSize_append, String.utf8ByteSize_append, String.utf8ByteSize_append]
  have first : ("attempt ceiling ").utf8ByteSize = 16 := by decide
  have second : (" reached after: ").utf8ByteSize = 16 := by decide
  omega

/-- In every reachable ledger an answer to the current generation or attempt is settled
exactly if its words, with what is added to them, fit into a receipt and the ledger has a
revision left. -/
theorem completions_settle_iff {capacity : Nat} {actions : List Action}
    (hex : ∀ id, (N.idToHex id).utf8ByteSize = 64)
    (run : Run (step N capacity) Free .default actions s) (found : s.writes[r]? = some receipt)
    (isOpen : receipt.isTerminal = false) :
    (receipt.current.publication.signature = .authorized → ∀ publicKey completion, ∀ generation,
        generation < counterBound →
          (¬Unanswered (finishSigning N true receipt publicKey generation completion s).2 r
              receipt.current.publication.revisionId ↔
            completionFits N completion ∧ s.revision + 1 < counterBound)) ∧
      (∀ (session : RelayUrl) attempt, receipt.destinations[session]? = some .attempting →
        receipt.attempts[session]? = some attempt → ∀ answer,
          (¬LaneStays (finishAttempt receipt.writeId r receipt.current.publication.revisionId
              receipt.current.id session attempt answer s) r session (· = .attempting) ↔
            answer.words.utf8ByteSize ≤ 4096 ∧ s.revision + 1 < counterBound)) ∧
      ∀ (session : RelayUrl) text, session ∈ receipt.desiredDestinations →
        receipt.destinations[session]? = some (.retryable text) → ∀ (policy : DeliveryPolicy) reason,
          policy ⟨(receipt.attempts[session]?).getD 0, .retryable text⟩ = .giveUp reason →
            (¬LaneStays (runDestination policy receipt.writeId r
                receipt.current.publication.revisionId receipt.current.id session s).2 r session
                RelayDeliveryOutcome.isRetryable ↔
              reason.utf8ByteSize ≤ 4096 ∧ s.revision + 1 < counterBound) := by
  have h := run_coherent run
  have regular := run_regular run r receipt found
  refine ⟨fun authorized publicKey completion generation counts => ?_, fun session attempt lane
    numbered answer => ?_, fun session text desired lane policy reason gives => ?_⟩
  · exact finishSigning_settles_iff h regular found isOpen authorized hex counts
  · exact finishAttempt_settles_iff found isOpen lane rfl numbered answer
  · exact giveUp_settles_iff found isOpen lane regular.tried rfl desired gives

section Sample

theorem length_le_utf8Len (chars : List Char) : chars.length ≤ String.utf8Len chars := by
  induction chars with
  | nil => exact Nat.le_refl 0
  | cons char chars ih =>
    have positive := char.utf8Size_pos
    rw [String.utf8Len, List.length_cons]
    omega

/-- A reason as long as a receipt's texts may get. -/
theorem longReason_exceeds : 4096 ≤ (String.ofList (List.replicate 4096 'x')).utf8ByteSize := by
  have long := length_le_utf8Len (List.replicate 4096 'x')
  rw [List.length_replicate] at long
  rw [String.utf8ByteSize_ofList]
  exact long

/-- A rejection so long that the words in front of it do not fit any more is dropped. -/
theorem unanswered_of_longRejection (h : Coherent N s) (regular : Regular r receipt)
    (found : s.writes[r]? = some receipt) (isOpen : receipt.isTerminal = false)
    (authorized : receipt.current.publication.signature = .authorized) (long : 4096 ≤ text.utf8ByteSize)
    (publicKey : PublicKey) (generation : Nat) :
    Unanswered (finishSigning N true receipt publicKey generation (.error (.rejected text)) s).2 r
      receipt.current.publication.revisionId := by
  by_contra answered
  obtain ⟨fits, -⟩ := (refuseSigning_settles_iff h found authorized isOpen regular.named.2).mp answered
  have room : text.utf8ByteSize ≤ 4073 := (prefixed_fits_iff (by decide)).mp fits
  exact absurd (long.trans room) (by decide)

/-- The write of an unsigned note that is handed to its signer. -/
def handedToSigner : List Action :=
  [.accept ⟨.event ⟨some 18, 7, 10, 1, [], ""⟩, .automatic, .unauthenticated⟩,
    .authorizeSigning 1 1 1 18]

theorem handedToSigner_reaches : ∃ s receipt,
    Run (step plainLibrary 10) Free .default handedToSigner s ∧ s.writes[1]? = some receipt ∧
      receipt.isTerminal = false ∧ receipt.current.publication.signature = .authorized := by
  obtain ⟨s, run, checked⟩ := Run.of_any (show (exec (step plainLibrary 10) Free .default
    handedToSigner).any (fun s => (s.writes[1]?).any fun receipt => !receipt.isTerminal &&
      receipt.current.publication.signature = .authorized) = true by decide +kernel)
  obtain ⟨receipt, found, checked⟩ := (Option.any_eq_true _ _).mp checked
  simp only [Bool.and_eq_true, Bool.not_eq_true', decide_eq_true_eq] at checked
  exact ⟨s, receipt, run, found, checked⟩

/-- The signer rejects the note at length, and the receipt waits on for the answer. -/
theorem long_rejection_stays_authorized : ∃ s receipt,
    Run (step plainLibrary 10) Free .default handedToSigner s ∧ s.writes[1]? = some receipt ∧
      receipt.isTerminal = false ∧ Unanswered (finishSigning plainLibrary true receipt 7 1
        (.error (.rejected (String.ofList (List.replicate 4096 'x')))) s).2 1
        receipt.current.publication.revisionId := by
  obtain ⟨s, receipt, run, found, isOpen, authorized⟩ := handedToSigner_reaches
  refine ⟨s, receipt, run, found, isOpen, ?_⟩
  exact unanswered_of_longRejection (run_coherent run) (run_regular run 1 receipt found) found isOpen
    authorized longReason_exceeds 7 1

theorem utf8Size_hexDigit (n : Nat) : (hexDigit (n % 16)).utf8Size = 1 := by
  have each : ∀ n < 16, (hexDigit n).utf8Size = 1 := by decide
  exact each _ (Nat.mod_lt n (by decide))

theorem utf8Len_toHex (width n : Nat) : String.utf8Len (toHex width n) = width := by
  induction width generalizing n with
  | zero => rfl
  | succ width ih =>
    rw [toHex, String.utf8Len_append, ih, String.utf8Len, String.utf8Len, utf8Size_hexDigit]

/-- An acknowledgement without words ends the attempt it answers. -/
theorem plain_acknowledgement_settles : ∃ s receipt,
    Run (step plainLibrary 10) Free .default firstAttempt s ∧ s.writes[1]? = some receipt ∧
      ¬LaneStays (finishAttempt receipt.writeId 1 receipt.current.publication.revisionId
        receipt.current.id "wss://a.example" 1 (.acknowledged "") s) 1 "wss://a.example"
        (· = .attempting) := by
  obtain ⟨s, run, checked⟩ := Run.of_any (show (exec (step plainLibrary 10) Free .default
    firstAttempt).any (fun s => s.revision = 3 && (s.writes[1]?).any fun receipt =>
      !receipt.isTerminal && receipt.destinations["wss://a.example"]? = some .attempting &&
        receipt.attempts["wss://a.example"]? = some 1) = true by decide +kernel)
  rw [Bool.and_eq_true, decide_eq_true_eq] at checked
  obtain ⟨revision, checked⟩ := checked
  obtain ⟨receipt, found, checked⟩ := (Option.any_eq_true _ _).mp checked
  simp only [Bool.and_eq_true, Bool.not_eq_true', decide_eq_true_eq] at checked
  obtain ⟨⟨isOpen, lane⟩, numbered⟩ := checked
  have hex : ∀ id, (plainLibrary.idToHex id).utf8ByteSize = 64 := by
    intro id
    rw [plainLibrary, String.utf8ByteSize_ofList, utf8Len_toHex]
  refine ⟨s, receipt, run, found, ?_⟩
  refine ((completions_settle_iff hex run found isOpen).2.1 _ 1 lane numbered (.acknowledged "")).mpr
    ⟨by decide, ?_⟩
  rw [revision]
  decide

end Sample

end Publication

end Fava
