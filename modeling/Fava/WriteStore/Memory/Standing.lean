import Fava.WriteStore.Memory.History

namespace Fava

open Std Lib Nostr Relay Routing Write

/-- The outcome is what a publisher reported. -/
def Write.RelayDeliveryOutcome.isReported : RelayDeliveryOutcome → Bool
  | .retryable _ | .acknowledged _ | .rejected _ | .authenticationDenied _ | .unknown _ => true
  | .pending | .attempting | .givenUp _ | .cancelledBeforeHandoff => false

namespace WriteStore.Memory

variable {N : Library} {capacity : Nat} {s t : WriteState} {r : ReceiptId}
  {receipt updated fresh : Receipt} {action : Action} {plan : RoutePlan} {route : Option RoutePlan}
  {session : RelayUrl} {outcome : RelayDeliveryOutcome}

/-- An attempt is begun, or its outcome is recorded. -/
def Action.isAttempt : Action → Bool
  | .beginAttempt .. | .recordOutcome .. => true
  | _ => false

/-- The same generation some time later, in which nothing was attempted meanwhile. -/
structure Stays (before after : Receipt) : Prop where
  revision : after.current.publication.revisionId = before.current.publication.revisionId
  isOpen : before.isTerminal = false
  event : ∀ event, before.current.event = .signed event → after.current.event = .signed event
  counters : ∀ session, counterOf after session = counterOf before session
  lanes : ∀ (session : RelayUrl) (outcome : RelayDeliveryOutcome),
    after.destinations[session]? = some outcome → outcome.isReported = true →
    before.destinations[session]? = some outcome

/-- A generation at which nothing was attempted. -/
structure Unattempted (receipt : Receipt) : Prop where
  uncounted : ∀ session : RelayUrl, session ∉ receipt.attempts
  lanes : ∀ (session : RelayUrl) (outcome : RelayDeliveryOutcome),
    receipt.destinations[session]? = some outcome → outcome.isReported = false

/-- No route makes up a report. -/
theorem lanes_of_applyRoute (applied : applyRouteToReceipt N receipt plan = .ok updated)
    (found : updated.destinations[session]? = some outcome) (reported : outcome.isReported = true) :
    receipt.destinations[session]? = some outcome := by
  obtain rfl | ⟨-, -, applied⟩ := applyRoute_cases applied
  · exact found
  · rw [(applyNewer_lanes applied).2] at found
    split at found
    · cases lane : receipt.destinations[session]? with
      | none =>
        rw [lane] at found
        cases found
        cases reported
      | some before =>
        rw [lane] at found
        exact found
    · split at found
      · cases lane : receipt.destinations[session]? with
        | none =>
          rw [lane] at found
          cases found
        | some before =>
          rw [lane] at found
          cases before <;> cases found <;> first | rfl | cases reported
      · exact found

theorem Unattempted.applyInitialRoute (unattempted : Unattempted receipt)
    (applied : applyInitialRoute N receipt route = .ok updated) : Unattempted updated := by
  cases route with
  | none =>
    obtain rfl := Except.ok.inj applied
    exact unattempted
  | some plan =>
    refine ⟨fun session counted => ?_, fun session outcome found => ?_⟩
    · obtain rfl | ⟨-, -, newer⟩ := applyRoute_cases applied
      · exact unattempted.uncounted session counted
      · exact unattempted.uncounted session ((mem_attempts_applyNewer newer).mp counted).1
    · by_contra reported
      have reported := Bool.of_not_eq_false reported
      have before := lanes_of_applyRoute applied found reported
      rw [unattempted.lanes session outcome before] at reported
      cases reported

theorem unattempted_of_pending (empty : receipt.attempts = ∅)
    (pending : ∀ (session : RelayUrl) (outcome : RelayDeliveryOutcome),
      receipt.destinations[session]? = some outcome → outcome = .pending) : Unattempted receipt where
  uncounted session counted := by
    rw [empty] at counted
    exact ExtTreeMap.not_mem_empty counted
  lanes session outcome found := by
    rw [pending session outcome found]
    rfl

theorem unattempted_of_enters (enters : Enters N r receipt) : Unattempted receipt := by
  obtain ⟨event, signature, source, routing, access, -, -, made, applied⟩ := enters
  obtain ⟨current, new, made⟩ := bind_eq_ok.mp made
  obtain rfl := Except.ok.inj made
  unfold LocalWriteEvent.new at new
  split at new
  · cases new
  · obtain rfl := Except.ok.inj new
    exact (unattempted_of_pending rfl fun _ _ => pending_of_destinations).applyInitialRoute applied

theorem renewed_of_generated {event : UnsignedEvent} {source : Option EventId}
    {lanes : BTreeMap RelayUrl RelayDeliveryOutcome} {current : LocalWriteEvent}
    (generated : nextGeneration r receipt event source lanes = .ok current)
    (applied : applyInitialRoute N fresh route = .ok updated) (is : fresh.current = current) :
    updated.current.publication.revisionId = receipt.current.publication.revisionId + 1 := by
  obtain ⟨id, -, rfl⟩ := nextGeneration_eq_ok generated
  rw [show updated.current.publication.revisionId = fresh.current.publication.revisionId from
    congrArg (·.current.publication.revisionId) (applyInitialRoute_eq_ok applied).1, is]

/-- What any other operation than an attempt's makes of a receipt. -/
theorem stays_or_renewed (recorded : Recorded receipt)
    (changes : Changes N r receipt action updated) (other : action.isAttempt = false) :
    Stays receipt updated ∨
      updated.current.publication.revisionId = receipt.current.publication.revisionId + 1 ∧
        Unattempted updated := by
  cases changes with
  | sign unsigned isOpen verified holding =>
    refine .inl ⟨rfl, isOpen, fun event holds => ?_, fun _ => rfl, fun _ _ found _ => found⟩
    rw [holding] at holds
    cases holds
  | refuse isOpen | retry isOpen | authorize _ isOpen | fail _ isOpen =>
    exact .inl ⟨rfl, isOpen, fun _ => id, fun _ => rfl, fun _ _ found _ => found⟩
  | route isOpen _ applied =>
    have same := unrouted_of_applyRoute applied
    refine .inl ⟨congrArg (·.current.publication.revisionId) same, isOpen, fun event holds => ?_,
      fun session => congrArg (Option.getD · 0) ((recorded.applyRoute applied).2.1 session),
      fun session outcome => lanes_of_applyRoute applied⟩
    exact (congrArg (·.current.event) same).trans holds
  | begin => cases other
  | outcome => cases other
  | cancel isOpen =>
    refine .inl ⟨rfl, isOpen, fun _ => id, fun _ => rfl, fun session outcome found reported => ?_⟩
    change (receipt.destinations.map fun _ _ =>
      RelayDeliveryOutcome.cancelledBeforeHandoff)[session]? = _ at found
    rw [ExtTreeMap.getElem?_map] at found
    obtain ⟨_, -, rfl⟩ := Option.map_eq_some_iff.mp found
    cases reported
  | restart event source lanes _ origin generated applied =>
    refine .inr ⟨renewed_of_generated generated applied rfl, ?_⟩
    obtain ⟨id, -, rfl⟩ := nextGeneration_eq_ok generated
    exact (unattempted_of_pending rfl fun _ _ => pending_of_origin origin).applyInitialRoute applied
  | correct event source _ _ _ generated applied =>
    refine .inr ⟨renewed_of_generated generated applied rfl, ?_⟩
    obtain ⟨id, -, rfl⟩ := nextGeneration_eq_ok generated
    exact (unattempted_of_pending rfl fun _ _ => pending_of_constant).applyInitialRoute applied

/-- A generation keeps its signed event. -/
theorem signed_of_changes {event : Event} (recorded : Recorded receipt)
    (changes : Changes N r receipt action updated)
    (same : updated.current.publication.revisionId = receipt.current.publication.revisionId)
    (signed : receipt.current.event = .signed event) : updated.current.event = .signed event := by
  cases attempts : action.isAttempt with
  | false =>
    obtain stays | ⟨renewed, -⟩ := stays_or_renewed recorded changes attempts
    · exact stays.event event signed
    · exact absurd (same.symm.trans renewed) (Nat.ne_of_lt (Nat.lt_succ_self _))
  | true =>
    cases changes with
    | begin => exact signed
    | @outcome _ _ _ session _ outcome =>
      have kept := unrouted_settle
        (receipt.withDestinations (receipt.destinations.insert session outcome))
      exact (congrArg (·.current.event) kept).trans signed
    | sign | refuse | retry | authorize | fail | route | cancel => cases attempts
    | restart _ _ _ _ _ generated applied | correct _ _ _ _ _ generated applied =>
      have renewed := renewed_of_generated generated applied rfl
      exact absurd (same.symm.trans renewed) (Nat.ne_of_lt (Nat.lt_succ_self _))

section Attempts

variable {writeId : WriteId} {revisionId : RevisionId} {eventId : EventId} {attempt : Nat}

/-- A receipt one of whose lanes is attempted. -/
def begun (receipt : Receipt) (session : RelayUrl) (attempt : Nat) : Receipt :=
  { receipt.withDestinations (receipt.destinations.insert session .attempting) with
    attempts := receipt.attempts.insert session attempt }

/-- A receipt with the outcome of an attempt. -/
def reported (receipt : Receipt) (session : RelayUrl) (outcome : RelayDeliveryOutcome) : Receipt :=
  settle (receipt.withDestinations (receipt.destinations.insert session outcome))

/-- An attempt that is not refused is under way already, or it begins. -/
theorem beginAttempt_of_ok
    (began : beginAttemptCurrent writeId r revisionId eventId session attempt s = (.ok updated, t)) :
    ∃ receipt, s.writes[r]? = some receipt ∧
      validateCurrentRevision receipt writeId revisionId eventId = .ok () ∧
      (counterOf receipt session = attempt ∧ updated = receipt ∧ t = s ∨
        attempt = counterOf receipt session + 1 ∧
          (∃ outcome, receipt.destinations[session]? = some outcome ∧ outcome.isPreHandoff = true) ∧
          updated = begun receipt session attempt ∧ t.writes = s.writes.insert r updated) := by
  unfold beginAttemptCurrent atomically at began
  split at began
  · rename_i done
    cases began
    obtain ⟨receipt, found, done⟩ := demand_bind_eq_ok.mp done
    obtain ⟨_, current, done⟩ := bind_eq_ok.mp done
    refine ⟨receipt, found, current, ?_⟩
    dsimp only at done
    split at done
    · rename_i under
      cases done
      exact .inl ⟨under.1, rfl, rfl⟩
    · obtain ⟨-, done⟩ := require_bind_eq_ok.mp done
      obtain ⟨later, done⟩ := require_bind_eq_ok.mp done
      obtain ⟨outcome, lane, done⟩ := demand_bind_eq_ok.mp done
      obtain ⟨waits, done⟩ := require_bind_eq_ok.mp done
      obtain ⟨recorded, stored, done⟩ := bind_eq_ok.mp done
      cases done
      obtain ⟨revision, rfl⟩ := record_eq_ok stored
      exact .inr ⟨later, ⟨outcome, lane, waits⟩, rfl, rfl⟩
  · cases began

theorem revision_of_valid
    (valid : validateCurrentRevision receipt writeId revisionId eventId = .ok ()) :
    receipt.isTerminal = false ∧ receipt.current.publication.revisionId = revisionId := by
  refine ⟨open_of_validateCurrentRevision valid, ?_⟩
  unfold validateCurrentRevision at valid
  split at valid
  · cases valid
  · rename_i current
    exact not_not.mp fun differs => current (.inr (.inr (.inl differs)))

/-- Recording an outcome touches its lane only. -/
theorem reported_keeps (receipt : Receipt) (session : RelayUrl) (outcome : RelayDeliveryOutcome) :
    (reported receipt session outcome).current.publication.revisionId =
        receipt.current.publication.revisionId ∧
      (∀ other, counterOf (reported receipt session outcome) other = counterOf receipt other) ∧
      ∀ other : RelayUrl, (reported receipt session outcome).destinations[other]? =
        if session = other then some outcome else receipt.destinations[other]? := by
  have same := unrouted_settle (receipt.withDestinations (receipt.destinations.insert session outcome))
  refine ⟨congrArg (·.current.publication.revisionId) same, fun other => ?_, fun other => ?_⟩
  · rw [counterOf, reported, attempts_settle]
    rfl
  · rw [reported, (settle_lanes _).1]
    exact BTreeMap.find_insert

/-- Beginning an attempt touches its lane only. -/
theorem begun_keeps (receipt : Receipt) (session : RelayUrl) (attempt : Nat) :
    (∀ other, counterOf (begun receipt session attempt) other =
        if session = other then attempt else counterOf receipt other) ∧
      ∀ other : RelayUrl, (begun receipt session attempt).destinations[other]? =
        if session = other then some .attempting else receipt.destinations[other]? := by
  refine ⟨fun other => ?_, fun other => BTreeMap.find_insert⟩
  show ((receipt.attempts.insert session attempt)[other]?).getD 0 = _
  rw [BTreeMap.find_insert]
  split <;> rfl

theorem beginAttempt_of_error {error : WriteStoreError}
    (failed : beginAttemptCurrent writeId r revisionId eventId session attempt s = (.error error, t)) :
    t = s := by
  unfold beginAttemptCurrent atomically at failed
  split at failed
  · cases failed
  · exact (congrArg Prod.snd failed).symm

/-- The outcome of an attempt changes nothing, or it is put on record. -/
theorem recordOutcome_cases :
    (recordOutcomeCurrent writeId r revisionId eventId session attempt outcome s).2 = s ∨
    ∃ receipt current, s.writes[r]? = some receipt ∧
      validateCurrentRevision receipt writeId revisionId eventId = .ok () ∧
      receipt.attempts[session]? = some attempt ∧ receipt.destinations[session]? = some current ∧
      (outcome.isTerminal = true ∨ outcome.isRetryable = true) ∧
      (current = .attempting ∨ current.isRetryable = true ∧ outcome.isGivenUp = true) ∧
      ∃ revision, (recordOutcomeCurrent writeId r revisionId eventId session attempt outcome s).2 =
        released { s with
          revision := revision
          writes := s.writes.insert r (reported receipt session outcome) } r
          (reported receipt session outcome) := by
  unfold recordOutcomeCurrent atomically
  split
  · rename_i answer t done
    obtain ⟨_, -, done⟩ := bind_eq_ok.mp done
    obtain ⟨decided, done⟩ := require_bind_eq_ok.mp done
    obtain ⟨receipt, found, done⟩ := demand_bind_eq_ok.mp done
    obtain ⟨_, valid, done⟩ := bind_eq_ok.mp done
    obtain ⟨tried, done⟩ := require_bind_eq_ok.mp done
    obtain ⟨current, lane, done⟩ := demand_bind_eq_ok.mp done
    split at done
    · cases done
      exact .inl rfl
    · obtain ⟨moves, done⟩ := require_bind_eq_ok.mp done
      obtain ⟨recorded, stored, done⟩ := bind_eq_ok.mp done
      obtain ⟨revision, rfl⟩ := record_eq_ok stored
      cases done
      exact .inr ⟨receipt, current, found, valid, tried, lane, decided, moves, revision, rfl⟩
  · exact .inl rfl

end Attempts

section Over

/-- A generation that never is open again: its receipt is gone or has ended in it, or a later
generation took over. -/
def Over (s : WriteState) (r : ReceiptId) (revisionId : RevisionId) : Prop :=
  ∀ receipt : Receipt, s.writes[r]? = some receipt →
    revisionId < receipt.current.publication.revisionId ∨
      revisionId = receipt.current.publication.revisionId ∧ receipt.isTerminal = true

theorem open_of_changes (changes : Changes N r receipt action updated)
    (same : updated.current.publication.revisionId = receipt.current.publication.revisionId) :
    receipt.isTerminal = false := by
  cases changes with
  | sign _ isOpen | refuse isOpen | retry isOpen | authorize _ isOpen | fail _ isOpen
  | route isOpen | begin _ isOpen | outcome _ isOpen | cancel isOpen | correct _ _ isOpen =>
    exact isOpen
  | restart _ _ _ _ _ generated applied =>
    have renewed := renewed_of_generated generated applied rfl
    exact absurd (same.symm.trans renewed) (Nat.ne_of_lt (Nat.lt_succ_self _))

variable
  (recorded : ∀ (r : ReceiptId) (receipt : Receipt), s.writes[r]? = some receipt → Recorded receipt)
  (transition : Transition N capacity s action t) {revisionId : RevisionId}

include recorded transition in
/-- What is over stays over. -/
theorem Over.step (past : Over s r revisionId) (used : r < s.nextIdentity) : Over t r revisionId := by
  intro receipt found
  obtain kept | ⟨before, present, changes⟩ | ⟨new, -⟩ := transition.receipts r receipt found
  · exact past receipt kept
  · have later := ((recorded r before present).proceeds changes).later.revision
    obtain less | ⟨rfl, terminal⟩ := past before present
    · exact .inl (Nat.lt_of_lt_of_le less later)
    · obtain same | less := Nat.eq_or_lt_of_le later
      · rw [open_of_changes changes same.symm] at terminal
        cases terminal
      · exact .inl less
  · exact absurd used (Nat.not_lt.mpr (Nat.le_of_eq new.symm))

end Over

/-- A call of `cancel` fails, finds nothing, finds the receipt cancelled already, or cancels it. -/
theorem cancel_cases : (∃ error, cancel r s = (.error error, s)) ∨ cancel r s = (.ok none, s) ∨
    ∃ receipt, s.writes[r]? = some receipt ∧
      (receipt.outcome = .cancelled ∧ cancel r s = (.ok (some receipt), s) ∨
        receipt.isTerminal = false ∧ ∃ revision, cancel r s = (.ok (some (cancelled receipt)),
          releaseSemantic { s with
            revision := revision
            writes := s.writes.insert r (cancelled receipt) } r)) := by
  unfold cancel atomically
  split
  · rename_i answer t done
    obtain ⟨revision, -, done⟩ := bind_eq_ok.mp done
    split at done
    · cases done
      exact .inr (.inl rfl)
    · rename_i receipt found
      refine .inr (.inr ⟨receipt, found, ?_⟩)
      split at done
      · rename_i already
        cases done
        exact .inl ⟨already, rfl⟩
      · obtain ⟨⟨isOpen, -⟩, done⟩ := require_bind_eq_ok.mp done
        cases done
        exact .inr ⟨Bool.of_not_eq_true isOpen, revision, rfl⟩
  · exact .inl ⟨_, rfl⟩

end WriteStore.Memory

end Fava
