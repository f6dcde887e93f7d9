import Fava.WriteStore.Memory.Standing

namespace Fava.WriteStore.Memory

open Std Fava.Lib Fava.Nostr Fava.Relay Fava.Routing Fava.Write

variable {N : Library} {capacity : Nat} {s : WriteState} {r : ReceiptId}
  {receipt updated fresh before after : Receipt} {action : Action} {route : Option RoutePlan}

/-- What one operation does to the event of a generation and to its signature. -/
inductive Resigned (N : Library) (r : ReceiptId) (receipt : Receipt) : Action → Receipt → Prop
  | signed {writeId : WriteId} {revisionId : RevisionId} {eventId : EventId} {event : Event}
      {unsigned : UnsignedEvent} {updated : Receipt} (verified : N.verify event = .ok ())
      (holding : receipt.current.event = .unsigned unsigned) (signed : signs event unsigned)
      (allowed : receipt.current.publication.signature = .authorized ∨
        receipt.current.publication.signature = .signed)
      (now : updated.current.event = .signed event)
      (signature : updated.current.publication.signature = .signed)
      (revision : updated.current.publication.revisionId = receipt.current.publication.revisionId)
      (id : updated.current.id = receipt.current.id) (isOpen : receipt.isTerminal = false) :
      Resigned N r receipt (.installSigned writeId r revisionId eventId event) updated
  | kept {action : Action} {updated : Receipt} (isOpen : receipt.isTerminal = false)
      (event : updated.current.event = receipt.current.event)
      (revision : updated.current.publication.revisionId = receipt.current.publication.revisionId)
      (id : updated.current.id = receipt.current.id)
      (signature : updated.current.publication.signature = .authorized →
        receipt.current.publication.signature = .authorized ∨
          ∃ writeId revisionId eventId, action = .authorizeSigning writeId r revisionId eventId) :
      Resigned N r receipt action updated
  | renewed {action : Action} {updated : Receipt} {unsigned : UnsignedEvent}
      (revision : updated.current.publication.revisionId = receipt.current.publication.revisionId + 1)
      (event : updated.current.event = .unsigned unsigned)
      (signature : updated.current.publication.signature = .unsigned) :
      Resigned N r receipt action updated

theorem resigned_of_unrouted (isOpen : receipt.isTerminal = false)
    (same : unrouted updated = unrouted receipt) : Resigned N r receipt action updated := by
  refine .kept isOpen (congrArg (·.current.event) same)
    (congrArg (·.current.publication.revisionId) same) (congrArg (·.current.id) same) fun signature => ?_
  exact .inl ((congrArg (·.current.publication.signature) same).symm.trans signature)

theorem resigned_of_generated {event : UnsignedEvent} {source : Option EventId}
    {lanes : BTreeMap RelayUrl RelayDeliveryOutcome} {current : LocalWriteEvent}
    (generated : nextGeneration r receipt event source lanes = .ok current)
    (applied : applyInitialRoute N fresh route = .ok updated) (is : fresh.current = current) :
    Resigned N r receipt action updated := by
  have revision := renewed_of_generated generated applied is
  obtain ⟨id, -, rfl⟩ := nextGeneration_eq_ok generated
  have same := (applyInitialRoute_eq_ok applied).1
  have holds : updated.current.event = .unsigned event :=
    (congrArg (·.current.event) same).trans (congrArg (·.event) is)
  exact .renewed revision holds
    ((congrArg (·.current.publication.signature) same).trans (congrArg (·.publication.signature) is))

theorem resigned_of_changes (changes : Changes N r receipt action updated) :
    Resigned N r receipt action updated := by
  cases changes with
  | sign unsigned isOpen verified holding signed allowed =>
    exact .signed verified holding signed allowed rfl rfl rfl rfl isOpen
  | refuse isOpen | retry isOpen =>
    exact .kept isOpen rfl rfl rfl fun signature => by cases signature
  | authorize _ isOpen => exact .kept isOpen rfl rfl rfl fun _ => .inr ⟨_, _, _, rfl⟩
  | fail _ isOpen | cancel isOpen => exact .kept isOpen rfl rfl rfl .inl
  | begin _ isOpen => exact .kept isOpen rfl rfl rfl .inl
  | route isOpen _ applied => exact resigned_of_unrouted isOpen (unrouted_of_applyRoute applied)
  | @outcome _ _ _ session _ outcome _ isOpen =>
    exact resigned_of_unrouted isOpen ((unrouted_settle
      (receipt.withDestinations (receipt.destinations.insert session outcome))))
  | restart _ _ _ _ _ generated applied | correct _ _ _ _ _ generated applied =>
    exact resigned_of_generated generated applied rfl

/-- A receipt some time later: while its generation is the same, so is its event, but for a
signature. -/
structure Ages (before after : Receipt) : Prop where
  revision : before.current.publication.revisionId ≤ after.current.publication.revisionId
  id : after.current.publication.revisionId = before.current.publication.revisionId →
    after.current.id = before.current.id
  event : after.current.publication.revisionId = before.current.publication.revisionId →
    after.current.event = before.current.event ∨ ∃ unsigned event,
      before.current.event = .unsigned unsigned ∧ after.current.event = .signed event

theorem Ages.refl (receipt : Receipt) : Ages receipt receipt :=
  ⟨Nat.le_refl _, fun _ => rfl, fun _ => .inl rfl⟩

theorem Ages.step (ages : Ages before receipt) (resigned : Resigned N r receipt action after) :
    Ages before after := by
  cases resigned with
  | signed _ holding _ _ now _ revision id =>
    refine ⟨revision ▸ ages.revision, fun same => ?_, fun same => ?_⟩
    · exact id.trans (ages.id (revision.symm.trans same))
    · obtain kept | ⟨_, _, -, already⟩ := ages.event (revision.symm.trans same)
      · exact .inr ⟨_, _, kept.symm.trans holding, now⟩
      · rw [holding] at already
        cases already
  | kept _ event revision id =>
    refine ⟨revision ▸ ages.revision, fun same => ?_, fun same => ?_⟩
    · exact id.trans (ages.id (revision.symm.trans same))
    · rw [event]
      exact ages.event (revision.symm.trans same)
  | renewed revision =>
    have later : before.current.publication.revisionId < after.current.publication.revisionId := by
      rw [revision]
      exact Nat.lt_succ_of_le ages.revision
    exact ⟨Nat.le_of_lt later, fun same => absurd same (Nat.ne_of_gt later),
      fun same => absurd same (Nat.ne_of_gt later)⟩

/-- While a generation is unsigned, its event is what it was. -/
theorem Ages.unsigned {unsigned : UnsignedEvent} (ages : Ages before after)
    (same : after.current.publication.revisionId = before.current.publication.revisionId)
    (holding : after.current.event = .unsigned unsigned) : before.current.event = .unsigned unsigned := by
  obtain kept | ⟨_, _, -, signed⟩ := ages.event same
  · exact kept.symm.trans holding
  · rw [holding] at signed
    cases signed

/-- A receipt that was read from the ledger, some time later. -/
structure WasRead (ledger : WriteState) (receipt : Receipt) : Prop where
  used : receipt.receiptId < ledger.nextIdentity
  regular : Regular receipt.receiptId receipt
  ages : ∀ now : Receipt, ledger.writes[receipt.receiptId]? = some now → Ages receipt now

theorem WasRead.perform (held : WasRead s receipt) (action : Action) :
    WasRead (Memory.perform N capacity s action) receipt := by
  have transition := perform_transition N capacity s action
  refine ⟨Nat.lt_of_lt_of_le held.used transition.counts, held.regular, fun now found => ?_⟩
  obtain kept | ⟨before, present, changes⟩ | ⟨new, -⟩ := transition.receipts _ _ found
  · exact held.ages now kept
  · exact (held.ages before present).step (resigned_of_changes changes)
  · exact absurd held.used (Nat.not_lt.mpr (Nat.le_of_eq new.symm))

theorem WasRead.of_run {actions : List Action} (run : Run (step N capacity) Free .default actions s)
    (found : s.writes[r]? = some receipt) : receipt.receiptId = r ∧ WasRead s receipt := by
  have regular := run_regular run r receipt found
  have named := regular.named.2
  refine ⟨named, ?_⟩
  rw [← named] at found regular
  refine ⟨(run_coherent run).used found, regular, fun now present => ?_⟩
  rw [found] at present
  cases present
  exact .refl receipt

/-- Only the operation that installs a signature makes a signed event of a receipt. -/
theorem installed_of_signed {event : Event}
    (found : s.writes[r]? = some before) (now : (perform N capacity s action).writes[r]? = some after)
    (used : r < s.nextIdentity) (signed : after.current.event = .signed event)
    (unsigned : before.current.event ≠ .signed event) :
    ∃ writeId revisionId eventId body, action = .installSigned writeId r revisionId eventId event ∧
      before.current.event = .unsigned body ∧ signs event body ∧ N.verify event = .ok () ∧
      (before.current.publication.signature = .authorized ∨
        before.current.publication.signature = .signed) ∧
      after.current.publication.revisionId = before.current.publication.revisionId := by
  obtain kept | ⟨receipt, present, changes⟩ | ⟨new, -⟩ :=
    (perform_transition N capacity s action).receipts _ _ now
  · rw [found] at kept
    cases kept
    exact absurd signed unsigned
  · rw [found] at present
    cases present
    cases resigned_of_changes changes with
    | signed verified holding signs allowed event _ revision =>
      rw [signed] at event
      cases event
      exact ⟨_, _, _, _, rfl, holding, signs, verified, allowed, revision⟩
    | kept _ event =>
      rw [signed] at event
      exact absurd event.symm unsigned
    | renewed _ event =>
      rw [signed] at event
      cases event
  · exact absurd used (Nat.not_lt.mpr (Nat.le_of_eq new.symm))

/-- A signature is installed for the current generation only. -/
theorem current_of_installed {writeId : WriteId} {revisionId : RevisionId} {eventId : EventId} {event : Event}
    (found : s.writes[r]? = some before)
    (now : (installSignedCurrent N writeId r revisionId eventId event s).2.writes[r]? = some after)
    (apart : after ≠ before) : before.current.publication.revisionId = revisionId := by
  unfold installSignedCurrent concludeSigning at now
  split at now
  · rw [found] at now
    cases now
    exact absurd rfl apart
  · rw [found] at now
    cases now
    exact absurd rfl apart
  · rename_i standing
    obtain ⟨_, -, standing⟩ := bind_eq_ok.mp standing
    obtain ⟨receipt, present, standing⟩ := demand_bind_eq_ok.mp standing
    obtain ⟨_, current, -⟩ := bind_eq_ok.mp standing
    rw [found] at present
    cases present
    exact (revision_of_valid current).2

/-- What is authorized is the current generation, which is unsigned. -/
theorem authorizeSigning_of_ok {writeId : WriteId} {revisionId : RevisionId} {eventId : EventId}
    {t : WriteState} (done : authorizeSigningCurrent N writeId r revisionId eventId s = (.ok updated, t)) :
    t.writes[r]? = some updated ∧ updated.current.publication.revisionId = revisionId ∧
      ∃ body, updated.current.event = .unsigned body := by
  unfold authorizeSigningCurrent atomically at done
  split at done
  · rename_i done'
    cases done
    obtain ⟨receipt, found, done'⟩ := demand_bind_eq_ok.mp done'
    obtain ⟨_, current, done'⟩ := bind_eq_ok.mp done'
    obtain ⟨unsigned, done'⟩ := require_bind_eq_ok.mp done'
    have revision := (revision_of_valid current).2
    have body : ∃ body, receipt.current.event = .unsigned body := by
      cases holding : receipt.current.event with
      | unsigned body => exact ⟨body, rfl⟩
      | signed event =>
        rw [holding] at unsigned
        cases unsigned
    dsimp only at done'
    split at done'
    · cases done'
      exact ⟨found, revision, body⟩
    · cases done'
    · cases done'
    all_goals
      split at done'
      · cases done'
        exact ⟨found, revision, body⟩
      · obtain ⟨recorded, stored, done'⟩ := bind_eq_ok.mp done'
        cases done'
        obtain ⟨_, rfl⟩ := record_eq_ok stored
        exact ⟨BTreeMap.find_insert_self, revision, body⟩
  · cases done

/-- The generation of a receipt that was read is over: there is another one, or none is open. -/
def Outdated (ledger : WriteState) (receipt : Receipt) : Prop :=
  ∀ now : Receipt, ledger.writes[receipt.receiptId]? = some now → now.isTerminal = true ∨
    now.current.publication.revisionId ≠ receipt.current.publication.revisionId

/-- What is over stays over. -/
theorem Outdated.perform (outdated : Outdated s receipt) (held : WasRead s receipt) (action : Action) :
    Outdated (Memory.perform N capacity s action) receipt := by
  have transition := perform_transition N capacity s action
  intro now found
  obtain kept | ⟨before, present, changes⟩ | ⟨new, -⟩ := transition.receipts _ _ found
  · exact outdated now kept
  · have ages := held.ages before present
    cases resigned_of_changes changes with
    | signed _ _ _ _ _ _ revision _ isOpen | kept isOpen _ revision =>
      obtain ended | differs := outdated before present
      · rw [isOpen] at ended
        cases ended
      · exact .inr (revision ▸ differs)
    | renewed revision =>
      refine .inr fun same => ?_
      rw [revision] at same
      exact absurd ages.revision (Nat.not_le.mpr (same ▸ Nat.lt_succ_self _))
  · exact absurd held.used (Nat.not_lt.mpr (Nat.le_of_eq new.symm))

section Outdated

variable (outdated : Outdated s receipt)
include outdated

theorem Outdated.invalid {writeId : WriteId} {eventId : EventId} {now : Receipt}
    (found : s.writes[receipt.receiptId]? = some now) : validateCurrentRevision now writeId
      receipt.current.publication.revisionId eventId ≠ .ok () := by
  intro valid
  obtain ⟨isOpen, revision⟩ := revision_of_valid valid
  obtain ended | differs := outdated now found
  · rw [isOpen] at ended
    cases ended
  · exact differs revision

theorem Outdated.authorizes {writeId : WriteId} {eventId : EventId} : ∃ error,
    authorizeSigningCurrent N writeId receipt.receiptId receipt.current.publication.revisionId eventId s =
      (.error error, s) := by
  unfold authorizeSigningCurrent atomically
  split
  · rename_i done
    obtain ⟨now, found, done⟩ := demand_bind_eq_ok.mp done
    obtain ⟨_, valid, -⟩ := bind_eq_ok.mp done
    exact absurd valid (outdated.invalid found)
  · exact ⟨_, rfl⟩

/-- What is concluded only after the receipt was found to be current. -/
theorem Outdated.concludes {writeId : WriteId} {eventId : EventId} {first : Except WriteStoreError Unit}
    {standing : Receipt → Except WriteStoreError Standing} {promotes : WriteState → Receipt → Bool}
    {concluded : WriteState → Except WriteStoreError Standing} {recorded : Receipt → Receipt}
    (is : concluded s = first >>= fun _ =>
      demand s.writes[receipt.receiptId]? (.refused "receipt does not exist") >>= fun now =>
        validateCurrentRevision now writeId receipt.current.publication.revisionId eventId >>= fun _ =>
          standing now) :
    ∃ error, concludeSigning N receipt.receiptId promotes concluded recorded s = (.error error, s) := by
  unfold concludeSigning
  cases stands : concluded s with
  | error error => exact ⟨error, rfl⟩
  | ok answer =>
    obtain ⟨_, -, stands⟩ := bind_eq_ok.mp (is.symm.trans stands)
    obtain ⟨now, found, stands⟩ := demand_bind_eq_ok.mp stands
    obtain ⟨_, valid, -⟩ := bind_eq_ok.mp stands
    exact absurd valid (outdated.invalid found)

theorem Outdated.installs {writeId : WriteId} {eventId : EventId} {event : Event} : ∃ error,
    installSignedCurrent N writeId receipt.receiptId receipt.current.publication.revisionId eventId event s =
      (.error error, s) :=
  outdated.concludes rfl

theorem Outdated.refuses {writeId : WriteId} {eventId : EventId} {reason : String} : ∃ error,
    recordSignerRefusalCurrent N writeId receipt.receiptId receipt.current.publication.revisionId eventId
      reason s = (.error error, s) :=
  outdated.concludes rfl

theorem Outdated.retries {writeId : WriteId} {eventId : EventId} {reason : String} : ∃ error,
    recordSignerRetryableCurrent N writeId receipt.receiptId receipt.current.publication.revisionId eventId
      reason s = (.error error, s) :=
  outdated.concludes rfl

end Outdated

end Fava.WriteStore.Memory
