import Fava.WriteStore.Memory.Lanes

namespace Fava.WriteStore.Memory

open Std Fava.Lib Fava.Nostr Fava.Relay Fava.Routing Fava.Write

/-- Every lane that an attempt was made for has its number on record. -/
def Tried (receipt : Receipt) : Prop :=
  ∀ (session : RelayUrl) (outcome : RelayDeliveryOutcome),
    receipt.destinations[session]? = some outcome → outcome = .attempting ∨ outcome.isRetryable = true →
      (receipt.attempts[session]?).isSome = true

/-- What holds of every receipt under its identity: its numbers are counted, only an
unsigned event is handed to a signer, and lanes keep the number of their last attempt. -/
structure Regular (r : ReceiptId) (receipt : Receipt) : Prop where
  named : receipt.writeId = r ∧ receipt.receiptId = r
  counted : r < counterBound ∧ receipt.current.publication.revisionId < counterBound
  unsigned : receipt.current.publication.signature = .authorized →
    ∃ event, receipt.current.event = .unsigned event
  tried : Tried receipt

variable {N : Library} {s : WriteState} {r : ReceiptId} {receipt updated : Receipt}

section Routes

variable {plan : RoutePlan}

theorem attempts_withdraw {receipt : Receipt} {session other : RelayUrl}
    (kept : receipt.destinations[other]? ≠ some .pending) :
    (withdraw receipt session).attempts[other]? = receipt.attempts[other]? := by
  unfold withdraw
  split
  · rename_i pending
    have apart : session ≠ other := by
      rintro rfl
      exact kept pending
    exact BTreeMap.find_erase.trans (if_neg apart)
  · rfl
  · rfl

theorem destinations_withdraw_ne_pending {receipt : Receipt} {session other : RelayUrl}
    (kept : receipt.destinations[other]? ≠ some .pending) :
    (withdraw receipt session).destinations[other]? ≠ some .pending := by
  rw [destinations_withdraw]
  split
  · cases lane : receipt.destinations[other]? with
    | none => exact nofun
    | some outcome =>
      rw [lane] at kept
      cases outcome with
      | pending => exact (kept rfl).elim
      | _ => exact nofun
  · exact kept

theorem attempts_foldl_withdraw {sessions : List RelayUrl} {receipt : Receipt} {other : RelayUrl}
    (kept : receipt.destinations[other]? ≠ some .pending) :
    (sessions.foldl withdraw receipt).attempts[other]? = receipt.attempts[other]? := by
  induction sessions generalizing receipt with
  | nil => rfl
  | cons session sessions ih =>
    rw [List.foldl_cons, ih (destinations_withdraw_ne_pending kept), attempts_withdraw kept]

theorem attempts_foldl_provide {sessions : List RelayUrl} {receipt : Receipt} :
    (sessions.foldl provide receipt).attempts = receipt.attempts := by
  induction sessions generalizing receipt with
  | nil => rfl
  | cons session sessions ih =>
    rw [List.foldl_cons, ih]
    rfl

theorem attempts_settleRoute : (settleRoute receipt).attempts = receipt.attempts := by
  unfold settleRoute
  repeat' split
  all_goals rfl

theorem attempts_settle : (settle receipt).attempts = receipt.attempts := by
  unfold settle
  split <;> rfl

theorem Tried.applyNewer (tried : Tried receipt)
    (applied : applyNewerRouteToReceipt N receipt plan = .ok updated) : Tried updated := by
  intro session outcome lane waits
  have before : receipt.destinations[session]? = some outcome := by
    rw [(applyNewer_lanes applied).2 session] at lane
    split at lane
    · cases found : receipt.destinations[session]? with
      | none =>
        rw [found] at lane
        cases lane
        obtain is | is := waits <;> cases is
      | some previous =>
        rw [found] at lane
        exact lane
    · split at lane
      · cases found : receipt.destinations[session]? with
        | none =>
          rw [found] at lane
          cases lane
        | some previous =>
          rw [found] at lane
          cases previous with
          | pending => cases lane
          | retryable reason =>
            cases lane
            obtain is | is := waits <;> cases is
          | _ => exact lane
      · exact lane
  have numbered := tried session outcome before waits
  obtain ⟨_, -, applied⟩ := bind_eq_ok.mp applied
  obtain rfl := Except.ok.inj applied
  rw [attempts_settleRoute]
  change ((List.foldl provide _ _).attempts[session]?).isSome = true
  rw [attempts_foldl_provide, attempts_foldl_withdraw]
  · exact numbered
  · rw [before]
    rintro is
    cases is
    obtain is | is := waits <;> cases is

theorem Tried.applyRoute (tried : Tried receipt)
    (applied : applyRouteToReceipt N receipt plan = .ok updated) : Tried updated := by
  obtain rfl | ⟨-, -, applied⟩ := applyRoute_cases applied
  · exact tried
  · exact tried.applyNewer applied

theorem Tried.applyInitialRoute {route : Option RoutePlan} (tried : Tried receipt)
    (applied : applyInitialRoute N receipt route = .ok updated) : Tried updated := by
  cases route with
  | none =>
    obtain rfl := Except.ok.inj applied
    exact tried
  | some plan => exact tried.applyRoute applied

theorem Tried.of_pending (lanes : ∀ (session : RelayUrl) (outcome : RelayDeliveryOutcome),
    receipt.destinations[session]? = some outcome → outcome = .pending) : Tried receipt := by
  intro session outcome lane waits
  obtain rfl := lanes session outcome lane
  obtain is | is := waits <;> cases is

end Routes

/-- What routing leaves of a receipt is what it was. -/
theorem Regular.of_unrouted (regular : Regular r receipt)
    (same : unrouted updated = unrouted receipt) (tried : Tried updated) : Regular r updated where
  named := by
    have named := regular.named
    rw [← show updated.writeId = receipt.writeId from congrArg (·.writeId) same,
      ← show updated.receiptId = receipt.receiptId from congrArg (·.receiptId) same] at named
    exact named
  counted := by
    have counted := regular.counted
    rw [← show updated.current.publication.revisionId = receipt.current.publication.revisionId from
      congrArg (·.current.publication.revisionId) same] at counted
    exact counted
  unsigned := by
    intro authorized
    rw [show updated.current.publication.signature = receipt.current.publication.signature from
      congrArg (·.current.publication.signature) same] at authorized
    obtain ⟨event, is⟩ := regular.unsigned authorized
    exact ⟨event, (show updated.current.event = receipt.current.event from
      congrArg (·.current.event) same).trans is⟩
  tried := tried

theorem regular_of_enters (enters : Enters N r receipt) : Regular r receipt := by
  obtain ⟨event, signature, source, routing, access, counted, undecided, made, applied⟩ := enters
  obtain ⟨current, new, made⟩ := bind_eq_ok.mp made
  obtain rfl := Except.ok.inj made
  unfold LocalWriteEvent.new at new
  split at new
  · cases new
  · obtain rfl := Except.ok.inj new
    refine Regular.of_unrouted ⟨⟨rfl, rfl⟩, ⟨Nat.lt_of_succ_lt counted, ?_⟩, fun authorized => ?_, ?_⟩
      (applyInitialRoute_eq_ok applied).1 (Tried.applyInitialRoute (.of_pending ?_) applied)
    · change RevisionId.first < counterBound
      decide
    · change signature = .authorized at authorized
      obtain ⟨-, rfl⟩ | ⟨-, rfl⟩ := undecided <;> cases authorized
    · exact .of_pending fun _ _ => pending_of_destinations
    · exact fun _ _ => pending_of_destinations

/-- A new generation starts over with its lanes. -/
theorem Regular.restart {event : UnsignedEvent} {source : Option EventId} {fresh : Receipt}
    {lanes : BTreeMap RelayUrl RelayDeliveryOutcome} {current : LocalWriteEvent}
    {route : Option RoutePlan} (regular : Regular r receipt)
    (allPending : ∀ (session : RelayUrl) (outcome : RelayDeliveryOutcome),
      lanes[session]? = some outcome → outcome = .pending)
    (generated : nextGeneration r receipt event source lanes = .ok current)
    (applied : applyInitialRoute N fresh route = .ok updated)
    (same : fresh.current = current ∧ fresh.writeId = receipt.writeId ∧
      fresh.receiptId = receipt.receiptId) : Regular r updated := by
  have revised : current.publication.revisionId < counterBound := by
    obtain ⟨revisionId, next, generated⟩ := demand_bind_eq_ok.mp generated
    unfold RevisionId.checkedNext at next
    split at next
    · rename_i counts
      cases next
      unfold LocalWriteEvent.new at generated
      split at generated
      · cases generated
      · cases generated
        exact counts
    · cases next
  obtain ⟨is, writeId, receiptId⟩ := same
  obtain ⟨id, -, rfl⟩ := nextGeneration_eq_ok generated
  have lanes' : ∀ (session : RelayUrl) (outcome : RelayDeliveryOutcome),
      fresh.destinations[session]? = some outcome → outcome = .pending := by
    intro session outcome lane
    rw [Receipt.destinations, is] at lane
    exact allPending session outcome lane
  refine Regular.of_unrouted ⟨?_, ⟨regular.counted.1, ?_⟩, fun authorized => ?_, .of_pending lanes'⟩
    (applyInitialRoute_eq_ok applied).1 (Tried.applyInitialRoute (.of_pending lanes') applied)
  · rw [writeId, receiptId]
    exact regular.named
  · rw [is]
    exact revised
  · rw [is] at authorized
    cases authorized

theorem Regular.change {action : Action} (regular : Regular r receipt)
    (changes : Changes N r receipt action updated) : Regular r updated := by
  obtain ⟨named, counted, unsigned, tried⟩ := regular
  cases changes with
  | sign => exact ⟨named, counted, nofun, tried⟩
  | refuse => exact ⟨named, counted, nofun, tried⟩
  | retry => exact ⟨named, counted, nofun, tried⟩
  | authorize _ _ _ holding => exact ⟨named, counted, fun _ => holding, tried⟩
  | fail => exact ⟨named, counted, unsigned, tried⟩
  | route _ _ applied =>
    exact Regular.of_unrouted ⟨named, counted, unsigned, tried⟩ (unrouted_of_applyRoute applied)
      (tried.applyRoute applied)
  | @begin _ _ _ session =>
    refine ⟨named, counted, unsigned, fun other outcome lane waits => ?_⟩
    change (receipt.destinations.insert session .attempting)[other]? = some outcome at lane
    change ((receipt.attempts.insert session _)[other]?).isSome = true
    rw [BTreeMap.find_insert] at lane ⊢
    split at lane
    · rename_i same
      rw [if_pos same]
      rfl
    · rename_i apart
      rw [if_neg apart]
      exact tried other outcome lane waits
  | @outcome _ _ _ session _ _ _ _ _ _ numbered =>
    have regular : Regular r receipt := ⟨named, counted, unsigned, tried⟩
    refine regular.of_unrouted ?_ ?_
    · exact unrouted_settle _
    · intro other reported lane waits
      rw [(settle_lanes _).1] at lane
      change (receipt.destinations.insert session _)[other]? = some reported at lane
      rw [attempts_settle]
      change (receipt.attempts[other]?).isSome = true
      rw [BTreeMap.find_insert] at lane
      split at lane
      · rename_i same
        subst same
        rw [numbered]
        rfl
      · exact tried other reported lane waits
  | cancel =>
    refine ⟨named, counted, unsigned, fun session outcome lane waits => ?_⟩
    change (receipt.destinations.map fun _ _ =>
      RelayDeliveryOutcome.cancelledBeforeHandoff)[session]? = _ at lane
    rw [ExtTreeMap.getElem?_map] at lane
    obtain ⟨_, -, rfl⟩ := Option.map_eq_some_iff.mp lane
    obtain is | is := waits <;> cases is
  | restart _ _ _ _ origin generated applied =>
    exact Regular.restart ⟨named, counted, unsigned, tried⟩ (fun _ _ => pending_of_origin origin)
      generated applied ⟨rfl, rfl, rfl⟩
  | correct _ _ _ _ _ generated applied =>
    exact Regular.restart ⟨named, counted, unsigned, tried⟩ (fun _ _ => pending_of_constant) generated
      applied ⟨rfl, rfl, rfl⟩

/-- Every receipt of a ledger is regular, whatever operations led to it. -/
theorem run_regular {capacity : Nat} {G : WriteState → Action → Prop} {actions : List Action}
    (run : Run (step N capacity) G .default actions s) :
    ∀ (r : ReceiptId) (receipt : Receipt), s.writes[r]? = some receipt → Regular r receipt :=
  run_receipts Regular (fun _ _ => regular_of_enters)
    (fun _ _ _ _ _ _ _ regular changes => regular.change changes) run

end Fava.WriteStore.Memory
