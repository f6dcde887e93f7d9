import Fava.WriteStore.Memory.Bounds
import Fava.WriteStore.Memory.Coherence

namespace Fava.WriteStore.Memory

open Std Fava.Lib Fava.Nostr Fava.Relay Fava.Routing Fava.Write

/-- The number of the last attempt made at a lane. -/
def counterOf (receipt : Receipt) (session : RelayUrl) : Nat :=
  (receipt.attempts[session]?).getD 0

/-- A receipt some time later: revisions go up, and within a revision no attempt is
uncounted and no terminal lane changes. -/
structure Later (before after : Receipt) : Prop where
  revision : before.current.publication.revisionId ≤ after.current.publication.revisionId
  counters : before.current.publication.revisionId = after.current.publication.revisionId →
    ∀ session, counterOf before session ≤ counterOf after session
  closed : before.current.publication.revisionId = after.current.publication.revisionId →
    ∀ (session : RelayUrl) (outcome : RelayDeliveryOutcome),
      before.destinations[session]? = some outcome → outcome.isTerminal = true →
      after.destinations[session]? = some outcome

/-- What one action can do to the history of a receipt. -/
structure Proceeds (N : Library) (r : ReceiptId) (before : Receipt) (action : Action)
    (after : Receipt) : Prop where
  later : Later before after
  /-- A counter moves by one, and only for the attempt that is begun. -/
  counted : before.current.publication.revisionId = after.current.publication.revisionId →
    ∀ session, counterOf after session = counterOf before session ∨
      counterOf after session = counterOf before session + 1 ∧
        ∃ writeId revisionId eventId, action = .beginAttempt writeId r revisionId eventId session
          (counterOf after session)
  /-- A signature is recorded for the event that was authorized. -/
  signed : ∀ event, after.current.event = .signed event → before.current.event = .signed event ∨
    before.current.publication.signature = .authorized ∧
      before.current.publication.revisionId = after.current.publication.revisionId ∧
      ∃ unsigned, before.current.event = .unsigned unsigned ∧ event.pubkey = unsigned.pubkey ∧
        event.kind = unsigned.kind ∧ event.tags = unsigned.tags ∧
        event.content = unsigned.content ∧ event.createdAt = unsigned.createdAt
  /-- An authorized generation stays until its signing has ended. -/
  held : before.current.publication.signature = .authorized →
    before.current.publication.revisionId ≠ after.current.publication.revisionId →
    Concludes N r before action

/-- Every counted lane was tried, and what counts as signed is signed. -/
structure Recorded (receipt : Receipt) : Prop where
  numbered : ∀ session ∈ receipt.attempts, ∃ outcome,
    receipt.destinations[session]? = some outcome ∧ outcome ≠ .pending
  signed : receipt.current.publication.signature = .signed →
    ∃ event, receipt.current.event = .signed event

variable {N : Library} {capacity : Nat} {s t : WriteState} {r : ReceiptId}
  {receipt updated : Receipt} {action : Action} {plan : RoutePlan} {route : Option RoutePlan}

/-- What happens to the histories of a ledger from one state of it to a later one, and with
the next action. -/
structure Monotone (N : Library) (capacity : Nat) (s t : WriteState) : Prop where
  later : ∀ (r : ReceiptId) (before after : Receipt), s.writes[r]? = some before →
    t.writes[r]? = some after → Later before after
  proceeds : ∀ (action : Action) (r : ReceiptId) (before after : Receipt),
    t.writes[r]? = some before → (perform N capacity t action).writes[r]? = some after →
    Proceeds N r before action after
  /-- An outcome of an earlier attempt or an earlier revision changes nothing. -/
  stale : ∀ (writeId : WriteId) (r : ReceiptId) (revisionId : RevisionId) (eventId : EventId)
    (session : RelayUrl) (attempt : Nat) (outcome : RelayDeliveryOutcome) (receipt : Receipt),
    t.writes[r]? = some receipt →
    revisionId < receipt.current.publication.revisionId ∨ attempt < counterOf receipt session →
    perform N capacity t (.recordOutcome writeId r revisionId eventId session attempt outcome) = t

theorem Later.refl (receipt : Receipt) : Later receipt receipt :=
  ⟨Nat.le_refl _, fun _ _ => Nat.le_refl _, fun _ _ _ found _ => found⟩

theorem Later.trans {a b c : Receipt} (first : Later a b) (second : Later b c) : Later a c := by
  have both : a.current.publication.revisionId = c.current.publication.revisionId →
      a.current.publication.revisionId = b.current.publication.revisionId ∧
        b.current.publication.revisionId = c.current.publication.revisionId := by
    intro same
    have start := first.revision
    have rest := second.revision
    rw [← same] at rest
    have middle := Nat.le_antisymm start rest
    exact ⟨middle, middle.symm.trans same⟩
  refine ⟨Nat.le_trans first.revision second.revision, ?_, ?_⟩
  · intro same session
    obtain ⟨left, right⟩ := both same
    exact Nat.le_trans (first.counters left session) (second.counters right session)
  · intro same session outcome found terminal
    obtain ⟨left, right⟩ := both same
    exact second.closed right session outcome (first.closed left session outcome found terminal)
      terminal

section Routes

/-- Withdrawing a lane that was tried leaves it tried. -/
theorem withdrawnLane_tried {outcome : RelayDeliveryOutcome} (tried : outcome ≠ .pending) :
    ∃ left, withdrawnLane (some outcome) = some left ∧ left ≠ .pending ∧
      (outcome.isTerminal = true → left = outcome) := by
  cases outcome with
  | pending => exact absurd rfl tried
  | retryable reason => exact ⟨_, rfl, nofun, nofun⟩
  | _ => exact ⟨_, rfl, nofun, fun _ => rfl⟩

/-- A lane that was tried stays on a newer route, and stays as it is once terminal. -/
theorem tried_of_applyNewer (applied : applyNewerRouteToReceipt N receipt plan = .ok updated)
    {session : RelayUrl} {outcome : RelayDeliveryOutcome}
    (found : receipt.destinations[session]? = some outcome) (tried : outcome ≠ .pending) :
    ∃ left, updated.destinations[session]? = some left ∧ left ≠ .pending ∧
      (outcome.isTerminal = true → left = outcome) := by
  rw [(applyNewer_lanes applied).2, found]
  split
  · exact ⟨outcome, rfl, tried, fun _ => rfl⟩
  · split
    · exact withdrawnLane_tried tried
    · exact ⟨outcome, rfl, tried, fun _ => rfl⟩

theorem Recorded.attempts_applyNewer (recorded : Recorded receipt)
    (applied : applyNewerRouteToReceipt N receipt plan = .ok updated) (session : RelayUrl) :
    updated.attempts[session]? = receipt.attempts[session]? := by
  by_cases counted : session ∈ receipt.attempts
  · obtain ⟨outcome, found, tried⟩ := recorded.numbered session counted
    obtain ⟨_, -, applied⟩ := bind_eq_ok.mp applied
    obtain rfl := Except.ok.inj applied
    rw [attempts_settleRoute]
    show (List.foldl provide _ _).attempts[session]? = _
    rw [attempts_foldl_provide, attempts_foldl_withdraw]
    rw [found]
    exact fun pending => tried (Option.some.inj pending)
  · have uncounted : session ∉ updated.attempts := fun after =>
      counted ((mem_attempts_applyNewer applied).mp after).1
    rw [ExtTreeMap.getElem?_eq_none counted, ExtTreeMap.getElem?_eq_none uncounted]

/-- Routing keeps every count and every lane that was tried. -/
theorem Recorded.applyRoute (recorded : Recorded receipt)
    (applied : applyRouteToReceipt N receipt plan = .ok updated) :
    Recorded updated ∧ (∀ session : RelayUrl, updated.attempts[session]? = receipt.attempts[session]?) ∧
      ∀ (session : RelayUrl) (outcome : RelayDeliveryOutcome),
        receipt.destinations[session]? = some outcome → outcome.isTerminal = true →
        updated.destinations[session]? = some outcome := by
  have same := unrouted_of_applyRoute applied
  have signed : updated.current.publication.signature = .signed →
      ∃ event, updated.current.event = .signed event := by
    rw [show updated.current.publication.signature = receipt.current.publication.signature from
      congrArg (·.current.publication.signature) same,
      show updated.current.event = receipt.current.event from congrArg (·.current.event) same]
    exact recorded.signed
  obtain rfl | ⟨-, -, applied⟩ := applyRoute_cases applied
  · exact ⟨recorded, fun _ => rfl, fun _ _ found _ => found⟩
  · have counts := recorded.attempts_applyNewer applied
    refine ⟨⟨fun session counted => ?_, signed⟩, counts, fun session outcome found terminal => ?_⟩
    · rw [ExtTreeMap.mem_iff_isSome_getElem?, counts, ← ExtTreeMap.mem_iff_isSome_getElem?] at counted
      obtain ⟨outcome, found, tried⟩ := recorded.numbered session counted
      obtain ⟨left, after, still, -⟩ := tried_of_applyNewer applied found tried
      exact ⟨left, after, still⟩
    · have tried : outcome ≠ .pending := by
        rintro rfl
        cases terminal
      obtain ⟨left, after, -, same⟩ := tried_of_applyNewer applied found tried
      rw [after, same terminal]

theorem Recorded.applyInitialRoute (recorded : Recorded receipt)
    (applied : applyInitialRoute N receipt route = .ok updated) : Recorded updated := by
  cases route with
  | none =>
    obtain rfl := Except.ok.inj applied
    exact recorded
  | some plan => exact (recorded.applyRoute applied).1

end Routes

theorem recorded_of_enters (enters : Enters N r receipt) : Recorded receipt := by
  obtain ⟨event, signature, source, routing, access, -, undecided, made, applied⟩ := enters
  obtain ⟨current, new, made⟩ := bind_eq_ok.mp made
  obtain rfl := Except.ok.inj made
  unfold LocalWriteEvent.new at new
  split at new
  · cases new
  · obtain rfl := Except.ok.inj new
    refine Recorded.applyInitialRoute ⟨fun _ counted => ?_, fun signed => ?_⟩ applied
    · exact absurd counted ExtTreeMap.not_mem_empty
    · change signature = .signed at signed
      obtain ⟨-, rfl⟩ | ⟨is, -⟩ := undecided
      · cases signed
      · exact is

/-- A generation that is made anew has nothing on record. -/
theorem recorded_of_restart {fresh : Receipt} {event : UnsignedEvent} {source : Option EventId}
    {lanes : BTreeMap RelayUrl RelayDeliveryOutcome} {current : LocalWriteEvent}
    (generated : nextGeneration r receipt event source lanes = .ok current)
    (applied : applyInitialRoute N fresh route = .ok updated)
    (is : fresh.current = current) (empty : fresh.attempts = ∅) : Recorded updated := by
  obtain ⟨id, -, rfl⟩ := nextGeneration_eq_ok generated
  refine Recorded.applyInitialRoute ⟨fun _ counted => ?_, fun signed => ?_⟩ applied
  · rw [empty] at counted
    exact absurd counted ExtTreeMap.not_mem_empty
  · rw [is] at signed
    cases signed

/-- A new generation proceeds from any that is not held. -/
theorem proceeds_of_restart {fresh : Receipt} {event : UnsignedEvent} {source : Option EventId}
    {lanes : BTreeMap RelayUrl RelayDeliveryOutcome} {current : LocalWriteEvent}
    (generated : nextGeneration r receipt event source lanes = .ok current)
    (applied : applyInitialRoute N fresh route = .ok updated) (is : fresh.current = current)
    (due : receipt.current.publication.signature ≠ .authorized ∨ Concludes N r receipt action) :
    Proceeds N r receipt action updated := by
  obtain ⟨id, -, made⟩ := nextGeneration_eq_ok generated
  rw [made] at is
  have same := (applyInitialRoute_eq_ok applied).1
  have number : updated.current.publication.revisionId =
      receipt.current.publication.revisionId + 1 := by
    rw [show updated.current.publication.revisionId = fresh.current.publication.revisionId from
      congrArg (·.current.publication.revisionId) same, is]
  have apart : receipt.current.publication.revisionId ≠ updated.current.publication.revisionId := by
    rw [number]
    exact Nat.ne_of_lt (Nat.lt_succ_self _)
  refine ⟨⟨?_, fun equal => (apart equal).elim, fun equal => (apart equal).elim⟩,
    fun equal => (apart equal).elim, fun signed holds => ?_, fun authorized _ => ?_⟩
  · rw [number]
    exact Nat.le_succ _
  · rw [show updated.current.event = fresh.current.event from congrArg (·.current.event) same, is]
      at holds
    cases holds
  · exact due.resolve_left fun unauthorized => unauthorized authorized

/-- Recording something that concerns neither lanes nor the event. -/
theorem Proceeds.of_same (revision : updated.current.publication.revisionId =
      receipt.current.publication.revisionId) (attempts : updated.attempts = receipt.attempts)
    (destinations : updated.destinations = receipt.destinations)
    (event : updated.current.event = receipt.current.event) : Proceeds N r receipt action updated where
  later := by
    refine ⟨Nat.le_of_eq revision.symm, fun _ session => ?_, fun _ session outcome found _ => ?_⟩
    · exact Nat.le_of_eq (by rw [counterOf, counterOf, attempts])
    · rw [destinations]
      exact found
  counted _ session := by
    exact .inl (by rw [counterOf, counterOf, attempts])
  signed signed holds := by
    rw [event] at holds
    exact .inl holds
  held _ apart := (apart revision.symm).elim

theorem Recorded.change (recorded : Recorded receipt)
    (changes : Changes N r receipt action updated) : Recorded updated := by
  cases changes with
  | @sign _ _ _ event => exact ⟨recorded.numbered, fun _ => ⟨event, rfl⟩⟩
  | refuse => exact ⟨recorded.numbered, nofun⟩
  | retry => exact ⟨recorded.numbered, nofun⟩
  | @authorize writeId revisionId eventId s =>
    refine ⟨recorded.numbered, fun signed => ?_⟩
    change authorization N s writeId r revisionId eventId = .signed at signed
    unfold authorization at signed
    dsimp only at signed
    split at signed <;> cases signed
  | fail => exact ⟨recorded.numbered, recorded.signed⟩
  | route _ _ applied => exact (recorded.applyRoute applied).1
  | @begin _ _ _ session attempt =>
    refine ⟨fun other counted => ?_, recorded.signed⟩
    change other ∈ receipt.attempts.insert session attempt at counted
    change ∃ outcome, (receipt.destinations.insert session .attempting)[other]? = some outcome ∧ _
    rw [BTreeMap.find_insert]
    by_cases here : session = other
    · rw [if_pos here]
      exact ⟨.attempting, rfl, nofun⟩
    · rw [if_neg here]
      rw [ExtTreeMap.mem_insert, LawfulEqCmp.compare_eq_iff_eq] at counted
      exact recorded.numbered other (counted.resolve_left here)
  | @outcome _ _ _ session _ outcome _ _ _ decided =>
    refine ⟨fun other counted => ?_, ?_⟩
    · rw [attempts_settle] at counted
      rw [(settle_lanes _).1]
      change ∃ left, (receipt.destinations.insert session outcome)[other]? = some left ∧ _
      rw [BTreeMap.find_insert]
      by_cases here : session = other
      · rw [if_pos here]
        refine ⟨outcome, rfl, ?_⟩
        rintro rfl
        obtain is | is := decided <;> cases is
      · rw [if_neg here]
        exact recorded.numbered other counted
    · have same := unrouted_settle
        (receipt.withDestinations (receipt.destinations.insert session outcome))
      intro signed
      rw [show (settle _).current.publication.signature = receipt.current.publication.signature from
        congrArg (·.current.publication.signature) same] at signed
      obtain ⟨event, holds⟩ := recorded.signed signed
      exact ⟨event, (congrArg (·.current.event) same).trans holds⟩
  | cancel =>
    refine ⟨fun session counted => ?_, recorded.signed⟩
    obtain ⟨outcome, found, -⟩ := recorded.numbered session counted
    change ∃ left, (receipt.destinations.map fun _ _ =>
      RelayDeliveryOutcome.cancelledBeforeHandoff)[session]? = some left ∧ _
    rw [ExtTreeMap.getElem?_map, found]
    exact ⟨_, rfl, nofun⟩
  | restart _ _ _ _ _ generated applied => exact recorded_of_restart generated applied rfl rfl
  | correct _ _ _ _ _ generated applied => exact recorded_of_restart generated applied rfl rfl

/-- A lane that moves leaves the terminal lanes as they are. -/
theorem Later.of_lane {session : RelayUrl} {current outcome : RelayDeliveryOutcome}
    (same : updated.current.publication.revisionId = receipt.current.publication.revisionId)
    (counters : ∀ session, counterOf receipt session ≤ counterOf updated session)
    (found : receipt.destinations[session]? = some current) (moves : current.isTerminal = false)
    (lanes : updated.destinations = receipt.destinations.insert session outcome) :
    Later receipt updated := by
  refine ⟨Nat.le_of_eq same.symm, fun _ => counters, fun _ other terminal lane decided => ?_⟩
  rw [lanes, BTreeMap.find_insert]
  by_cases here : session = other
  · subst here
    rw [found] at lane
    cases lane
    rw [moves] at decided
    cases decided
  · rw [if_neg here]
    exact lane

theorem Recorded.proceeds (recorded : Recorded receipt)
    (changes : Changes N r receipt action updated) : Proceeds N r receipt action updated := by
  cases changes with
  | sign unsigned isOpen verified holding signed allowed =>
    refine ⟨⟨Nat.le_refl _, fun _ _ => Nat.le_refl _, fun _ _ _ found _ => found⟩,
      fun _ _ => .inl rfl, fun event holds => ?_, fun _ apart => (apart rfl).elim⟩
    cases holds
    have authorized := allowed.resolve_right fun done => by
      obtain ⟨other, is⟩ := recorded.signed done
      rw [holding] at is
      cases is
    exact .inr ⟨authorized, rfl, unsigned, holding, by rw [signed], by rw [signed], by rw [signed],
      by rw [signed], by rw [signed]⟩
  | refuse => exact .of_same rfl rfl rfl rfl
  | retry => exact .of_same rfl rfl rfl rfl
  | authorize => exact .of_same rfl rfl rfl rfl
  | fail => exact .of_same rfl rfl rfl rfl
  | route _ _ applied =>
    have same := unrouted_of_applyRoute applied
    have revision : updated.current.publication.revisionId =
        receipt.current.publication.revisionId := congrArg (·.current.publication.revisionId) same
    obtain ⟨-, counts, closed⟩ := recorded.applyRoute applied
    have counters : ∀ session, counterOf updated session = counterOf receipt session :=
      fun session => congrArg (Option.getD · 0) (counts session)
    refine ⟨⟨Nat.le_of_eq revision.symm, fun _ session => Nat.le_of_eq (counters session).symm,
      fun _ => closed⟩, fun _ session => .inl (counters session), fun event holds => .inl ?_,
      fun _ apart => (apart revision.symm).elim⟩
    rw [← holds]
    exact (congrArg (·.current.event) same).symm
  | @begin writeId revisionId eventId session attempt outcome isOpen later lane fresh =>
    have counters : ∀ other, counterOf
        { receipt.withDestinations (receipt.destinations.insert session .attempting) with
          attempts := receipt.attempts.insert session attempt } other =
        if session = other then attempt else counterOf receipt other := by
      intro other
      show ((receipt.attempts.insert session attempt)[other]?).getD 0 = _
      rw [BTreeMap.find_insert]
      split <;> rfl
    have number : attempt = counterOf receipt session + 1 := later
    have moves : outcome.isTerminal = false := by
      cases terminal : outcome.isTerminal with
      | false => rfl
      | true =>
        rw [RelayDeliveryOutcome.isPreHandoff_of_isTerminal terminal] at fresh
        cases fresh
    refine ⟨.of_lane rfl (fun other => ?_) lane moves rfl, fun _ other => ?_,
      fun _ holds => .inl holds, fun _ apart => (apart rfl).elim⟩
    · rw [counters]
      split
      · rename_i here
        rw [number, here]
        exact Nat.le_succ _
      · exact Nat.le_refl _
    · rw [counters]
      split
      · rename_i here
        subst here
        exact .inr ⟨number, writeId, revisionId, eventId, rfl⟩
      · exact .inl rfl
  | @outcome _ _ _ session attempt outcome current isOpen _ decided _ lane moves =>
    have same := unrouted_settle
      (receipt.withDestinations (receipt.destinations.insert session outcome))
    have counters : ∀ other, counterOf (settle
        (receipt.withDestinations (receipt.destinations.insert session outcome))) other =
        counterOf receipt other := by
      intro other
      rw [counterOf, attempts_settle]
      rfl
    have undecided : current.isTerminal = false := by
      obtain rfl | ⟨retryable, -⟩ := moves
      · rfl
      · cases current <;> first | rfl | cases retryable
    refine ⟨.of_lane (congrArg (·.current.publication.revisionId) same)
      (fun other => Nat.le_of_eq (counters other).symm) lane undecided (settle_lanes _).1,
      fun _ other => .inl (counters other), fun event holds => .inl ?_, fun _ apart => ?_⟩
    · rw [← holds]
      exact (congrArg (·.current.event) same).symm
    · exact (apart (congrArg (·.current.publication.revisionId) same).symm).elim
  | cancel isOpen untouched =>
    refine ⟨⟨Nat.le_refl _, fun _ _ => Nat.le_refl _, fun _ session outcome found terminal => ?_⟩,
      fun _ _ => .inl rfl, fun _ holds => .inl holds, fun _ apart => (apart rfl).elim⟩
    -- Nothing terminal is left to change where cancelling is allowed.
    have waits := List.all_eq_true.mp untouched outcome
      (BTreeMap.mem_values.mpr ⟨session, found⟩)
    rw [RelayDeliveryOutcome.isPreHandoff_of_isTerminal terminal] at waits
    cases waits
  | restart _ _ _ due _ generated applied => exact proceeds_of_restart generated applied rfl due
  | correct _ _ _ unauthorized _ generated applied =>
    exact proceeds_of_restart generated applied rfl (.inl unauthorized)

theorem Transition.counts (transition : Transition N capacity s action t) :
    s.nextIdentity ≤ t.nextIdentity := by
  have taken : ∀ {reservation c u}, takeReservation reservation c s = .ok u →
      s.nextIdentity ≤ u.nextIdentity :=
    fun took => Nat.le_of_eq (receipts_of_takeReservation took).2.symm
  cases transition with
  | refused | reserved | freed | deferred | corrected | failed | promoted | abandoned | removed =>
    exact Nat.le_refl _
  | accepted => exact Nat.le_succ _
  | consumed _ took => exact taken took
  | opened _ took => exact Nat.le_succ_of_le (taken took)
  | queued _ took =>
    have counts := taken took
    exact counts
  | composed _ took =>
    have counts := taken took
    exact counts
  | recorded =>
    unfold released
    split <;> exact Nat.le_refl _

theorem recorded_of_run {actions : List Action} (run : Run (step N capacity) Free .default actions s) :
    ∀ (r : ReceiptId) (receipt : Receipt), s.writes[r]? = some receipt → Recorded receipt :=
  run_receipts (fun _ => Recorded) (fun _ _ => recorded_of_enters)
    (fun _ _ _ _ _ _ _ recorded changes => recorded.change changes) run

/-- Identities are not used again: what a later ledger has under one proceeds from what was
there before. -/
theorem later_of_run {actions more : List Action}
    (run : Run (step N capacity) Free .default actions s)
    (onward : Run (step N capacity) Free s more t) : ∀ (r : ReceiptId) (before after : Receipt),
    s.writes[r]? = some before → t.writes[r]? = some after → Later before after := by
  have coherent := run_coherent run
  induction onward with
  | nil =>
    intro r before after found present
    rw [found] at present
    cases present
    exact .refl before
  | @snoc more u v action onward meets stepped ih =>
    intro r before after found present
    obtain rfl := Option.some.inj stepped
    have counts : s.nextIdentity ≤ u.nextIdentity := by
      refine onward.invariant (s.nextIdentity ≤ ·.nextIdentity) (Nat.le_refl _) ?_
      intro t a u counts _ stepped
      obtain rfl := Option.some.inj stepped
      exact Nat.le_trans counts (perform_transition N capacity t a).counts
    obtain kept | ⟨receipt, here, changes⟩ | ⟨new, -⟩ :=
      (perform_transition N capacity u action).receipts r after present
    · exact ih r before after found kept
    · have recorded := recorded_of_run (run.append onward) r receipt here
      exact (ih r before receipt found here).trans (recorded.proceeds changes).later
    · have used := Nat.lt_of_lt_of_le (coherent.used found) counts
      exact absurd used (Nat.not_lt.mpr (Nat.le_of_eq new.symm))

theorem perform_stale {writeId : WriteId} {revisionId : RevisionId} {eventId : EventId}
    {session : RelayUrl} {attempt : Nat} {outcome : RelayDeliveryOutcome}
    (found : s.writes[r]? = some receipt)
    (stale : revisionId < receipt.current.publication.revisionId ∨
      attempt < counterOf receipt session) :
    perform N capacity s (.recordOutcome writeId r revisionId eventId session attempt outcome) =
      s := by
  refine atomically_cases (P := (· = s)) (fun answer s' done => ?_) fun _ _ => rfl
  obtain ⟨_, -, done⟩ := bind_eq_ok.mp done
  obtain ⟨-, done⟩ := require_bind_eq_ok.mp done
  obtain ⟨other, present, done⟩ := demand_bind_eq_ok.mp done
  obtain ⟨_, current, done⟩ := bind_eq_ok.mp done
  obtain ⟨tried, -⟩ := require_bind_eq_ok.mp done
  rw [found] at present
  cases present
  exfalso
  obtain earlier | earlier := stale
  · unfold validateCurrentRevision at current
    split at current
    · cases current
    · rename_i matching
      have same : receipt.current.publication.revisionId = revisionId := by
        by_contra differs
        exact matching (.inr (.inr (.inl differs)))
      rw [same] at earlier
      exact Nat.lt_irrefl _ earlier
  · rw [counterOf, tried, Option.getD_some] at earlier
    exact Nat.lt_irrefl _ earlier

/-- Over every run, delivery and signing histories are monotone. -/
theorem histories_monotone {actions more : List Action}
    (run : Run (step N capacity) Free .default actions s)
    (onward : Run (step N capacity) Free s more t) : Monotone N capacity s t where
  later := later_of_run run onward
  proceeds action r before after found present := by
    have recorded := recorded_of_run (run.append onward) r before found
    obtain kept | ⟨receipt, here, changes⟩ | ⟨new, -⟩ :=
      (perform_transition N capacity t action).receipts r after present
    · rw [found] at kept
      cases kept
      exact .of_same rfl rfl rfl rfl
    · rw [found] at here
      cases here
      exact recorded.proceeds changes
    · have used := (run_coherent (run.append onward)).used found
      exact absurd used (Nat.not_lt.mpr (Nat.le_of_eq new.symm))
  stale _ _ _ _ _ _ _ _ found stale := perform_stale found stale

section Sample

/-- The delivery is tried again after it failed. -/
def secondAttempt : List Action :=
  [offline, .beginAttempt 1 1 1 18 "wss://a.example" 2]

theorem histories_monotone_over_attempts : ∃ s t,
    Run (step plainLibrary 10) Free .default firstAttempt s ∧
      Run (step plainLibrary 10) Free s secondAttempt t ∧
      (t.writes[1]?).map (counterOf · "wss://a.example") = some 2 ∧ Monotone plainLibrary 10 s t := by
  have ran : (exec (step plainLibrary 10) Free .default firstAttempt).any (fun s =>
      (exec (step plainLibrary 10) Free s secondAttempt).any fun t =>
        (t.writes[1]?).map (counterOf · "wss://a.example") = some 2) = true := by decide +kernel
  obtain ⟨s, run, rest⟩ := Run.of_any ran
  obtain ⟨t, onward, counted⟩ := Run.of_any rest
  exact ⟨s, t, run, onward, of_decide_eq_true counted, histories_monotone run onward⟩

end Sample

end Fava.WriteStore.Memory
