import Fava.Publication.Outbox
import Fava.Publication.Sole
import Fava.WriteStore.Memory.Capacity

namespace Fava.Publication.Deliveries

open Std Fava.Lib Fava.Nostr Fava.Relay Fava.Routing Fava.Write Fava.WriteStore
open Fava.WriteStore.Memory Handover

variable {N : Library} {capacity : Nat} {policy : DeliveryPolicy} {s t : Deliveries}
  {after : WriteState} {attempt : PublishAttempt} {outcome : PublishOutcome}

/-- What a lane is about to do fits what its target has had. -/
def Told (s : Deliveries) (lane : Lane) : Prop :=
  match lane.stage with
  | .beginning attempts => Over s.ledger lane.id.receiptId lane.id.revisionId ∨
    ∀ receipt : Receipt, s.ledger.writes[lane.id.receiptId]? = some receipt →
      counterOf receipt lane.session = attempts
  | .publishing attempt => attempt.target = lane.target ∧ .called attempt ∈ s.log ∧
    ∀ outcome, ¬Answered s.log attempt.target attempt.number outcome
  | .recording number outcome => Answered s.log lane.target number outcome
  | .reading | .givingUp _ _ | .finishing | .sent => True

/-- The attempt the publisher still has from a lane. -/
def Lane.asked (lane : Lane) : Option (Target × Nat) :=
  match lane.stage with
  | .publishing attempt => some (attempt.target, attempt.number)
  | _ => none

/-- The ledger counts the calls of the publisher and reports what it answered. -/
structure Logged (s : Deliveries) : Prop where
  grown : Grown Due s.log
  used : ∀ attempt, .called attempt ∈ s.log → attempt.receiptId < s.ledger.nextIdentity ∧
    NoLater s.ledger attempt.receiptId attempt.revisionId
  event : ∀ attempt, .called attempt ∈ s.log → ∀ receipt : Receipt,
    s.ledger.writes[attempt.receiptId]? = some receipt →
    receipt.current.publication.revisionId = attempt.revisionId →
    receipt.current.event = .signed attempt.event
  numbered : ∀ (r : ReceiptId) (receipt : Receipt), s.ledger.writes[r]? = some receipt → ∀ session,
    tries s.log ⟨r, receipt.current.publication.revisionId, session⟩ =
      List.range' 1 (counterOf receipt session)
  reported : ∀ (r : ReceiptId) (receipt : Receipt), s.ledger.writes[r]? = some receipt →
    ∀ (session : RelayUrl) (outcome : RelayDeliveryOutcome),
      receipt.destinations[session]? = some outcome → outcome.isReported = true →
      ∃ answer, Answered s.log ⟨r, receipt.current.publication.revisionId, session⟩
        (counterOf receipt session) answer ∧ deliveryOutcome answer = outcome
  told : ∀ lane ∈ s.lanes, Told s lane
  asked : (s.lanes.filterMap Lane.asked).Nodup

/-- What a ledger makes of a receipt while nothing is attempted. -/
def Quiet (before after : WriteState) : Prop :=
  ∀ (r : ReceiptId) (receipt : Receipt), after.writes[r]? = some receipt →
    (∃ previous : Receipt, before.writes[r]? = some previous ∧
      (receipt = previous ∨ Stays previous receipt ∨
        receipt.current.publication.revisionId = previous.current.publication.revisionId + 1 ∧
          Unattempted receipt)) ∨
    before.nextIdentity ≤ r ∧ Unattempted receipt

section Ledger

variable {ledger : WriteState}

theorem quiet_perform (lawful : Lawful N ledger) {action : WriteStore.Memory.Action}
    (other : action.isAttempt = false) : Quiet ledger (perform N capacity ledger action) := by
  intro r receipt found
  obtain kept | ⟨previous, present, changes⟩ | ⟨new, enters⟩ :=
    (perform_transition N capacity ledger action).receipts r receipt found
  · exact .inl ⟨receipt, kept, .inl rfl⟩
  · exact .inl ⟨previous, present, .inr (stays_or_renewed (lawful.recorded r previous present) changes other)⟩
  · exact .inr ⟨Nat.le_of_eq new.symm, unattempted_of_enters enters⟩

theorem counterOf_of_unattempted {receipt : Receipt} (unattempted : Unattempted receipt)
    (session : RelayUrl) : counterOf receipt session = 0 := by
  rw [counterOf, ExtTreeMap.getElem?_eq_none (unattempted.uncounted session)]
  rfl

end Ledger

section Onward

variable (logged : Logged s) (onward : Onward s.ledger after) (member : .called attempt ∈ s.log)
include logged onward member

theorem Logged.used_onward :
    attempt.receiptId < after.nextIdentity ∧ NoLater after attempt.receiptId attempt.revisionId := by
  obtain ⟨used, noLater⟩ := logged.used attempt member
  exact ⟨Nat.lt_of_lt_of_le used onward.counts, noLater.onward onward used⟩

theorem Logged.event_onward {receipt : Receipt}
    (found : after.writes[attempt.receiptId]? = some receipt)
    (same : receipt.current.publication.revisionId = attempt.revisionId) :
    receipt.current.event = .signed attempt.event := by
  obtain ⟨used, noLater⟩ := logged.used attempt member
  obtain ⟨previous, present, later, keeps⟩ := onward.receipts _ receipt used found
  have equal := Nat.le_antisymm (same ▸ later) (noLater previous present)
  exact keeps (same.trans equal.symm) _ (logged.event attempt member previous present equal)

end Onward

/-- While nothing is attempted, counts and reports stay. -/
theorem Logged.quiet (logged : Logged s) (ruled : Ruled s) (quiet : Quiet s.ledger after)
    (onward : Onward s.ledger after) : Logged (s.commit after) where
  grown := logged.grown
  asked := logged.asked
  used _ member := logged.used_onward onward member
  event _ member _ found same := logged.event_onward onward member found same
  numbered r receipt found session := by
    obtain ⟨previous, present, rfl | stays | ⟨renewed, unattempted⟩⟩ | ⟨new, unattempted⟩ :=
      quiet r receipt found
    · exact logged.numbered r receipt present session
    · rw [stays.revision, stays.counters]
      exact logged.numbered r previous present session
    · rw [counterOf_of_unattempted unattempted]
      refine tries_eq_nil fun attempt member is => ?_
      have noLater := (logged.used attempt member).2
      rw [PublishAttempt.target, Target.mk.injEq] at is
      obtain ⟨rfl, revision, -⟩ := is
      have le := noLater previous present
      rw [revision, renewed] at le
      exact absurd le (Nat.not_succ_le_self _)
    · rw [counterOf_of_unattempted unattempted]
      refine tries_eq_nil fun attempt member is => ?_
      have used := (logged.used attempt member).1
      rw [PublishAttempt.target, Target.mk.injEq] at is
      rw [is.1] at used
      exact absurd used (Nat.not_lt.mpr new)
  reported r receipt found session outcome lane reported := by
    obtain ⟨previous, present, rfl | stays | ⟨-, unattempted⟩⟩ | ⟨-, unattempted⟩ :=
      quiet r receipt found
    · exact logged.reported r receipt present session outcome lane reported
    · rw [stays.revision, stays.counters]
      exact logged.reported r previous present session outcome
        (stays.lanes session outcome lane reported) reported
    · rw [unattempted.lanes session outcome lane] at reported
      cases reported
    · rw [unattempted.lanes session outcome lane] at reported
      cases reported
  told lane member := by
    have told := logged.told lane member
    have placed := ruled.placed lane member
    unfold Told at told ⊢
    split at told
    · by_cases past : Over after lane.id.receiptId lane.id.revisionId
      · exact .inl past
      · refine .inr fun receipt found => ?_
        have live := fun before => past (onward.past _ _ placed.used before)
        have counted := told.resolve_left live
        obtain ⟨previous, present, rfl | stays | ⟨renewed, -⟩⟩ | ⟨new, -⟩ := quiet _ receipt found
        · exact counted receipt present
        · exact (stays.counters lane.session).trans (counted previous present)
        · refine absurd (fun other there => .inl ?_) past
          obtain rfl := Option.some.inj (found.symm.trans there)
          rw [renewed]
          exact Nat.lt_succ_of_le (placed.revision previous present)
        · exact absurd placed.used (Nat.not_lt.mpr new)
    all_goals exact told

section Lanes

variable {index : Nat} {lane : Lane}

/-- Another lane is told nothing else by what is not about its counters. -/
theorem Told.later {other : Lane} (told : Told s other) (placed : Placed s other)
    (onward : Onward s.ledger t.ledger)
    (counters : ∀ (r : ReceiptId) (before now : Receipt) session, s.ledger.writes[r]? = some before →
      t.ledger.writes[r]? = some now → counterOf now session = counterOf before session)
    (log : t.log = s.log) : Told t other := by
  unfold Told at told ⊢
  rw [log]
  split at told
  · refine told.imp (onward.past _ _ placed.used) fun counted receipt found => ?_
    obtain ⟨previous, present, -⟩ := onward.receipts _ receipt placed.used found
    exact (counters _ previous receipt other.session present found).trans (counted previous present)
  all_goals exact told

/-- What is put on record is what the publisher answered, or that the policy gave up. -/
theorem Logged.record {number : Nat} {outcome : RelayDeliveryOutcome} (logged : Logged s)
    (ruled : Ruled s) (onward : Onward s.ledger (s.record lane number outcome).ledger)
    (evidence : outcome.isReported = true → ∃ answer, Answered s.log lane.target number answer ∧
      deliveryOutcome answer = outcome) : Logged (s.record lane number outcome) := by
  obtain same | ⟨receipt, current, found, valid, tried, present, -, -, revision, same⟩ :=
    recordOutcome_cases (s := s.ledger) (r := lane.id.receiptId)
  · unfold Deliveries.record
    rw [same]
    exact logged.quiet ruled (fun r receipt found => .inl ⟨receipt, found, .inl rfl⟩) (.refl _)
  · have writes : (s.record lane number outcome).ledger.writes =
        s.ledger.writes.insert lane.id.receiptId (Memory.reported receipt lane.session outcome) := by
      show (recordOutcomeCurrent ..).2.writes = _
      rw [same, writes_released]
    obtain ⟨revisions, counters, lanes⟩ := reported_keeps receipt lane.session outcome
    have cases : ∀ {r : ReceiptId} {now : Receipt},
        (s.record lane number outcome).ledger.writes[r]? = some now →
        lane.id.receiptId = r ∧ now = Memory.reported receipt lane.session outcome ∨
          s.ledger.writes[r]? = some now := by
      intro r now there
      rw [writes, BTreeMap.find_insert] at there
      split at there
      · exact .inl ⟨‹_›, (Option.some.inj there).symm⟩
      · exact .inr there
    refine ⟨logged.grown, fun _ member => logged.used_onward onward member,
      fun _ member _ found same => logged.event_onward onward member found same,
      fun r now there session => ?_, fun r now there session => ?_, fun other member => ?_, logged.asked⟩
    · obtain ⟨rfl, rfl⟩ | old := cases there
      · rw [revisions, counters]
        exact logged.numbered _ receipt found session
      · exact logged.numbered r now old session
    · obtain ⟨rfl, rfl⟩ | old := cases there
      · intro outcome' lane' isReported
        rw [revisions, counters]
        rw [lanes] at lane'
        split at lane'
        · rename_i here
          obtain rfl := Option.some.inj lane'
          obtain ⟨answer, answered, is⟩ := evidence isReported
          refine ⟨answer, ?_, is⟩
          rw [(revision_of_valid valid).2, counterOf, ← here, tried]
          exact answered
        · exact logged.reported _ receipt found session outcome' lane' isReported
      · exact logged.reported r now old session
    · refine (logged.told other member).later (ruled.placed other member) onward ?_ rfl
      intro r before now session earlier there
      obtain ⟨rfl, rfl⟩ | old := cases there
      · rw [found] at earlier
        cases earlier
        exact counters session
      · rw [earlier] at old
        cases old
        rfl

/-- A lane goes on without the publisher, told what its next stage needs. -/
theorem Logged.proceed {next : Option Lane} (logged : Logged s) (found : s.lanes[index]? = some lane)
    (told : ∀ other, next = some other → Told s other ∧ Lane.asked other = none) :
    Logged { s with lanes := Lib.proceed s.lanes index next } where
  grown := logged.grown
  used := logged.used
  event := logged.event
  numbered := logged.numbered
  reported := logged.reported
  told := forall_mem_proceed (P := fun lane => Told _ lane) logged.told found
    fun other is => (told other is).1
  asked := by
    refine nodup_proceed logged.asked found fun key is => ?_
    obtain ⟨other, is, asked⟩ := Option.bind_eq_some_iff.mp is
    rw [(told other is).2] at asked
    cases asked

/-- A lane that is to attempt goes by what the receipt it read counts. -/
theorem turn_cases (policy : DeliveryPolicy) (lane : Lane) (read : Option Receipt) :
    (∃ receipt, read = some receipt ∧
      turn policy lane read = .beginning (counterOf receipt lane.session)) ∨
    turn policy lane read = .finishing ∨ turn policy lane read = .reading ∨
    ∃ attempts reason, turn policy lane read = .givingUp attempts reason := by
  cases read with
  | none => exact .inr (.inl rfl)
  | some receipt =>
    unfold turn
    dsimp only
    split
    · exact .inr (.inl rfl)
    · split
      · exact .inr (.inl rfl)
      · split
        · exact .inr (.inl rfl)
        · exact .inr (.inr (.inr ⟨_, _, rfl⟩))
        · split
          · exact .inl ⟨receipt, rfl, rfl⟩
          · exact .inr (.inr (.inl rfl))

theorem told_turn (s : Deliveries) (lane next : Lane) (is : next = { lane with
    stage := turn policy lane (s.readReceipt lane.runner lane.id.receiptId) }) :
    Told s next ∧ Lane.asked next = none := by
  subst is
  unfold Told Lane.asked
  dsimp only
  obtain ⟨receipt, read, is⟩ | is | is | ⟨_, _, is⟩ :=
    turn_cases policy lane (s.readReceipt lane.runner lane.id.receiptId)
  · rw [is]
    refine ⟨.inr fun other found => ?_, rfl⟩
    unfold readReceipt at read
    split at read
    · cases read
    · rw [found] at read
      cases read
      rfl
  all_goals
    rw [is]
    exact ⟨trivial, rfl⟩

/-- An attempt begins with the number after those that were made, at a lane that waits. -/
theorem Logged.begun {attempts : Nat} {receipt : Receipt} (logged : Logged s)
    (member : lane ∈ s.lanes) (stage : lane.stage = .beginning attempts)
    (began : beginAttemptCurrent lane.id.writeId lane.id.receiptId lane.id.revisionId
      lane.id.eventId lane.session (attempts + 1) s.ledger = (.ok receipt, after)) :
    ∃ before, s.ledger.writes[lane.id.receiptId]? = some before ∧
      before.current.publication.revisionId = lane.id.revisionId ∧
      counterOf before lane.session = attempts ∧
      (∃ outcome, before.destinations[lane.session]? = some outcome ∧ outcome.isPreHandoff = true) ∧
      receipt = Memory.begun before lane.session (attempts + 1) ∧
      after.writes = s.ledger.writes.insert lane.id.receiptId receipt := by
  have told := logged.told lane member
  unfold Told at told
  rw [stage] at told
  obtain ⟨before, found, valid, cases⟩ := beginAttempt_of_ok began
  obtain ⟨isOpen, revision⟩ := revision_of_valid valid
  have live : ¬Over s.ledger lane.id.receiptId lane.id.revisionId := by
    intro past
    obtain less | ⟨-, terminal⟩ := past before found
    · exact absurd (revision ▸ less) (Nat.lt_irrefl _)
    · rw [isOpen] at terminal
      cases terminal
  have counted := told.resolve_left live before found
  obtain ⟨under, -⟩ | ⟨-, waits, is, writes⟩ := cases
  · exact absurd (counted.symm.trans under) (Nat.ne_of_lt (Nat.lt_succ_self _))
  · exact ⟨before, found, revision, counted, waits, is, is ▸ writes⟩

theorem Logged.follows {attempts : Nat} {before : Receipt} {event : Event} (logged : Logged s)
    (lawful : Lawful N s.ledger) (found : s.ledger.writes[lane.id.receiptId]? = some before)
    (revision : before.current.publication.revisionId = lane.id.revisionId)
    (counted : counterOf before lane.session = attempts)
    (waits : ∃ outcome, before.destinations[lane.session]? = some outcome ∧ outcome.isPreHandoff = true)
    (signed : before.current.event = .signed event) (target : attempt.target = lane.target)
    (number : attempt.number = attempts + 1) (carries : attempt.event = event) :
    Follows s.log attempt := by
  obtain ⟨receiptId, revisionId, session⟩ := (Target.mk.injEq ..).mp target
  refine ⟨number ▸ Nat.succ_pos _, ?_, fun later => ?_, fun earlier member same revisions => ?_⟩
  · have numbered := logged.numbered _ before found lane.session
    rw [revision, counted] at numbered
    rw [target, number]
    exact numbered
  · rw [number] at later
    obtain ⟨outcome, present, preHandoff⟩ := waits
    -- The lane was attempted, so what makes it wait is a failure that was reported.
    have tried : lane.session ∈ before.attempts := by
      by_contra untried
      rw [counterOf, ExtTreeMap.getElem?_eq_none untried] at counted
      rw [← counted] at later
      exact absurd later (Nat.lt_irrefl _)
    obtain ⟨_, again, moved⟩ := (lawful.recorded _ before found).numbered lane.session tried
    rw [present] at again
    cases again
    cases outcome with
    | retryable reason =>
      obtain ⟨answer, answered, is⟩ := logged.reported _ before found lane.session _ present rfl
      rw [revision, counted] at answered
      cases answer with
      | notHandedOff =>
        rw [target, number]
        exact ⟨_, answered⟩
      | acknowledged | rejected | authenticationRequired | outcomeUnknown => cases is
    | pending => exact absurd rfl moved
    | _ => cases preHandoff
  · rw [receiptId] at same
    have holds := logged.event earlier member before (same ▸ found)
      (revision.trans (revisionId.symm.trans revisions.symm))
    rw [signed] at holds
    rw [carries]
    exact (EventValue.signed.inj holds).symm

/-- The publisher is called for an attempt that follows on those before it. -/
theorem Logged.called {attempts : Nat} {receipt : Receipt} {event : Event} (logged : Logged s)
    (ruled : Ruled s) (lawful : Lawful N s.ledger) (onward : Onward s.ledger after)
    (found : s.lanes[index]? = some lane) (stage : lane.stage = .beginning attempts)
    (began : beginAttemptCurrent lane.id.writeId lane.id.receiptId lane.id.revisionId
      lane.id.eventId lane.session (attempts + 1) s.ledger = (.ok receipt, after))
    (signed : receipt.current.event = .signed event)
    (made : attempt = ⟨receipt.writeId, lane.id.receiptId, lane.id.revisionId, attempts + 1,
      lane.session, receipt.access, event, attemptTimeout⟩)
    (later : Ruled { s.commit after with
      log := s.log ++ [.called attempt]
      lanes := Lib.proceed s.lanes index (some { lane with stage := .publishing attempt }) }) :
    Logged { s.commit after with
      log := s.log ++ [.called attempt]
      lanes := Lib.proceed s.lanes index (some { lane with stage := .publishing attempt }) } := by
  have member := List.mem_of_getElem? found
  have placed := ruled.placed lane member
  obtain ⟨before, present, revision, counted, waits, is, writes⟩ := logged.begun member stage began
  obtain ⟨counters, lanes⟩ := begun_keeps before lane.session (attempts + 1)
  rw [← is] at counters lanes
  have signed' : before.current.event = .signed event := by
    rw [is] at signed
    exact signed
  have revision' : receipt.current.publication.revisionId = lane.id.revisionId := by
    rw [is]
    exact revision
  have target : attempt.target = lane.target := by rw [made]; rfl
  have follows : Follows s.log attempt :=
    logged.follows lawful present revision counted waits signed' target (by rw [made]) (by rw [made])
  have cases : ∀ {r : ReceiptId} {now : Receipt}, after.writes[r]? = some now →
      lane.id.receiptId = r ∧ now = receipt ∨ lane.id.receiptId ≠ r ∧ s.ledger.writes[r]? = some now := by
    intro r now there
    rw [writes, BTreeMap.find_insert] at there
    split at there
    · exact .inl ⟨‹_›, (Option.some.inj there).symm⟩
    · exact .inr ⟨‹_›, there⟩
  have fresh : attempt.number ∉ tries s.log attempt.target := by
    rw [follows.tries, List.mem_range'_1]
    have := follows.positive
    omega
  refine ⟨logged.grown.snoc follows, fun other inside => ?_,
    fun other inside now there same => ?_, fun r now there session => ?_,
    fun r now there session outcome lane' isReported => ?_, fun other inside => ?_, ?_⟩
  · obtain old | new := List.mem_append.mp inside
    · exact logged.used_onward onward old
    · cases List.mem_singleton.mp new
      rw [made]
      exact ⟨Nat.lt_of_lt_of_le placed.used onward.counts, placed.revision.onward onward placed.used⟩
  · obtain old | new := List.mem_append.mp inside
    · exact logged.event_onward onward old there same
    · cases List.mem_singleton.mp new
      obtain ⟨-, rfl⟩ | ⟨differs, -⟩ := cases there
      · rw [made]
        exact signed
      · rw [made] at differs
        exact absurd rfl differs
  · rw [tries_called, target]
    obtain ⟨rfl, rfl⟩ | ⟨differs, old⟩ := cases there
    · have numbered := logged.numbered _ before present session
      rw [revision] at numbered
      rw [counters, revision', numbered]
      by_cases here : lane.session = session
      · rw [if_pos here, if_pos (by rw [Lane.target, here]), ← here, counted, made, List.range'_1_concat,
          Nat.add_comm 1]
      · rw [if_neg here, if_neg fun is => here (congrArg Target.session is), List.append_nil]
    · rw [if_neg fun is => differs (congrArg Target.receiptId is), List.append_nil]
      exact logged.numbered r now old session
  · obtain ⟨rfl, rfl⟩ | ⟨-, old⟩ := cases there
    · rw [lanes] at lane'
      rw [counters, revision']
      split at lane'
      · cases lane'
        cases isReported
      · obtain ⟨answer, answered, same⟩ :=
          logged.reported _ before present session outcome lane' isReported
        rw [revision] at answered
        rw [if_neg ‹_›]
        exact ⟨answer, answered.append _, same⟩
    · obtain ⟨answer, answered, same⟩ := logged.reported r now old session outcome lane' isReported
      exact ⟨answer, answered.append _, same⟩
  · change other ∈ Lib.proceed s.lanes index (some { lane with stage := .publishing attempt }) at inside
    obtain is | old := mem_of_mem_proceed found inside
    · cases is
      refine ⟨target, List.mem_append_right _ List.mem_cons_self, fun outcome answered => fresh ?_⟩
      obtain old | ⟨_, is, -⟩ := answered_concat answered
      · exact mem_tries_of_answered logged.grown old
      · cases is
    have told := logged.told other old
    have placed' := ruled.placed other old
    unfold Told at told ⊢
    split at told
    · rename_i begins
      by_cases past : Over after other.id.receiptId other.id.revisionId
      · exact .inl past
      refine .inr fun now there => ?_
      have counted' := told.resolve_left fun earlier => past (onward.past _ _ placed'.used earlier)
      obtain ⟨here, rfl⟩ | ⟨-, elsewhere⟩ := cases there
      · rw [counters]
        split
        · -- It would be a second lane at the target.
          rename_i sessions
          have revisions : other.id.revisionId = lane.id.revisionId := by
            obtain less | equal := Nat.lt_or_eq_of_le (placed'.revision before (here ▸ present))
            · refine absurd (fun receipt' there' => .inl ?_) past
              obtain rfl := Option.some.inj (there.symm.trans there')
              rw [revision', ← revision]
              exact less
            · exact equal.trans revision
          have targets : other.target = lane.target := by
            rw [Lane.target, Lane.target, ← here, revisions, sessions]
          have key := later.one_lane (next_mem_proceed found) inside targets
            (show ¬Over after lane.id.receiptId lane.id.revisionId by rw [here, ← revisions]; exact past)
          obtain rfl := eq_of_key later.apart inside (next_mem_proceed found) rfl key
          cases begins
        · exact counted' before (here ▸ present)
      · exact counted' now elsewhere
    · obtain ⟨same, member, unanswered⟩ := told
      refine ⟨same, List.mem_append_left _ member, fun outcome answered => ?_⟩
      obtain old | ⟨_, is, -⟩ := answered_concat answered
      · exact unanswered outcome old
      · cases is
    · exact told.append _
    all_goals exact told
  · refine nodup_proceed_new (v := (attempt.target, attempt.number)) logged.asked found rfl
      fun other inside asked => fresh ?_
    have told := logged.told other inside
    unfold Lane.asked Told at *
    split at asked
    · rename_i is
      rw [is] at told
      obtain ⟨targets, numbers⟩ := Prod.mk.inj (Option.some.inj asked)
      rw [← targets, ← numbers]
      exact mem_tries told.2.1
    · cases asked

/-- An answer is put on record under the number of the attempt it is for. -/
theorem Logged.answered (logged : Logged s) (found : s.lanes[index]? = some lane)
    (stage : lane.stage = .publishing attempt) :
    Logged { s with
      log := s.log ++ [.answered attempt outcome]
      lanes := Lib.proceed s.lanes index
        (some { lane with stage := .recording attempt.number outcome }) } := by
  have old : ∀ {call}, .called call ∈ s.log ++ [.answered attempt outcome] → .called call ∈ s.log := by
    intro call member
    obtain old | new := List.mem_append.mp member
    · exact old
    · cases List.mem_singleton.mp new
  have asked : Lane.asked lane = some (attempt.target, attempt.number) := by
    unfold Lane.asked
    rw [stage]
  have told := logged.told lane (List.mem_of_getElem? found)
  unfold Told at told
  rw [stage] at told
  refine ⟨logged.grown.snoc told.2, fun call member => logged.used call (old member),
    fun call member => logged.event call (old member), fun r receipt present session => ?_,
    fun r receipt present session outcome lane' isReported => ?_, fun other inside => ?_, ?_⟩
  · rw [tries_answered]
    exact logged.numbered r receipt present session
  · obtain ⟨answer, answered, same⟩ :=
      logged.reported r receipt present session outcome lane' isReported
    exact ⟨answer, answered.append _, same⟩
  · change other ∈ Lib.proceed s.lanes index
      (some { lane with stage := .recording attempt.number outcome }) at inside
    obtain rfl | others := others_of_mem_proceed found inside
    · exact ⟨attempt, List.mem_append_right _ List.mem_cons_self, told.1, rfl⟩
    · have apart := ne_key_of_mem_proceed logged.asked found asked others
      have inside : other ∈ s.lanes := by
        obtain is | inside := mem_of_mem_proceed found others
        · cases is
        · exact inside
      have told' := logged.told other inside
      unfold Told at told' ⊢
      unfold Lane.asked at apart
      split at told'
      · exact told'
      · rename_i is
        rw [is] at apart
        obtain ⟨same, member, unanswered⟩ := told'
        refine ⟨same, List.mem_append_left _ member, fun outcome' answered => ?_⟩
        obtain old | ⟨_, is, targets, numbers⟩ := answered_concat answered
        · exact unanswered outcome' old
        · cases is
          exact apart (by rw [targets, numbers])
      · exact told'.append _
      all_goals exact told'
  · show ((Lib.proceed s.lanes index
      (some { lane with stage := .recording attempt.number outcome })).filterMap Lane.asked).Nodup
    exact nodup_proceed logged.asked found fun key is => by cases is

end Lanes

section Steps

theorem Logged.step (logged : Logged s) (ruled : Ruled s) (lawful : Lawful N s.ledger)
    (stepped : Stepped N capacity policy s t) (unreopened : reopens s.ledger t.ledger = false) :
    Logged t := by
  have onward := onward_of_stepped lawful stepped unreopened
  have later := ruled.step lawful stepped unreopened
  cases stepped with
  | stored other => exact logged.quiet ruled (quiet_perform lawful other) onward
  | @cancelled r =>
    have kept : Logged (s.commit (perform N capacity s.ledger (.cancel r))) :=
      logged.quiet ruled (quiet_perform lawful rfl) onward
    exact { kept with }
  | signalled | started | moved | left => exact { logged with }
  | idle => exact logged
  | @launched _ runner receipt =>
    have reading : ∀ lane ∈ (startLanes runner receipt).2, lane.stage = .reading :=
      fun lane member => ((launches_startLanes runner receipt).lanes lane member).2.1
    refine { logged with
      told := List.forall_mem_append.mpr ⟨logged.told, fun lane member => ?_⟩
      asked := ?_ }
    · unfold Told
      rw [reading lane member]
      trivial
    · have idle : (startLanes runner receipt).2.filterMap Lane.asked = [] := by
        refine List.filterMap_eq_nil_iff.mpr fun lane member => ?_
        unfold Lane.asked
        rw [reading lane member]
      rw [List.filterMap_append, idle, List.append_nil]
      exact logged.asked
  | @retired _ position _ _ _ present =>
    have kept : Logged { s with lanes := Lib.proceed s.lanes position none } :=
      logged.proceed present fun _ is => by cases is
    exact { kept with }
  | turned found =>
    refine logged.proceed found fun other is => ?_
    cases is
    exact told_turn s _ _ rfl
  | sent found =>
    refine logged.proceed found fun other is => ?_
    cases is
    exact ⟨trivial, rfl⟩
  | past found => exact logged.proceed found fun _ is => (by cases is)
  | gaveUp found =>
    refine (logged.record ruled onward fun reported => (by cases reported)).proceed found fun other is => ?_
    cases is
    exact ⟨trivial, rfl⟩
  | refused found =>
    have kept := logged.quiet ruled (fun _ receipt found => .inl ⟨receipt, found, .inl rfl⟩)
      (.refl s.ledger)
    refine kept.proceed found fun other is => ?_
    cases is
    exact ⟨trivial, rfl⟩
  | @begun _ _ _ receipt _ found stage began unsigned =>
    -- A lane is started for a generation that is signed, and that stays so.
    have inside := List.mem_of_getElem? found
    obtain ⟨before, present, revision, -, -, is, -⟩ := logged.begun inside stage began
    obtain ⟨event, signed⟩ := (ruled.placed _ inside).signed before present revision
    have signed' : receipt.current.event = .signed event := by
      rw [is]
      exact signed
    exact absurd signed' (unsigned event)
  | called found stage began signed made =>
    exact logged.called ruled lawful onward found stage began signed made later
  | answered found stage => exact logged.answered found stage
  | @recorded _ number lane outcome found stage =>
    have told := logged.told lane (List.mem_of_getElem? found)
    unfold Told at told
    rw [stage] at told
    refine (logged.record ruled onward fun _ => ⟨outcome, told, rfl⟩).proceed found fun other is => ?_
    cases is
    exact ⟨trivial, rfl⟩

end Steps

section Runs

variable {actions : List Action}

theorem new_logged : Lawful N new.ledger ∧ Ruled new ∧ Logged new := by
  have empty : ∀ {r : ReceiptId} {receipt : Receipt}, new.ledger.writes[r]? ≠ some receipt := by
    intro r receipt found
    rw [show new.ledger.writes = ∅ from rfl, ExtTreeMap.getElem?_empty] at found
    cases found
  have idle : ∀ {r : ReceiptId} {ordinal : Nat}, new.cancellations[r]? ≠ some ordinal := by
    intro r ordinal found
    rw [show new.cancellations = ∅ from rfl, ExtTreeMap.getElem?_empty] at found
    cases found
  refine ⟨⟨default_coherent, fun _ _ found => absurd found empty, fun _ _ found => absurd found empty⟩,
    ⟨?_, ?_, ?_, ?_, fun _ _ found => absurd found idle, ?_, List.nodup_nil, ?_, ?_, ?_, List.nodup_nil⟩,
    ⟨.nil, ?_, ?_, fun _ _ found => absurd found empty, fun _ _ found => absurd found empty, ?_,
      List.nodup_nil⟩⟩
  all_goals
    intro _ member
    cases member

theorem logged_of_run (run : Run (step N capacity policy) (Unreopened N capacity policy) new actions s) :
    Lawful N s.ledger ∧ Ruled s ∧ Logged s := by
  refine run.invariant (fun s => Lawful N s.ledger ∧ Ruled s ∧ Logged s) new_logged ?_
  rintro s action t ⟨lawful, ruled, logged⟩ unreopened stepped
  have moved := Stepped.of_step stepped
  have kept : reopens s.ledger t.ledger = false := by
    rw [Unreopened, stepped] at unreopened
    exact unreopened
  exact ⟨lawful.stepped moved, ruled.step lawful moved kept, logged.step ruled lawful moved kept⟩

/-- A relay is offline as the publisher is asked for the first time, and it is asked again. -/
def askedAgain : List Action :=
  [.store (.accept ⟨.presigned note, .automatic, .unauthenticated⟩),
    .store (.applyRoute 1 1 1 18 (planTo 1 "wss://a.example")), .start 1, .advanceRunner 0,
    .advanceRunner 0, .advanceRunner 0, .advanceLane 0, .advanceLane 0,
    .answer 0 (.notHandedOff "offline"), .advanceLane 0, .advanceLane 0, .advanceLane 0]

/-- A receipt ends and is reopened before its runner hears of the end: on hearing it the runner
leaves a lane behind that is about to begin, and the next runner starts another one. -/
def reopenedInFlight : List Action :=
  [.store (.acceptAppliedEdit 10 (listEdit []) firstList none), .start 1, .advanceRunner 0,
    .store (.installRevision 11 1 1 1 none [⟨3, none, []⟩] secondList (some (.signed listBefore))
      (some nowhere)),
    .store (.acceptAppliedEdit 12 (listEdit [1]) thirdList (some (.unsigned secondList))),
    .store (.authorizeSigning 1 1 3 22), .store (.installSigned 1 1 3 22 ⟨22, 7, 12, 3, [], "", 0⟩),
    .store (.applyRoute 1 1 3 22 (planTo 2 "wss://a.example")), .advanceRunner 0, .advanceRunner 0,
    .advanceRunner 0, .advanceLane 0, .leave 0, .start 1, .advanceRunner 0, .advanceRunner 0,
    .advanceRunner 0, .advanceLane 1, .advanceLane 0, .advanceLane 1]

/-- The publisher may be asked twice for one attempt if a receipt that has ended is reopened. -/
theorem handed_off_twice_if_reopened : ∃ s first second,
    Run (step plainLibrary 10 (standardDeliveryPolicy 3)) Free new reopenedInFlight s ∧
      s.log[0]? = some (.called first) ∧ s.log[1]? = some (.called second) ∧
      first.target = second.target ∧ first.number = second.number := by
  have ran : (exec (step plainLibrary 10 (standardDeliveryPolicy 3)) Free new reopenedInFlight).any
      (fun s => (s.log[0]?.bind asks).any fun first => (s.log[1]?.bind asks).any fun second =>
        first.target = second.target && first.number = second.number) = true := by decide +kernel
  obtain ⟨s, run, checked⟩ := Run.of_any ran
  obtain ⟨first, here, checked⟩ := (Option.any_eq_true _ _).mp checked
  obtain ⟨second, there, checked⟩ := (Option.any_eq_true _ _).mp checked
  obtain ⟨entry, here, is⟩ := Option.bind_eq_some_iff.mp here
  obtain ⟨entry', there, is'⟩ := Option.bind_eq_some_iff.mp there
  rw [(asks_eq_some entry).mp is] at here
  rw [(asks_eq_some entry').mp is'] at there
  rw [Bool.and_eq_true, decide_eq_true_eq, decide_eq_true_eq] at checked
  exact ⟨s, first, second, run, here, there, checked⟩

section Standard

variable {maximumAttempts : Nat}

/-- The standard policy starts no attempt above its ceiling. -/
def Capped (maximumAttempts : Nat) (s : Deliveries) : Prop :=
  (∀ lane ∈ s.lanes, ∀ attempts, lane.stage = .beginning attempts → attempts < maximumAttempts) ∧
    ∀ attempt, .called attempt ∈ s.log → attempt.number ≤ maximumAttempts

theorem below_of_attemptNow {facts : DeliveryFacts}
    (decided : standardDeliveryPolicy maximumAttempts facts = .attemptNow) :
    facts.attempts < maximumAttempts := by
  unfold standardDeliveryPolicy at decided
  split at decided
  · by_contra above
    rw [if_neg above] at decided
    cases decided
  · by_contra above
    rw [if_neg above] at decided
    cases decided
  all_goals cases decided

theorem turn_capped {lane : Lane} {read : Option Receipt} {attempts : Nat}
    (begins : turn (standardDeliveryPolicy maximumAttempts) lane read = .beginning attempts) :
    attempts < maximumAttempts := by
  unfold turn at begins
  split at begins
  · cases begins
  · split at begins
    · cases begins
    · split at begins
      · cases begins
      · dsimp only at begins
        split at begins
        · cases begins
        · cases begins
        · rename_i decided
          split at begins
          · cases begins
            exact below_of_attemptNow decided
          · cases begins

theorem Capped.proceed {index : Nat} {lane : Lane} {next : Option Lane}
    (capped : Capped maximumAttempts s) (found : s.lanes[index]? = some lane)
    (waits : ∀ other, next = some other → ∀ attempts, other.stage = .beginning attempts →
      attempts < maximumAttempts) :
    ∀ other ∈ Lib.proceed s.lanes index next, ∀ attempts, other.stage = .beginning attempts →
      attempts < maximumAttempts :=
  forall_mem_proceed (P := fun other => ∀ attempts, other.stage = .beginning attempts →
    attempts < maximumAttempts) capped.1 found waits

theorem Capped.step (capped : Capped maximumAttempts s)
    (stepped : Stepped N capacity (standardDeliveryPolicy maximumAttempts) s t) :
    Capped maximumAttempts t := by
  unfold Capped
  cases stepped with
  | stored | cancelled | signalled | started | idle | moved | left => exact capped
  | @launched _ runner receipt =>
    refine ⟨List.forall_mem_append.mpr ⟨capped.1, fun lane member attempts is => ?_⟩, capped.2⟩
    rw [((launches_startLanes runner receipt).lanes lane member).2.1] at is
    cases is
  | retired _ found | past found =>
    dsimp only
    exact ⟨capped.proceed found fun _ is => (by cases is), capped.2⟩
  | turned found =>
    dsimp only
    refine ⟨capped.proceed found fun other is attempts begins => ?_, capped.2⟩
    cases is
    exact turn_capped begins
  | gaveUp found | refused found | begun found | recorded found | sent found =>
    dsimp only
    refine ⟨capped.proceed found fun other is attempts begins => ?_, capped.2⟩
    cases is
    cases begins
  | called found stage _ _ made =>
    dsimp only
    refine ⟨capped.proceed found fun other is attempts begins => ?_, fun attempt member => ?_⟩
    · cases is
      cases begins
    · obtain old | new := List.mem_append.mp member
      · exact capped.2 attempt old
      · cases List.mem_singleton.mp new
        rw [made]
        exact capped.1 _ (List.mem_of_getElem? found) _ stage
  | answered found =>
    dsimp only
    refine ⟨capped.proceed found fun other is attempts begins => ?_, fun attempt member => ?_⟩
    · cases is
      cases begins
    · obtain old | new := List.mem_append.mp member
      · exact capped.2 attempt old
      · cases List.mem_singleton.mp new

end Standard

end Runs

end Fava.Publication.Deliveries
