import Fava.Lib.Pool
import Fava.Publication.Completion
import Fava.WriteStore.Memory.Standing

namespace Fava.Publication

open Std Fava.Lib Fava.Nostr Fava.Relay Fava.Routing Fava.Write Fava.WriteStore
open Fava.WriteStore.Memory

/-- What a lane was started for. -/
structure LaneId where
  writeId : WriteId
  receiptId : ReceiptId
  revisionId : RevisionId
  eventId : EventId
  routeRevision : Nat
deriving DecidableEq

/-- A relay that one generation goes to. -/
structure Target where
  receiptId : ReceiptId
  revisionId : RevisionId
  session : RelayUrl
deriving DecidableEq

/-- The milliseconds a publisher has for one attempt. -/
def attemptTimeout : Nat := 5000

structure PublishAttempt where
  writeId : WriteId
  receiptId : ReceiptId
  revisionId : RevisionId
  number : Nat
  session : RelayUrl
  authority : Authority
  event : Event
  timeout : Nat

def PublishAttempt.target (attempt : PublishAttempt) : Target :=
  ⟨attempt.receiptId, attempt.revisionId, attempt.session⟩

/-- The publisher is called, or it answers. -/
inductive Handover
  | called (attempt : PublishAttempt)
  | answered (attempt : PublishAttempt) (outcome : PublishOutcome)

/-- How far `run_destination` is, and the task around it: a lane that was sent is the message
that tells its runner that it is over. -/
inductive LaneStage
  | reading
  | givingUp (attempts : Nat) (reason : String)
  | beginning (attempts : Nat)
  | publishing (attempt : PublishAttempt)
  | recording (number : Nat) (outcome : PublishOutcome)
  | finishing
  | sent

structure Lane where
  runner : Nat
  session : RelayUrl
  id : LaneId
  stage : LaneStage

def Lane.target (lane : Lane) : Target := ⟨lane.id.receiptId, lane.id.revisionId, lane.session⟩

/-- How far `run` is. -/
inductive RunnerStage
  | starting
  | opening
  | reading
  | lanes (current : Receipt)
  | selecting

structure Runner where
  ordinal : Nat
  receiptId : ReceiptId
  stage : RunnerStage
  revisionId : RevisionId
  active : BTreeMap RelayUrl LaneId

/-- The runner takes a lane off that is over. -/
def Runner.retire (runner : Runner) (lane : Lane) : Runner :=
  { runner with
    stage := .reading
    active :=
      if runner.active[lane.session]? = some lane.id then runner.active.erase lane.session
      else runner.active }

/-- The ledger, the runners of its receipts with the lanes they started, and what became of
the publisher. A runner's cancel flag is kept under its ordinal; `ended` are the receipts that
some change reported as ended. -/
structure Deliveries where
  ledger : WriteState
  ended : List ReceiptId
  cancellations : BTreeMap ReceiptId Nat
  cancelled : List Nat
  cancels : List ReceiptId
  nextRunner : Nat
  runners : List Runner
  lanes : List Lane
  log : List Handover

namespace Deliveries

def new : Deliveries := ⟨.default, [], ∅, [], [], 0, [], [], []⟩

def hasEnded (ledger : WriteState) (receiptId : ReceiptId) : Bool :=
  (ledger.writes[receiptId]?).all Receipt.isTerminal

/-- Whoever waits for changes is told of what has ended. -/
def commit (s : Deliveries) (ledger : WriteState) : Deliveries :=
  { s with
    ledger := ledger
    ended := s.ended ++ (s.ledger.writes.keys ++ ledger.writes.keys).filter (hasEnded ledger) }

def readReceipt (s : Deliveries) (runner : Nat) (receiptId : ReceiptId) : Option Receipt :=
  if runner ∈ s.cancelled then none else s.ledger.writes[receiptId]?

section Lanes

def startLane (runner : Nat) (receipt : Receipt) (started : BTreeMap RelayUrl LaneId × List Lane)
    (session : RelayUrl) : BTreeMap RelayUrl LaneId × List Lane :=
  if (receipt.destinations[session]?).any RelayDeliveryOutcome.isPreHandoff ∧ session ∉ started.1 then
    let id : LaneId := ⟨receipt.writeId, receipt.receiptId, receipt.current.publication.revisionId,
      receipt.current.id, receipt.routeRevision⟩
    (started.1.insert session id, started.2 ++ [⟨runner, session, id, .reading⟩])
  else started

/-- The lanes that are to run, and those that are started for it. -/
def startLanes (runner : Runner) (receipt : Receipt) : BTreeMap RelayUrl LaneId × List Lane :=
  match receipt.current.event with
  | .unsigned _ => (runner.active, [])
  | .signed _ =>
    receipt.desiredDestinations.toList.foldl (startLane runner.ordinal receipt) (runner.active, [])

variable (policy : DeliveryPolicy)

/-- What a lane does next about the receipt it read. -/
def turn (lane : Lane) : Option Receipt → LaneStage
  | none => .finishing
  | some receipt =>
    if receipt.writeId ≠ lane.id.writeId ∨
        receipt.current.publication.revisionId ≠ lane.id.revisionId ∨
        receipt.current.id ≠ lane.id.eventId ∨ lane.session ∉ receipt.desiredDestinations then
      .finishing
    else
      match receipt.destinations[lane.session]? with
      | none => .finishing
      | some outcome =>
        let attempts := (receipt.attempts[lane.session]?).getD 0
        match policy ⟨attempts, outcome⟩ with
        | .settled => .finishing
        | .giveUp reason => .givingUp attempts reason
        | .attemptNow => if attempts + 1 < 2 ^ 32 then .beginning attempts else .reading

/-- What a lane that gives up, or that was answered, puts on record. -/
def record (s : Deliveries) (lane : Lane) (number : Nat) (outcome : RelayDeliveryOutcome) : Deliveries :=
  s.commit (recordOutcomeCurrent lane.id.writeId lane.id.receiptId lane.id.revisionId
    lane.id.eventId lane.session number outcome s.ledger).2

/-- The next access of a lane, and what is left of it. -/
def advanceLane (s : Deliveries) (lane : Lane) : Option (Deliveries × Option Lane) :=
  match lane.stage with
  | .reading =>
    let receipt := s.readReceipt lane.runner lane.id.receiptId
    some (s, some { lane with stage := turn policy lane receipt })
  | .givingUp attempts reason =>
    some (s.record lane attempts (.givenUp reason), some { lane with stage := .finishing })
  | .beginning attempts =>
    match beginAttemptCurrent lane.id.writeId lane.id.receiptId lane.id.revisionId lane.id.eventId
        lane.session (attempts + 1) s.ledger with
    | (.error _, ledger) => some (s.commit ledger, some { lane with stage := .reading })
    | (.ok receipt, ledger) =>
      match receipt.current.event with
      | .unsigned _ => some (s.commit ledger, some { lane with stage := .reading })
      | .signed event =>
        let attempt : PublishAttempt := ⟨receipt.writeId, lane.id.receiptId, lane.id.revisionId,
          attempts + 1, lane.session, receipt.access, event, attemptTimeout⟩
        some ({ s.commit ledger with log := s.log ++ [.called attempt] },
          some { lane with stage := .publishing attempt })
  | .recording number outcome =>
    some (s.record lane number (deliveryOutcome outcome), some { lane with stage := .reading })
  | .finishing =>
    some (s, if s.runners.any (·.ordinal = lane.runner) then some { lane with stage := .sent } else none)
  | .publishing _ | .sent => none

/-- The publisher answers the attempt a lane is at. -/
def answer (s : Deliveries) (lane : Lane) (outcome : PublishOutcome) : Option (Deliveries × Lane) :=
  match lane.stage with
  | .publishing attempt =>
    some ({ s with log := s.log ++ [.answered attempt outcome] },
      { lane with stage := .recording attempt.number outcome })
  | _ => none

end Lanes

section Runners

def finished (s : Deliveries) (receiptId : ReceiptId) : Deliveries :=
  { s with cancellations := s.cancellations.erase receiptId }

def start (s : Deliveries) (receiptId : ReceiptId) : Deliveries :=
  if receiptId ∈ s.cancellations then s
  else
    { s with
      cancellations := s.cancellations.insert receiptId s.nextRunner
      nextRunner := s.nextRunner + 1
      runners := s.runners ++ [⟨s.nextRunner, receiptId, .starting, 0, ∅⟩] }

/-- The next part of `run` that awaits nothing, and what is left of it. -/
def advanceRunner (s : Deliveries) (runner : Runner) : Deliveries × Option Runner :=
  let past := (s.finished runner.receiptId, none)
  match runner.stage with
  | .starting | .opening =>
    match s.ledger.writes[runner.receiptId]? with
    | none => past
    | some receipt =>
      if receipt.isTerminal then past
      else
        (s, some { runner with
          revisionId := receipt.current.publication.revisionId
          stage := match runner.stage with
            | .opening => .lanes receipt
            | _ => .reading })
  | .reading =>
    match s.readReceipt runner.ordinal runner.receiptId with
    | none => past
    | some receipt =>
      if receipt.isTerminal then past
      else if runner.revisionId < receipt.current.publication.revisionId then
        (s, some { runner with stage := .opening })
      else (s, some { runner with stage := .lanes receipt })
  | .lanes receipt =>
    let (active, lanes) := startLanes runner receipt
    ({ s with lanes := s.lanes ++ lanes }, some { runner with active := active, stage := .selecting })
  | .selecting => (s, some { runner with stage := .reading })

/-- The runner may give up: its generation does not open, its flag is up or its sender is
gone, or a change reported its receipt as ended. -/
def mayLeave (s : Deliveries) (runner : Runner) : Bool :=
  match runner.stage with
  | .starting | .opening => true
  | .selecting =>
    s.cancelled.contains runner.ordinal ||
      s.cancellations[runner.receiptId]? ≠ some runner.ordinal || s.ended.contains runner.receiptId
  | .reading | .lanes _ => false

end Runners

inductive Action
  | store (action : WriteStore.Memory.Action)
  | cancel (receiptId : ReceiptId)
  | signal (call : Nat)
  | start (receiptId : ReceiptId)
  | advanceRunner (index : Nat)
  | leave (index : Nat)
  | retire (index : Nat) (lane : Nat)
  | advanceLane (index : Nat)
  | answer (index : Nat) (outcome : PublishOutcome)
  | abandon (index : Nat)

variable (N : Library) (capacity : Nat) (policy : DeliveryPolicy)

/-- Only lanes attempt anything; whatever else is done to the ledger may happen at any time. -/
def step (s : Deliveries) : Action → Option Deliveries
  | .store action => if action.isAttempt then none else some (s.commit (perform N capacity s.ledger action))
  | .cancel receiptId =>
    match Memory.cancel receiptId s.ledger with
    | (.ok (some receipt), ledger) =>
      some { s.commit ledger with
        cancels := if receipt.outcome = .cancelled then s.cancels ++ [receiptId] else s.cancels }
    | (_, ledger) => some (s.commit ledger)
  | .signal call => do
    let receiptId ← s.cancels[call]?
    some { s.finished receiptId with
      cancels := s.cancels.eraseIdx call
      cancelled := s.cancelled ++ (s.cancellations[receiptId]?).toList }
  | .start receiptId => if receiptId < s.ledger.nextIdentity then some (s.start receiptId) else none
  | .advanceRunner index => do
    let runner ← s.runners[index]?
    let (s, next) := s.advanceRunner runner
    some { s with runners := proceed s.runners index next }
  | .leave index => do
    let runner ← s.runners[index]?
    if s.mayLeave runner then
      some { s.finished runner.receiptId with runners := proceed s.runners index none }
    else none
  | .retire index lane => do
    let runner ← s.runners[index]?
    let past ← s.lanes[lane]?
    match runner.stage, past.stage with
    | .selecting, .sent =>
      if past.runner = runner.ordinal then
        some { s with
          runners := proceed s.runners index (some (runner.retire past))
          lanes := proceed s.lanes lane none }
      else none
    | _, _ => none
  | .advanceLane index => do
    let lane ← s.lanes[index]?
    let (s, next) ← advanceLane policy s lane
    some { s with lanes := proceed s.lanes index next }
  | .answer index outcome => do
    let lane ← s.lanes[index]?
    let (s, next) ← s.answer lane outcome
    some { s with lanes := proceed s.lanes index (some next) }
  | .abandon index => do
    let lane ← s.lanes[index]?
    match lane.stage with
    | .finishing =>
      if lane.runner ∈ s.cancelled ∨ s.cancellations[lane.id.receiptId]? ≠ some lane.runner then
        some { s with lanes := proceed s.lanes index none }
      else none
    | _ => none

/-- A receipt that had ended is open again. -/
def reopens (before after : WriteState) : Bool :=
  before.writes.toList.any fun entry => entry.2.isTerminal && !hasEnded after entry.1

/-- No receipt that has ended is opened again. -/
def Unreopened (s : Deliveries) (action : Action) : Prop :=
  (step N capacity policy s action).any (fun t => reopens s.ledger t.ledger) = false

instance (s : Deliveries) (action : Action) : Decidable (Unreopened N capacity policy s action) :=
  inferInstanceAs (Decidable (_ = false))

/-- How a runner goes on without a lane. -/
inductive Moves (s : Deliveries) (runner : Runner) : Runner → Prop
  | started {receipt : Receipt} (stage : runner.stage = .starting)
      (found : s.ledger.writes[runner.receiptId]? = some receipt) :
      Moves s runner { runner with
        revisionId := receipt.current.publication.revisionId, stage := .reading }
  | opened {receipt : Receipt} (stage : runner.stage = .opening)
      (found : s.ledger.writes[runner.receiptId]? = some receipt) :
      Moves s runner { runner with
        revisionId := receipt.current.publication.revisionId, stage := .lanes receipt }
  | opens {receipt : Receipt} (stage : runner.stage = .reading)
      (found : s.ledger.writes[runner.receiptId]? = some receipt)
      (newer : runner.revisionId < receipt.current.publication.revisionId) :
      Moves s runner { runner with stage := .opening }
  | reads {receipt : Receipt} (stage : runner.stage = .reading)
      (found : s.ledger.writes[runner.receiptId]? = some receipt)
      (same : receipt.current.publication.revisionId ≤ runner.revisionId) :
      Moves s runner { runner with stage := .lanes receipt }
  | wakes (stage : runner.stage = .selecting) : Moves s runner { runner with stage := .reading }

/-- Why a runner ends. -/
inductive Leaves (s : Deliveries) (runner : Runner) : Prop
  | starting (stage : runner.stage = .starting)
  | opening (stage : runner.stage = .opening)
  | ended (ended : hasEnded s.ledger runner.receiptId = true)
  | flagged (flagged : runner.ordinal ∈ s.cancelled)
  | dropped (dropped : s.cancellations[runner.receiptId]? ≠ some runner.ordinal)
  | told (told : runner.receiptId ∈ s.ended)

/-- What one step can do. -/
inductive Stepped (s : Deliveries) : Deliveries → Prop
  | stored {action : WriteStore.Memory.Action} (other : action.isAttempt = false) :
      Stepped s (s.commit (perform N capacity s.ledger action))
  | cancelled {r : ReceiptId} {receipt : Receipt} (found : s.ledger.writes[r]? = some receipt)
      (ended : hasEnded (perform N capacity s.ledger (.cancel r)) r = true) :
      Stepped s { s.commit (perform N capacity s.ledger (.cancel r)) with cancels := s.cancels ++ [r] }
  | signalled {call : Nat} {r : ReceiptId} (found : s.cancels[call]? = some r) :
      Stepped s { s.finished r with
        cancels := s.cancels.eraseIdx call
        cancelled := s.cancelled ++ (s.cancellations[r]?).toList }
  | started {r : ReceiptId} (used : r < s.ledger.nextIdentity) (free : r ∉ s.cancellations) :
      Stepped s { s with
        cancellations := s.cancellations.insert r s.nextRunner
        nextRunner := s.nextRunner + 1
        runners := s.runners ++ [⟨s.nextRunner, r, .starting, 0, ∅⟩] }
  | idle : Stepped s s
  | moved {index : Nat} {runner next : Runner} (found : s.runners[index]? = some runner)
      (moves : Moves s runner next) :
      Stepped s { s with runners := proceed s.runners index (some next) }
  | left {index : Nat} {runner : Runner} (found : s.runners[index]? = some runner)
      (leaves : Leaves s runner) :
      Stepped s { s.finished runner.receiptId with runners := proceed s.runners index none }
  | launched {index : Nat} {runner : Runner} {receipt : Receipt}
      (found : s.runners[index]? = some runner) (stage : runner.stage = .lanes receipt) :
      Stepped s { s with
        lanes := s.lanes ++ (startLanes runner receipt).2
        runners := proceed s.runners index
          (some { runner with active := (startLanes runner receipt).1, stage := .selecting }) }
  | retired {index position : Nat} {runner : Runner} {lane : Lane}
      (found : s.runners[index]? = some runner) (present : s.lanes[position]? = some lane)
      (own : lane.runner = runner.ordinal) :
      Stepped s { s with
        runners := proceed s.runners index (some (runner.retire lane))
        lanes := proceed s.lanes position none }
  | turned {index : Nat} {lane : Lane} (found : s.lanes[index]? = some lane)
      (stage : lane.stage matches .reading) :
      Stepped s { s with lanes := proceed s.lanes index (some { lane with
        stage := turn policy lane (s.readReceipt lane.runner lane.id.receiptId) }) }
  | gaveUp {index attempts : Nat} {reason : String} {lane : Lane} (found : s.lanes[index]? = some lane)
      (stage : lane.stage = .givingUp attempts reason) :
      Stepped s { s.record lane attempts (.givenUp reason) with
        lanes := proceed s.lanes index (some { lane with stage := .finishing }) }
  | refused {index : Nat} {lane : Lane} (found : s.lanes[index]? = some lane) :
      Stepped s { s.commit s.ledger with
        lanes := proceed s.lanes index (some { lane with stage := .reading }) }
  | begun {index attempts : Nat} {lane : Lane} {receipt : Receipt} {ledger : WriteState}
      (found : s.lanes[index]? = some lane) (stage : lane.stage = .beginning attempts)
      (began : beginAttemptCurrent lane.id.writeId lane.id.receiptId lane.id.revisionId
        lane.id.eventId lane.session (attempts + 1) s.ledger = (.ok receipt, ledger))
      (unsigned : ∀ event, receipt.current.event ≠ .signed event) :
      Stepped s { s.commit ledger with
        lanes := proceed s.lanes index (some { lane with stage := .reading }) }
  | called {index attempts : Nat} {lane : Lane} {receipt : Receipt} {event : Event}
      {ledger : WriteState} (found : s.lanes[index]? = some lane)
      (stage : lane.stage = .beginning attempts)
      (began : beginAttemptCurrent lane.id.writeId lane.id.receiptId lane.id.revisionId
        lane.id.eventId lane.session (attempts + 1) s.ledger = (.ok receipt, ledger))
      (signed : receipt.current.event = .signed event) {attempt : PublishAttempt}
      (made : attempt = ⟨receipt.writeId, lane.id.receiptId, lane.id.revisionId, attempts + 1,
        lane.session, receipt.access, event, attemptTimeout⟩) :
      Stepped s { s.commit ledger with
        log := s.log ++ [.called attempt]
        lanes := proceed s.lanes index (some { lane with stage := .publishing attempt }) }
  | answered {index : Nat} {lane : Lane} {attempt : PublishAttempt} {outcome : PublishOutcome}
      (found : s.lanes[index]? = some lane) (stage : lane.stage = .publishing attempt) :
      Stepped s { s with
        log := s.log ++ [.answered attempt outcome]
        lanes := proceed s.lanes index
          (some { lane with stage := .recording attempt.number outcome }) }
  | recorded {index number : Nat} {lane : Lane} {outcome : PublishOutcome}
      (found : s.lanes[index]? = some lane) (stage : lane.stage = .recording number outcome) :
      Stepped s { s.record lane number (deliveryOutcome outcome) with
        lanes := proceed s.lanes index (some { lane with stage := .reading }) }
  | sent {index : Nat} {lane : Lane} (found : s.lanes[index]? = some lane) :
      Stepped s { s with lanes := proceed s.lanes index (some { lane with stage := .sent }) }
  | past {index : Nat} {lane : Lane} (found : s.lanes[index]? = some lane) :
      Stepped s { s with lanes := proceed s.lanes index none }

variable {N capacity policy} {s t : Deliveries} {action : Action}

theorem Stepped.of_cancel {receiptId : ReceiptId}
    (stepped : step N capacity policy s (.cancel receiptId) = some t) :
    Stepped N capacity policy s t := by
  have store : Stepped N capacity policy s (s.commit (Memory.cancel receiptId s.ledger).2) :=
    @Stepped.stored _ _ _ _ (.cancel receiptId) rfl
  change (match Memory.cancel receiptId s.ledger with
    | (.ok (some receipt), ledger) => some { s.commit ledger with
        cancels := if receipt.outcome = .cancelled then s.cancels ++ [receiptId] else s.cancels }
    | (_, ledger) => some (s.commit ledger)) = some t at stepped
  obtain ⟨error, result⟩ | result | ⟨receipt, found, cases⟩ :=
    cancel_cases (r := receiptId) (s := s.ledger)
  · rw [result] at stepped store
    cases stepped
    exact store
  · rw [result] at stepped store
    cases stepped
    exact store
  · have told : ∀ receipt ledger, Memory.cancel receiptId s.ledger = (.ok (some receipt), ledger) →
        receipt.outcome = .cancelled → hasEnded ledger receiptId = true →
        Stepped N capacity policy s { s.commit ledger with cancels := s.cancels ++ [receiptId] } := by
      intro receipt ledger result _ ended
      have same : perform N capacity s.ledger (.cancel receiptId) = ledger := congrArg Prod.snd result
      rw [← same] at ended ⊢
      exact .cancelled found ended
    obtain ⟨already, result⟩ | ⟨-, revision, result⟩ := cases
    · have next := told receipt s.ledger result already
      rw [result] at stepped
      cases stepped
      rw [if_pos already]
      refine next ?_
      simp [hasEnded, found, Receipt.isTerminal, already]
    · have next := told _ _ result rfl
      rw [result] at stepped
      cases stepped
      have is : (Memory.cancelled receipt).outcome = .cancelled := rfl
      rw [if_pos is]
      refine next ?_
      show ((s.ledger.writes.insert receiptId (Memory.cancelled receipt))[receiptId]?).all _ = true
      rw [BTreeMap.find_insert_self]
      rfl

theorem Stepped.of_advanceRunner {index : Nat}
    (stepped : step N capacity policy s (.advanceRunner index) = some t) :
    Stepped N capacity policy s t := by
  obtain ⟨runner, found, same⟩ := Option.bind_eq_some_iff.mp stepped
  unfold advanceRunner at same
  dsimp only at same
  split at same
  · rename_i stage
    split at same
    · rename_i absent
      cases same
      exact .left found (.starting stage)
    · rename_i receipt present
      split at same
      · cases same
        exact .left found (.starting stage)
      · cases same
        rw [stage]
        exact .moved found (.started stage present)
  · rename_i stage
    split at same
    · cases same
      exact .left found (.opening stage)
    · rename_i receipt present
      split at same
      · cases same
        exact .left found (.opening stage)
      · cases same
        rw [stage]
        exact .moved found (.opened stage present)
  · rename_i stage
    unfold readReceipt at same
    split at same
    · rename_i absent
      cases same
      split at absent
      · exact .left found (.flagged ‹_›)
      · exact .left found (.ended (by simp [hasEnded, absent]))
    · rename_i receipt present
      split at present
      · cases present
      · split at same
        · rename_i terminal
          cases same
          exact .left found (.ended (by simp [hasEnded, present, terminal]))
        · split at same
          · cases same
            exact .moved found (.opens stage present ‹_›)
          · rename_i same'
            cases same
            exact .moved found (.reads stage present (Nat.le_of_not_lt same'))
  · cases same
    exact .launched found ‹_›
  · cases same
    exact .moved found (.wakes ‹_›)

theorem Stepped.of_advanceLane {index : Nat}
    (stepped : step N capacity policy s (.advanceLane index) = some t) :
    Stepped N capacity policy s t := by
  obtain ⟨lane, found, goes⟩ := Option.bind_eq_some_iff.mp stepped
  obtain ⟨⟨u, next⟩, advanced, same⟩ := Option.bind_eq_some_iff.mp goes
  cases same
  unfold advanceLane at advanced
  split at advanced
  · rename_i stage
    cases advanced
    exact .turned found (by rw [stage])
  · cases advanced
    exact .gaveUp found ‹_›
  · rename_i stage
    split at advanced
    · rename_i error ledger result
      cases advanced
      obtain rfl := beginAttempt_of_error result
      exact .refused found
    · rename_i began
      split at advanced
      · rename_i unsigned
        cases advanced
        exact .begun found stage began (by rw [unsigned]; exact fun _ => nofun)
      · cases advanced
        exact .called found stage began ‹_› rfl
  · cases advanced
    exact .recorded found ‹_›
  · cases advanced
    split
    · exact .sent found
    · exact .past found
  · cases advanced
  · cases advanced

theorem Stepped.of_step (stepped : step N capacity policy s action = some t) :
    Stepped N capacity policy s t := by
  cases action with
  | store action =>
    obtain ⟨other, same⟩ := Option.ite_none_left_eq_some.mp stepped
    cases same
    exact .stored (Bool.of_not_eq_true other)
  | cancel receiptId => exact .of_cancel stepped
  | signal call =>
    obtain ⟨r, found, same⟩ := Option.bind_eq_some_iff.mp stepped
    cases same
    exact .signalled found
  | start receiptId =>
    obtain ⟨used, same⟩ := Option.ite_none_right_eq_some.mp stepped
    cases same
    unfold start
    split
    · exact .idle
    · exact .started used ‹_›
  | advanceRunner index => exact .of_advanceRunner stepped
  | leave index =>
    obtain ⟨runner, found, goes⟩ := Option.bind_eq_some_iff.mp stepped
    obtain ⟨may, same⟩ := Option.ite_none_right_eq_some.mp goes
    cases same
    refine .left found ?_
    unfold mayLeave at may
    split at may
    · exact .starting ‹_›
    · exact .opening ‹_›
    · simp only [Bool.or_eq_true, decide_eq_true_eq, List.contains_iff_mem] at may
      obtain (flagged | dropped) | told := may
      · exact .flagged flagged
      · exact .dropped dropped
      · exact .told told
    · cases may
    · cases may
  | retire index position =>
    obtain ⟨runner, found, goes⟩ := Option.bind_eq_some_iff.mp stepped
    obtain ⟨lane, present, goes⟩ := Option.bind_eq_some_iff.mp goes
    split at goes
    · obtain ⟨own, same⟩ := Option.ite_none_right_eq_some.mp goes
      cases same
      exact .retired found present own
    · cases goes
  | advanceLane index => exact .of_advanceLane stepped
  | answer index outcome =>
    obtain ⟨lane, found, goes⟩ := Option.bind_eq_some_iff.mp stepped
    obtain ⟨⟨u, next⟩, answered, same⟩ := Option.bind_eq_some_iff.mp goes
    cases same
    unfold answer at answered
    split at answered
    · cases answered
      exact .answered found ‹_›
    · cases answered
  | abandon index =>
    obtain ⟨lane, found, goes⟩ := Option.bind_eq_some_iff.mp stepped
    split at goes
    · obtain ⟨-, same⟩ := Option.ite_none_right_eq_some.mp goes
      cases same
      exact .past found
    · cases goes

end Deliveries

end Fava.Publication
