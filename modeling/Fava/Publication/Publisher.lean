import Fava.Publication.Handoff
import Fava.Transport.Driver
import Fava.Transport.Mailbox
import Fava.WriteStore.Redb.Validation

namespace Fava.Publication

open Fava.Lib Fava.Nostr Fava.Relay Fava.Transport Fava.Transport.Driver Fava.Write
open Fava.WriteStore.Redb (startsWith)
open Fava.WriteStore.Memory (note)

/-- The relay's verdict on one event, or the end of the connection it was handed off on. -/
inductive Settlement
  | accepted (message : BoundedText)
  | rejected (message : BoundedText)
  | ended (ended : SessionEnded)

structure TransportDeadlines where
  establish : Nat
  write : Nat
  idle : Nat
  close : Nat

structure TransportBounds where
  inboundFrames : Nat
  outboundFrames : Nat
  maxFrameBytes : Nat

structure OpenRelaySession where
  relay : RelayUrl
  authority : Authority
  deadlines : TransportDeadlines
  bounds : TransportBounds
  reconnectAttempts : Option Nat

/-- How `Debug` prints what a transport refuses. -/
structure Printed where
  failure : TransportFailure → String
  handoff : HandoffOutcome → String

def inboundFrames : Nat := 64

def authRequired : String := "auth-required:"

def openRequest (relay : RelayUrl) (authority : Authority) (timeout : Nat) : OpenRelaySession where
  relay := relay
  authority := authority
  deadlines := ⟨timeout, timeout, timeout, timeout⟩
  bounds := ⟨inboundFrames, 4, 1048576⟩
  reconnectAttempts := none

/-- The connection was accepted as the account and can carry the write again. -/
def arrived (connection : Connection) (account : PublicKey) : Bool :=
  connection.connectivity = .connected && connection.authentication.established = some account

/-- The connection is where authentication can no longer leave. -/
def blocked (connection : Connection) : Bool :=
  (match connection.authentication.progress with
    | .declined | .refused _ | .unanswerable _ => true
    | .idle | .requested _ | .answering _ => false) ||
  match connection.connectivity with
  | .disconnected _ (some _) => true
  | _ => false

def describeBlock (connection : Connection) : String :=
  match connection.authentication.progress with
  | .declined => "the application declined to authenticate"
  | .refused reason => "the relay refused authentication: " ++ reason.text
  | .unanswerable reason => "authentication could not be answered: " ++ reason.text
  | .idle | .requested _ | .answering _ =>
    match connection.connectivity with
    | .disconnected detail (some attempts) =>
      "the reconnect budget of " ++ toString attempts ++
        " was exhausted before authentication completed: " ++ detail.text
    | _ => "authentication did not complete"

def describeEnded : SessionEnded → String
  | .disconnected detail => "connection ended before the relay answered: " ++ detail.text
  | .reconnectExhausted attempts detail =>
    "reconnect budget of " ++ toString attempts ++ " exhausted before the relay answered: " ++ detail.text

/-- How far `publish` is. -/
inductive PublishStage
  | acquiring (request : OpenRelaySession)
  | sending
  | settling
  | authenticating (account : PublicKey) (message : String)
  | releasing (outcome : PublishOutcome)
  | returned (outcome : PublishOutcome)

/-- What `publish` awaits: the lease, what becomes of the frame, the verdict or the deadline, the
states of the connection or its end, and the release of the lease. -/
inductive Arrival
  | acquired (result : Except String Unit)
  | published (result : Except HandoffOutcome Unit)
  | settled (settlement : Settlement)
  | elapsed
  | connection (current : Connection)
  | connectionEnded
  | released

def unauthenticated (message reason : String) : PublishOutcome :=
  .authenticationRequired (message ++ "; authentication was required and did not happen: " ++ reason)

namespace PublishStage

def start (attempt : PublishAttempt) : PublishStage :=
  .acquiring (openRequest attempt.session attempt.authority attempt.timeout)

variable (D : Printed) (attempt : PublishAttempt)

def settled : Settlement → PublishStage
  | .accepted message => .releasing (.acknowledged message.text)
  | .rejected message =>
    if startsWith message.text authRequired then
      match attempt.authority with
      | .asAccount account => .authenticating account message.text
      | .unauthenticated => .releasing (.authenticationRequired message.text)
    else .releasing (.rejected message.text)
  | .ended ended => .releasing (.outcomeUnknown (describeEnded ended))

/-- `publish` with `send_until_settled` and `wait_for_authentication`, from one await to the next. -/
def step : PublishStage → Arrival → Option PublishStage
  | .acquiring _, .acquired (.error error) => some (.returned (.notHandedOff error))
  | .acquiring _, .acquired (.ok ()) => some .sending
  | .sending, .published (.error (.notHandedOff _ _ reason)) =>
    some (.releasing (.notHandedOff (D.failure reason)))
  | .sending, .published (.error refused) => some (.releasing (.outcomeUnknown (D.handoff refused)))
  | .sending, .published (.ok ()) => some .settling
  | .settling, .settled settlement => some (settled attempt settlement)
  | .settling, .elapsed =>
    some (.releasing (.outcomeUnknown "publication deadline elapsed after handoff"))
  | .authenticating account message, .connection current =>
    some (if arrived current account then .sending
      else if blocked current then .releasing (unauthenticated message (describeBlock current))
      else .authenticating account message)
  | .authenticating _ message, .connectionEnded =>
    some (.releasing (unauthenticated message
      "the connection ended while authentication was outstanding"))
  | .releasing outcome, .released => some (.returned outcome)
  | _, _ => none

end PublishStage

/-- Each frame the session took was refused with the demand to authenticate. -/
def Refused (heard : List Arrival) : Prop :=
  ∀ before after, heard = before ++ .published (.ok ()) :: after →
    ∃ message rest, after = .settled (.rejected message) :: rest ∧
      startsWith message.text authRequired = true

section Rounds

variable {D : Printed} {attempt : PublishAttempt} {heard : List Arrival} {message : BoundedText}
  {account : PublicKey} {seen : List Connection} {current : Connection} {stage next : PublishStage}
  {arrival : Arrival} {outcome : PublishOutcome}

/-- The session took the frame, the relay demanded authentication for it, and until now the
connection neither was accepted nor can no longer be. -/
structure Demanded (attempt : PublishAttempt) (account : PublicKey) (message : BoundedText)
    (seen : List Connection) : Prop where
  asks : startsWith message.text authRequired = true
  authority : attempt.authority = .asAccount account
  waits : ∀ current ∈ seen, arrived current account = false ∧ blocked current = false

/-- Rounds each of which ended with the connection accepted as the account of the attempt. -/
inductive Rounds (attempt : PublishAttempt) : List Arrival → Prop
  | acquired : Rounds attempt [.acquired (.ok ())]
  | again {heard : List Arrival} {account : PublicKey} {message : BoundedText}
      {seen : List Connection} {current : Connection} (rounds : Rounds attempt heard)
      (demanded : Demanded attempt account message seen) (accepted : arrived current account = true) :
      Rounds attempt (heard ++ .published (.ok ()) :: .settled (.rejected message) ::
        seen.map .connection ++ [.connection current])

/-- How the last round goes, and what `publish` makes of it. -/
inductive Concludes (D : Printed) (attempt : PublishAttempt) : List Arrival → PublishOutcome → Prop
  | notHandedOff {identity : RelaySessionIdentity} {correlation : Nat} {reason : TransportFailure} :
      Concludes D attempt [.published (.error (.notHandedOff identity correlation reason))]
        (.notHandedOff (D.failure reason))
  | unclear {refused : HandoffOutcome}
      (unclear : ∀ identity correlation reason, refused ≠ .notHandedOff identity correlation reason) :
      Concludes D attempt [.published (.error refused)] (.outcomeUnknown (D.handoff refused))
  | accepted {message : BoundedText} :
      Concludes D attempt [.published (.ok ()), .settled (.accepted message)]
        (.acknowledged message.text)
  | rejected {message : BoundedText} (final : startsWith message.text authRequired = false) :
      Concludes D attempt [.published (.ok ()), .settled (.rejected message)] (.rejected message.text)
  | ended {ended : SessionEnded} :
      Concludes D attempt [.published (.ok ()), .settled (.ended ended)]
        (.outcomeUnknown (describeEnded ended))
  | elapsed : Concludes D attempt [.published (.ok ()), .elapsed]
      (.outcomeUnknown "publication deadline elapsed after handoff")
  | anonymous {message : BoundedText} (asks : startsWith message.text authRequired = true)
      (authority : attempt.authority = .unauthenticated) :
      Concludes D attempt [.published (.ok ()), .settled (.rejected message)]
        (.authenticationRequired message.text)
  | blocked {account : PublicKey} {message : BoundedText} {seen : List Connection}
      {current : Connection} (demanded : Demanded attempt account message seen)
      (unaccepted : arrived current account = false) (blocked : blocked current = true) :
      Concludes D attempt (.published (.ok ()) :: .settled (.rejected message) ::
        seen.map .connection ++ [.connection current])
        (unauthenticated message.text (describeBlock current))
  | closed {account : PublicKey} {message : BoundedText} {seen : List Connection}
      (demanded : Demanded attempt account message seen) :
      Concludes D attempt (.published (.ok ()) :: .settled (.rejected message) ::
        seen.map .connection ++ [.connectionEnded])
        (unauthenticated message.text "the connection ended while authentication was outstanding")

/-- What was heard before each stage. -/
def Heard (D : Printed) (attempt : PublishAttempt) (heard : List Arrival) : PublishStage → Prop
  | .acquiring request => heard = [] ∧ request = openRequest attempt.session attempt.authority attempt.timeout
  | .sending => Rounds attempt heard
  | .settling => ∃ rounds, Rounds attempt rounds ∧ heard = rounds ++ [.published (.ok ())]
  | .authenticating account text => ∃ rounds message seen, Rounds attempt rounds ∧
    Demanded attempt account message seen ∧ message.text = text ∧
    heard = rounds ++ .published (.ok ()) :: .settled (.rejected message) :: seen.map .connection
  | .releasing outcome => ∃ rounds last, Rounds attempt rounds ∧ Concludes D attempt last outcome ∧
    heard = rounds ++ last
  | .returned outcome => (∃ error, heard = [.acquired (.error error)] ∧ outcome = .notHandedOff error) ∨
    ∃ rounds last, Rounds attempt rounds ∧ Concludes D attempt last outcome ∧
      heard = rounds ++ last ++ [.released]

theorem Heard.settled {settlement : Settlement} (heard' : Heard D attempt heard .settling) :
    Heard D attempt (heard ++ [.settled settlement]) (PublishStage.settled attempt settlement) := by
  obtain ⟨rounds, again, rfl⟩ := heard'
  rw [List.append_assoc, List.singleton_append]
  cases settlement with
  | accepted message => exact ⟨rounds, _, again, .accepted, rfl⟩
  | ended ended => exact ⟨rounds, _, again, .ended, rfl⟩
  | rejected message =>
    unfold PublishStage.settled
    dsimp only
    split
    · split
      · exact ⟨rounds, message, [], again, ⟨‹_›, ‹_›, fun _ member => by cases member⟩, rfl, rfl⟩
      · exact ⟨rounds, _, again, .anonymous ‹_› ‹_›, rfl⟩
    · exact ⟨rounds, _, again, .rejected (Bool.of_not_eq_true ‹_›), rfl⟩

theorem Heard.step (before : Heard D attempt heard stage)
    (stepped : stage.step D attempt arrival = some next) :
    Heard D attempt (heard ++ [arrival]) next := by
  unfold PublishStage.step at stepped
  split at stepped
  · cases stepped
    obtain ⟨rfl, -⟩ := before
    exact .inl ⟨_, rfl, rfl⟩
  · cases stepped
    obtain ⟨rfl, -⟩ := before
    exact .acquired
  · cases stepped
    exact ⟨heard, _, before, .notHandedOff, rfl⟩
  · rename_i unclear
    cases stepped
    exact ⟨heard, _, before, .unclear unclear, rfl⟩
  · cases stepped
    exact ⟨heard, before, rfl⟩
  · cases stepped
    exact before.settled
  · cases stepped
    obtain ⟨rounds, again, rfl⟩ := before
    exact ⟨rounds, _, again, .elapsed, List.append_assoc ..⟩
  · rename_i account text current
    obtain ⟨rounds, message, seen, again, demanded, rfl, rfl⟩ := before
    cases stepped
    split
    · exact .again again demanded ‹_›
    · have unaccepted := Bool.of_not_eq_true ‹_›
      split
      · exact ⟨rounds, _, again, .blocked demanded unaccepted ‹_›, by simp⟩
      · have unblocked := Bool.of_not_eq_true ‹_›
        refine ⟨rounds, message, seen ++ [current], again, ⟨demanded.asks, demanded.authority, ?_⟩, rfl,
          by simp⟩
        exact List.forall_mem_append.mpr ⟨demanded.waits,
          List.forall_mem_singleton.mpr ⟨unaccepted, unblocked⟩⟩
  · obtain ⟨rounds, message, seen, again, demanded, rfl, rfl⟩ := before
    cases stepped
    exact ⟨rounds, _, again, .closed demanded, by simp⟩
  · cases stepped
    obtain ⟨rounds, last, again, concludes, rfl⟩ := before
    exact .inr ⟨rounds, last, again, concludes, rfl⟩
  · cases stepped

theorem heard_of_run {heard : List Arrival}
    (run : Run (PublishStage.step D attempt) Free (.start attempt) heard stage) :
    Heard D attempt heard stage := by
  induction run with
  | nil => exact ⟨rfl, rfl⟩
  | snoc _ _ stepped ih => exact ih.step stepped

/-- What `publish` returns is what its last round came to. Each round before it ended with the
relay's demand to authenticate and the connection accepted as the account of the attempt, and the
lease is kept until the last one is over. -/
theorem returned_concludes
    (run : Run (PublishStage.step D attempt) Free (.start attempt) heard (.returned outcome)) :
    (∃ error, heard = [.acquired (.error error)] ∧ outcome = .notHandedOff error) ∨
      ∃ rounds last, Rounds attempt rounds ∧ Concludes D attempt last outcome ∧
        heard = rounds ++ last ++ [.released] :=
  heard_of_run run

/-- A relay demands authentication once and takes the event then. -/
def takenAsAccount : List Arrival :=
  [.acquired (.ok ()), .published (.ok ()), .settled (.rejected ⟨"auth-required: sign in", 0⟩),
    .connection ⟨⟨"wss://a.example", 1⟩, .connected, ⟨none, .answering 7⟩⟩,
    .connection ⟨⟨"wss://a.example", 1⟩, .connected, ⟨some 7, .idle⟩⟩,
    .published (.ok ()), .settled (.accepted ⟨"saved", 0⟩), .released]

def asAccount : PublishAttempt := ⟨1, 1, 1, 1, "wss://a.example", .asAccount 7, note, attemptTimeout⟩

theorem returned_concludes_as_account :
    (∃ error, takenAsAccount = [.acquired (.error error)] ∧
      PublishOutcome.acknowledged "saved" = .notHandedOff error) ∨
    ∃ rounds last, Rounds asAccount rounds ∧
      Concludes ⟨fun _ => "", fun _ => ""⟩ asAccount last (.acknowledged "saved") ∧
      takenAsAccount = rounds ++ last ++ [.released] :=
  returned_concludes (.of_exec rfl)

end Rounds

section Refused

variable {D : Printed} {attempt : PublishAttempt} {heard later : List Arrival} {arrival : Arrival}
  {reason : String}

theorem Refused.append (first : Refused heard) (second : Refused later) : Refused (heard ++ later) := by
  intro before after split
  obtain ⟨middle, rfl, rfl⟩ | ⟨middle, rfl, rest⟩ := List.append_eq_append_iff.mp split
  · exact second middle after rfl
  · obtain _ | ⟨arrival, middle⟩ := middle
    · exact second [] after rest.symm
    · obtain ⟨rfl, rfl⟩ := List.cons.inj rest
      obtain ⟨message, tail, rfl, asks⟩ := first before middle rfl
      exact ⟨message, tail ++ later, rfl, asks⟩

theorem refused_of_unsent (unsent : .published (.ok ()) ∉ heard) : Refused heard := by
  rintro before after rfl
  exact absurd (List.mem_append_right _ List.mem_cons_self) unsent

theorem refused_round {message : BoundedText} (asks : startsWith message.text authRequired = true)
    (rest : Refused later) :
    Refused (.published (.ok ()) :: .settled (.rejected message) :: later) := by
  intro before after split
  obtain _ | ⟨first, before⟩ := before
  · obtain ⟨-, rfl⟩ := List.cons.inj split
    exact ⟨message, later, rfl, asks⟩
  · obtain ⟨-, split⟩ := List.cons.inj split
    obtain _ | ⟨second, before⟩ := before
    · obtain ⟨clash, -⟩ := List.cons.inj split
      cases clash
    · obtain ⟨-, split⟩ := List.cons.inj split
      exact rest before after split

theorem Rounds.refused (rounds : Rounds attempt heard) : Refused heard := by
  induction rounds with
  | acquired => exact refused_of_unsent (by simp)
  | again _ demanded _ ih =>
    rw [List.append_assoc]
    exact ih.append (refused_round demanded.asks (refused_of_unsent (by simp)))

/-- A publisher that says it did not hand the event off did so only to be asked to authenticate. -/
theorem refused_of_notHandedOff
    (run : Run (PublishStage.step D attempt) Free (.start attempt) heard
      (.returned (.notHandedOff reason))) : Refused heard := by
  obtain ⟨error, rfl, -⟩ | ⟨rounds, last, again, concludes, rfl⟩ := heard_of_run run
  · exact refused_of_unsent (by simp)
  · have last : Refused last := by
      cases concludes
      exact refused_of_unsent (by simp)
    exact (again.refused.append last).append (refused_of_unsent (by simp))

end Refused

namespace Deliveries

variable {N : Library} {capacity : Nat} {policy : DeliveryPolicy} {D : Printed} {s : Deliveries}
  {actions : List Action} {attempt : PublishAttempt}

end Deliveries

end Fava.Publication
