import Fava.Lib.Run
import Fava.Transport.Router

namespace Fava.Transport.Driver

open Fava.Lib Fava.Nostr Fava.Relay Fava.Transport

inductive TransportFailure
  | sessionClosed
  | generationExhausted
  | outboundQueueFull (capacity : Nat)
  | frameTooLarge (bytes maximum : Nat)
  | establishTimeout
  | idleTimeout
  | disconnected (detail : BoundedText)
deriving DecidableEq

inductive TransportAmbiguity
  | flushUnconfirmed (detail : BoundedText)
  | writeTimeout
deriving DecidableEq

inductive HandoffOutcome
  | notHandedOff (identity : RelaySessionIdentity) (correlation : Nat) (reason : TransportFailure)
  | handedOff (identity : RelaySessionIdentity) (correlation : Nat)
  | ambiguous (identity : RelaySessionIdentity) (correlation : Nat) (reason : TransportAmbiguity)
deriving DecidableEq

/-- One call of `hand_off`, or of `enqueue` when nobody awaits the outcome, past
its check of `closed`. The ticket stands for the call's completion channel. -/
structure Call where
  ticket : Nat
  frame : String
  correlation : Nat
  awaited : Bool
  identity : RelaySessionIdentity
deriving DecidableEq

/-- A queued frame, with the generation that was current when it was queued,
which the code does not keep. -/
structure Outbound where
  call : Call
  queuedAt : Nat
deriving DecidableEq

/-- Where the task that owns the socket is. A socket is named by the generation
minted for it. -/
inductive Phase
  | pumping (socket : Nat)
  | writing (socket : Nat) (pending : Outbound) (identity : RelaySessionIdentity)
  | closing (socket : Nat)
  | draining (identity : RelaySessionIdentity) (reason : TransportFailure)
  | drained
  | minting
  | sleeping (minted attempt : Nat)
  | dialling (minted attempt : Nat)
  | established (socket : Nat)
  | advanced (socket : Nat)
  | givingUp (attempts : Nat) (reason : TransportFailure)
  | stopping
  | routerClosed
  | finished
deriving DecidableEq

structure Session where
  relay : RelayUrl
  maxFrameBytes : Nat
  outboundFrames : Nat
  reconnectAttempts : Option Nat
  generation : Nat
  generations : Nat
  closed : Bool
  closeRequested : Bool
  abandoned : Bool
  cell : ConnectionCell
  endings : List SessionEnded
  tickets : Nat
  calls : List Call
  queue : List Outbound
  phase : Phase
  returned : List (Nat × HandoffOutcome)
  accepted : List Outbound
  written : List (Nat × Outbound)
  discarded : List Outbound

namespace Session

def identity (s : Session) : RelaySessionIdentity := ⟨s.relay, s.generation⟩

def moved (s : Session) (next : Connection → Connection) : Session :=
  { s with
    cell := (s.cell.moved next).1
    endings := s.endings ++ (s.cell.moved next).2.toList }

/-- Send a completion: the caller returns it unless it has returned already or
never waited. -/
def answered (returned : List (Nat × HandoffOutcome)) (call : Call) (outcome : HandoffOutcome) :
    List (Nat × HandoffOutcome) :=
  if call.awaited ∧ returned.all (fun r => r.1 ≠ call.ticket) then
    returned ++ [(call.ticket, outcome)]
  else returned

def complete (s : Session) (call : Call) (outcome : HandoffOutcome) : Session :=
  { s with returned := answered s.returned call outcome }

def budget (s : Session) : Nat := s.reconnectAttempts.getD (2 ^ 64 - 1)

end Session

/-- A session whose first socket is established, as `acquire_session` starts it. -/
def opened (relay : RelayUrl) (maxFrameBytes outboundFrames : Nat)
    (reconnectAttempts : Option Nat) (generation : Nat) : Session where
  relay := relay
  maxFrameBytes := maxFrameBytes
  outboundFrames := outboundFrames
  reconnectAttempts := reconnectAttempts
  generation := generation
  generations := generation
  closed := false
  closeRequested := false
  abandoned := false
  cell := ⟨true, ⟨⟨relay, generation⟩, .connected, .unoffered⟩⟩
  endings := []
  tickets := 0
  calls := []
  queue := []
  phase := .pumping generation
  returned := []
  accepted := []
  written := []
  discarded := []

inductive Action
  | handOff (frame : String) (correlation : Nat)
  | enqueue (frame : String)
  | trySend (call : Call)
  | timesOut (call : Call)
  | close
  | closeRouter
  | abandon
  | othersMint
  | recv
  | writeDone
  | writeFails (detail : BoundedText)
  | writeTimesOut
  | socketEnds (reason : TransportFailure)
  | challenge (challenge : String)
  | hearsClose
  | closeDone (inTime : Bool)
  | drains
  | checksClosed
  | mints
  | wakes
  | dials (failure : Option TransportFailure)
  | advances
  | moves
  | givesUp (detail : String)
  | stops
  | finishes
deriving DecidableEq

/-- `hand_off` and `enqueue` up to their check of `closed`; only `hand_off`
measures the frame and waits for an outcome. -/
def handOff (s : Session) (frame : String) (correlation : Nat) (awaited : Bool) : Session :=
  let call : Call := ⟨s.tickets, frame, correlation, awaited, s.identity⟩
  if awaited ∧ s.maxFrameBytes < frame.utf8ByteSize then
    { s.complete call (.notHandedOff s.identity correlation
        (.frameTooLarge frame.utf8ByteSize s.maxFrameBytes)) with tickets := s.tickets + 1 }
  else if s.closed then
    { s.complete call (.notHandedOff s.identity correlation .sessionClosed) with
      tickets := s.tickets + 1 }
  else { s with calls := call :: s.calls, tickets := s.tickets + 1 }

def trySend (s : Session) (call : Call) : Session :=
  if s.phase = .finished then
    { s.complete call (.notHandedOff call.identity call.correlation .sessionClosed) with
      calls := s.calls.erase call }
  else if s.outboundFrames ≤ s.queue.length then
    { s.complete call (.notHandedOff call.identity call.correlation
        (.outboundQueueFull s.outboundFrames)) with calls := s.calls.erase call }
  else
    { s with
      calls := s.calls.erase call
      queue := s.queue ++ [⟨call, s.generation⟩]
      accepted := s.accepted ++ [⟨call, s.generation⟩] }

/-- The end of `write_frame`. -/
def wrote (s : Session) (call : Call) (outcome : HandoffOutcome) (phase : Phase) : Session :=
  { s.complete call outcome with phase }

/-- Drop the receiver: every frame still queued loses its completion. -/
def dropReceiver (s : Session) : Session :=
  { s with
    returned := s.queue.foldl (fun returned o => Session.answered returned o.call
      (.notHandedOff o.call.identity o.call.correlation .sessionClosed)) s.returned
    queue := []
    discarded := s.discarded ++ s.queue
    phase := .finished }

/-- One atomic step of a caller or of the driver. The write of a frame counts
from the moment `sink.send` is entered. The detail of a spent budget is the
`Debug` text of its reason. -/
def step (s : Session) : Action → Option Session
  | .handOff frame correlation => if s.abandoned then none else handOff s frame correlation true
  | .enqueue frame => if s.abandoned then none else handOff s frame 0 false
  | .trySend call => if call ∈ s.calls then trySend s call else none
  | .timesOut call =>
    if s.accepted.any (fun o => o.call = call) then
      s.complete call (.ambiguous call.identity call.correlation .writeTimeout)
    else none
  | .close =>
    if s.abandoned then none
    else some { s with closed := true, closeRequested := s.closeRequested || !s.closed }
  | .closeRouter => if s.closed then s.moved shut else none
  | .abandon => if s.calls = [] then some { s with abandoned := true } else none
  | .othersMint =>
    if s.generations + 1 < 2 ^ 64 then some { s with generations := s.generations + 1 } else none
  | .recv =>
    match s.phase, s.queue with
    | .pumping socket, pending :: rest =>
      some { s with
        phase := .writing socket pending s.identity
        queue := rest
        written := s.written ++ [(socket, pending)] }
    | _, _ => none
  | .writeDone =>
    match s.phase with
    | .writing socket pending identity =>
      wrote s pending.call (.handedOff identity pending.call.correlation) (.pumping socket)
    | _ => none
  | .writeFails detail =>
    match s.phase with
    | .writing _ pending identity =>
      wrote s pending.call
        (.ambiguous identity pending.call.correlation (.flushUnconfirmed detail))
        (.draining s.identity (.disconnected detail))
    | _ => none
  | .writeTimesOut =>
    match s.phase with
    | .writing _ pending identity =>
      wrote s pending.call (.ambiguous identity pending.call.correlation .writeTimeout)
        (.draining s.identity (.disconnected
          (BoundedText.new "write deadline expired with bytes in the socket")))
    | _ => none
  | .socketEnds reason =>
    match s.phase with
    | .pumping _ => some { s with phase := .draining s.identity reason }
    | _ => none
  | .challenge challenge =>
    match s.phase with
    | .pumping _ => s.moved (challenged challenge)
    | _ => none
  | .hearsClose =>
    match s.phase with
    | .pumping socket =>
      if s.closeRequested ∨ (s.abandoned ∧ s.queue = []) then
        some { s with closed := true, closeRequested := false, phase := .closing socket }
      else none
    | _ => none
  | .closeDone inTime =>
    match s.phase with
    | .closing _ =>
      some { s with phase := .draining s.identity (if inTime then .sessionClosed
        else .disconnected (BoundedText.new "close deadline expired; session dropped")) }
    | _ => none
  | .drains =>
    match s.phase, s.queue with
    | .draining identity reason, pending :: rest =>
      let s := s.complete pending.call (.notHandedOff identity pending.call.correlation reason)
      some { s with queue := rest, discarded := s.discarded ++ [pending] }
    | .draining _ _, [] => some { s with phase := .drained }
    | _, _ => none
  | .checksClosed =>
    if s.phase = .drained then
      some { s with phase := if s.closed then .stopping else .minting }
    else none
  | .mints =>
    if s.phase = .minting then
      if s.generations + 1 < 2 ^ 64 then
        some { s with
          generations := s.generations + 1
          phase := .sleeping (s.generations + 1) 1 }
      else some { s with phase := .givingUp 0 .generationExhausted }
    else none
  | .wakes =>
    match s.phase with
    | .sleeping minted attempt =>
      some { s with phase := if s.closed then .givingUp attempt .sessionClosed
        else .dialling minted attempt }
    | _ => none
  | .dials failure =>
    match s.phase, failure with
    | .dialling minted _, none => some { s with phase := .established minted }
    | .dialling minted attempt, some reason =>
      some { s with phase := if attempt < s.budget then .sleeping minted (attempt + 1)
        else .givingUp s.budget reason }
    | _, _ => none
  | .advances =>
    match s.phase with
    | .established socket => some { s with generation := socket, phase := .advanced socket }
    | _ => none
  | .moves =>
    match s.phase with
    | .advanced socket => some { s.moved (replaced s.identity) with phase := .pumping socket }
    | _ => none
  | .givesUp detail =>
    match s.phase with
    | .givingUp attempts _ =>
      some { { s with closed := true }.moved (exhausted attempts detail) with phase := .stopping }
    | _ => none
  | .stops =>
    if s.phase = .stopping then
      some { { s with closed := true }.moved shut with phase := .routerClosed }
    else none
  | .finishes => if s.phase = .routerClosed then some (dropReceiver s) else none

/-- What each action does, where it is enabled. -/
inductive Stepped (s : Session) : Action → Session → Prop
  | handOff {frame : String} {correlation : Nat} (live : ¬s.abandoned = true) :
      Stepped s (.handOff frame correlation) (handOff s frame correlation true)
  | enqueue {frame : String} (live : ¬s.abandoned = true) :
      Stepped s (.enqueue frame) (handOff s frame 0 false)
  | trySend {call : Call} (member : call ∈ s.calls) : Stepped s (.trySend call) (trySend s call)
  | timesOut {call : Call} (accepted : (s.accepted.any fun o => o.call = call) = true) :
      Stepped s (.timesOut call)
        (s.complete call (.ambiguous call.identity call.correlation .writeTimeout))
  | close (live : ¬s.abandoned = true) : Stepped s .close
      { s with closed := true, closeRequested := s.closeRequested || !s.closed }
  | closeRouter (closed : s.closed = true) : Stepped s .closeRouter (s.moved shut)
  | abandon (idle : s.calls = []) : Stepped s .abandon { s with abandoned := true }
  | othersMint (room : s.generations + 1 < 2 ^ 64) :
      Stepped s .othersMint { s with generations := s.generations + 1 }
  | recv {socket : Nat} {pending : Outbound} {rest : List Outbound}
      (phase : s.phase = .pumping socket) (queue : s.queue = pending :: rest) : Stepped s .recv
        { s with
          phase := .writing socket pending s.identity
          queue := rest
          written := s.written ++ [(socket, pending)] }
  | writeDone {socket : Nat} {pending : Outbound} {identity : RelaySessionIdentity}
      (phase : s.phase = .writing socket pending identity) : Stepped s .writeDone
        (wrote s pending.call (.handedOff identity pending.call.correlation) (.pumping socket))
  | writeFails {detail : BoundedText} {socket : Nat} {pending : Outbound}
      {identity : RelaySessionIdentity} (phase : s.phase = .writing socket pending identity) :
      Stepped s (.writeFails detail) (wrote s pending.call
        (.ambiguous identity pending.call.correlation (.flushUnconfirmed detail))
        (.draining s.identity (.disconnected detail)))
  | writeTimesOut {socket : Nat} {pending : Outbound} {identity : RelaySessionIdentity}
      (phase : s.phase = .writing socket pending identity) : Stepped s .writeTimesOut
        (wrote s pending.call (.ambiguous identity pending.call.correlation .writeTimeout)
          (.draining s.identity (.disconnected
            (BoundedText.new "write deadline expired with bytes in the socket"))))
  | socketEnds {reason : TransportFailure} {socket : Nat} (phase : s.phase = .pumping socket) :
      Stepped s (.socketEnds reason) { s with phase := .draining s.identity reason }
  | challenge {challenge : String} {socket : Nat} (phase : s.phase = .pumping socket) :
      Stepped s (.challenge challenge) (s.moved (challenged challenge))
  | hearsClose {socket : Nat} (phase : s.phase = .pumping socket)
      (asked : s.closeRequested = true ∨ (s.abandoned = true ∧ s.queue = [])) :
      Stepped s .hearsClose { s with closed := true, closeRequested := false, phase := .closing socket }
  | closeDone {inTime : Bool} {socket : Nat} (phase : s.phase = .closing socket) :
      Stepped s (.closeDone inTime) { s with phase := .draining s.identity (if inTime then
        .sessionClosed else .disconnected (BoundedText.new "close deadline expired; session dropped")) }
  | drains {identity : RelaySessionIdentity} {reason : TransportFailure} {pending : Outbound}
      {rest : List Outbound} (phase : s.phase = .draining identity reason)
      (queue : s.queue = pending :: rest) : Stepped s .drains
        { s.complete pending.call (.notHandedOff identity pending.call.correlation reason) with
          queue := rest, discarded := s.discarded ++ [pending] }
  | drained {identity : RelaySessionIdentity} {reason : TransportFailure}
      (phase : s.phase = .draining identity reason) (queue : s.queue = []) :
      Stepped s .drains { s with phase := .drained }
  | checksClosed (phase : s.phase = .drained) :
      Stepped s .checksClosed { s with phase := if s.closed then .stopping else .minting }
  | mints (phase : s.phase = .minting) (room : s.generations + 1 < 2 ^ 64) : Stepped s .mints
      { s with generations := s.generations + 1, phase := .sleeping (s.generations + 1) 1 }
  | spent (phase : s.phase = .minting) (full : ¬s.generations + 1 < 2 ^ 64) :
      Stepped s .mints { s with phase := .givingUp 0 .generationExhausted }
  | wakes {minted attempt : Nat} (phase : s.phase = .sleeping minted attempt) : Stepped s .wakes
      { s with phase := if s.closed then .givingUp attempt .sessionClosed
        else .dialling minted attempt }
  | connects {minted attempt : Nat} (phase : s.phase = .dialling minted attempt) :
      Stepped s (.dials none) { s with phase := .established minted }
  | misses {reason : TransportFailure} {minted attempt : Nat}
      (phase : s.phase = .dialling minted attempt) : Stepped s (.dials (some reason))
        { s with phase := if attempt < s.budget then .sleeping minted (attempt + 1)
          else .givingUp s.budget reason }
  | advances {socket : Nat} (phase : s.phase = .established socket) :
      Stepped s .advances { s with generation := socket, phase := .advanced socket }
  | moves {socket : Nat} (phase : s.phase = .advanced socket) :
      Stepped s .moves { s.moved (replaced s.identity) with phase := .pumping socket }
  | givesUp {detail : String} {attempts : Nat} {reason : TransportFailure}
      (phase : s.phase = .givingUp attempts reason) : Stepped s (.givesUp detail)
        { { s with closed := true }.moved (exhausted attempts detail) with phase := .stopping }
  | stops (phase : s.phase = .stopping) :
      Stepped s .stops { { s with closed := true }.moved shut with phase := .routerClosed }
  | finishes (phase : s.phase = .routerClosed) : Stepped s .finishes (dropReceiver s)

theorem Stepped.of_step {s t : Session} {a : Action} (stepped : step s a = some t) :
    Stepped s a t := by
  cases a with
  | handOff | enqueue | close =>
    simp only [step, Option.ite_none_left_eq_some, Option.some.injEq] at stepped
    obtain ⟨live, rfl⟩ := stepped
    constructor
    exact live
  | trySend | timesOut | closeRouter | abandon | othersMint | checksClosed | stops | finishes =>
    simp only [step, Option.ite_none_right_eq_some, Option.some.injEq] at stepped
    obtain ⟨enabled, rfl⟩ := stepped
    constructor
    exact enabled
  | recv =>
    simp only [step] at stepped
    split at stepped <;> cases stepped
    rename_i phase queue
    exact .recv phase queue
  | writeDone | writeFails | writeTimesOut | socketEnds | challenge | closeDone | wakes | advances
  | moves | givesUp =>
    simp only [step] at stepped
    split at stepped <;> cases stepped
    rename_i phase
    constructor
    exact phase
  | hearsClose =>
    simp only [step] at stepped
    split at stepped
    · rename_i phase
      rw [Option.ite_none_right_eq_some, Option.some.injEq] at stepped
      obtain ⟨asked, rfl⟩ := stepped
      exact .hearsClose phase asked
    · cases stepped
  | drains =>
    simp only [step] at stepped
    split at stepped <;> cases stepped
    · rename_i phase queue
      exact .drains phase queue
    · rename_i phase queue
      exact .drained phase queue
  | mints =>
    simp only [step, Option.ite_none_right_eq_some] at stepped
    obtain ⟨phase, stepped⟩ := stepped
    split at stepped <;> cases stepped
    · rename_i room
      exact .mints phase room
    · rename_i full
      exact .spent phase full
  | dials =>
    simp only [step] at stepped
    split at stepped <;> cases stepped
    · rename_i phase
      exact .connects phase
    · rename_i phase
      exact .misses phase

/-- The driver switches to a replacement only while its outbound queue is
empty: nothing was queued since the drain of the connection it replaces. -/
def Quiet (s : Session) : Action → Prop
  | .advances => s.queue = []
  | _ => True

/-- Every frame written was queued under the generation it was written on, and
every queued frame still waits, was written on its own generation, or was
answered without being written. -/
structure NoCrossing (s : Session) : Prop where
  own : ∀ w ∈ s.written, w.1 = w.2.queuedAt
  accounted : ∀ o ∈ s.accepted,
    o ∈ s.queue ∨ (o.queuedAt, o) ∈ s.written ∨ o ∈ s.discarded
  unwritten : ∀ o ∈ s.discarded, ∀ socket, (socket, o) ∉ s.written

end Fava.Transport.Driver
