import Fava.Transport.Generation

namespace Fava.Auth

open Fava.Lib Fava.Nostr Fava.Relay Fava.Transport Fava.Transport.Driver

structure AuthenticationDemand where
  session : RelaySessionIdentity
  challenge : String
deriving DecidableEq

inductive Decision
  | authenticate (asOf : PublicKey)
  | decline
  | defer
deriving DecidableEq

/-- What the authenticator writes onto the connection it answered for. -/
inductive Recorded
  | answering (asOf : PublicKey)
  | declined
  | refused (reason : BoundedText)
  | unanswerable (reason : BoundedText)
  | accepted (account : PublicKey)
deriving DecidableEq

def Recorded.authentication (before : Authentication) : Recorded → Authentication
  | .answering asOf => ⟨before.established, .answering asOf⟩
  | .declined => ⟨before.established, .declined⟩
  | .refused reason => ⟨before.established, .refused reason⟩
  | .unanswerable reason => ⟨before.established, .unanswerable reason⟩
  | .accepted account => ⟨some account, .idle⟩

def Recorded.onto (what : Recorded) (c : Connection) : Connection :=
  { c with authentication := what.authentication c.authentication }

inductive Settlement
  | accepted
  | rejected (message : BoundedText)
  | ended
deriving DecidableEq

/-- How far one answer is: deciding, signing, inside `RelaySessionExt::answer`
with the event the signer returned, and recording what came of it, which compares
the identity first and writes second. -/
inductive Stage
  | asked
  | signing (asOf : PublicKey)
  | signed (asOf : PublicKey) (event : Event)
  | takenUp (asOf : PublicKey) (event : Event)
  | handing (asOf : PublicKey)
  | recording (what : Recorded)
  | writing (what : Recorded)
  | awaiting (account : PublicKey)
  | done
deriving DecidableEq

/-- One answer. `taken` is the connection as it stood when the answer was taken
up and `ticket` the hand-off of its frame. -/
structure Answer where
  demand : AuthenticationDemand
  stage : Stage
  taken : Option Connection
  ticket : Option Nat
deriving DecidableEq

/-- The authenticator and one session it answers for. `people` are answers a
person gave whose challenge has not been read yet. -/
structure Owner where
  session : Session
  attempts : List (RelaySessionIdentity × Nat)
  people : List (RelaySessionIdentity × Decision)
  answers : List Answer

def maxAttempts : Nat := 8

def challengeMaxBytes : Nat := 512

/-- `Challenge::new`: the text of the refusal, if it is refused. -/
def challengeError (text : String) : Option String :=
  if text.isEmpty then some "relay challenge was empty"
  else if challengeMaxBytes < text.utf8ByteSize then
    some s!"relay challenge is {text.utf8ByteSize} bytes, maximum {challengeMaxBytes}"
  else none

namespace Owner

def spent (o : Owner) (identity : RelaySessionIdentity) : Nat :=
  ((o.attempts.find? fun e => e.1 = identity).map Prod.snd).getD 0

/-- Count one more answer against the live connection, forgetting those that
were replaced. -/
def spend (o : Owner) (identity : RelaySessionIdentity) : List (RelaySessionIdentity × Nat) :=
  [(identity, min (o.spent identity + 1) (2 ^ 32 - 1))]

def put (o : Owner) (k : Nat) (answer : Answer) : Owner :=
  { o with answers := o.answers.set k answer }

end Owner

def decided : Decision → Stage
  | .authenticate asOf => .signing asOf
  | .decline => .recording .declined
  | .defer => .done

def unanswerable (reason : String) : Stage := .recording (.unanswerable (BoundedText.new reason))

/-- Where a demand starts: refused if its challenge is, else at `stage`. -/
def begin (demand : AuthenticationDemand) (stage : Stage) : Answer :=
  ⟨demand, ((challengeError demand.challenge).map unanswerable).getD stage, none, none⟩

/-- `resolve`, once the policy has decided. -/
def resolved (o : Owner) (answer : Answer) (decision : Decision) : Stage :=
  if maxAttempts ≤ o.spent answer.demand.session then
    unanswerable s!"relay re-challenged past the {maxAttempts} attempt bound"
  else decided decision

/-- After `record` returns, whether it wrote or not. -/
def recordedThen : Recorded → Stage
  | .answering asOf => .awaiting asOf
  | _ => .done

def settled (account : PublicKey) : Settlement → Stage
  | .accepted => .recording (.accepted account)
  | .rejected message => .recording (.refused message)
  | .ended => .done

inductive Action
  | session (action : Driver.Action)
  | asked
  | finds (connection : RelaySessionIdentity) (decision : Decision)
  | reads (connection : RelaySessionIdentity) (decision : Decision)
  | decides (k : Nat) (decision : Decision)
  | signs (k : Nat) (returned : Except String Event)
  | takesUp (k : Nat) (detail : String)
  | handsOff (k : Nat) (frame : Option String) (detail : String)
  | returns (k : Nat) (detail : String)
  | compares (k : Nat)
  | writes (k : Nat)
  | settles (k : Nat) (settlement : Settlement)

/-- `RelaySessionExt::answer` up to the hand-off: the answer is taken up if the
connection has any challenge in front of it, as the author of the event, whoever
was asked to sign it. -/
def takeUp (o : Owner) (k : Nat) (answer : Answer) (asOf : PublicKey) (event : Event)
    (detail : String) : Owner :=
  match o.session.cell.sender, o.session.cell.last.authentication.progress with
  | true, .requested _ =>
    { o.put k { answer with stage := .takenUp asOf event, taken := some o.session.cell.last } with
      session := o.session.moved (Recorded.onto (.answering event.pubkey)) }
  | _, _ => o.put k { answer with stage := unanswerable detail }

/-- What `hand_off` returned for the answer's frame. -/
def returnedStage (asOf : PublicKey) (detail : String) : HandoffOutcome → Stage
  | .handedOff _ _ => .recording (.answering asOf)
  | _ => unanswerable detail

/-- The identity check of `record` and `record_accepted`, and the count `record`
keeps of the answers sent. -/
def compare (o : Owner) (k : Nat) (answer : Answer) (what : Recorded) : Owner :=
  if o.session.identity = answer.demand.session then
    { o.put k { answer with stage := .writing what } with
      attempts := match what with
        | .answering _ => o.spend answer.demand.session
        | _ => o.attempts }
  else o.put k { answer with stage := recordedThen what }

/-- One atomic step of the session or of one of the answers. The details are
`Debug` texts of refusals. -/
def step (o : Owner) : Action → Option Owner
  | .session action => (Driver.step o.session action).map fun session => { o with session }
  | .asked =>
    match o.session.cell.last.authentication.progress with
    | .requested challenge =>
      let demand := ⟨o.session.cell.last.identity, challenge⟩
      some { o with answers := o.answers ++ [begin demand .asked] }
    | _ => none
  | .finds connection decision =>
    match o.session.cell.last.authentication.progress with
    | .requested _ =>
      if o.session.identity = connection ∧ decision ≠ .defer then
        some { o with people := (connection, decision) :: o.people }
      else none
    | _ => none
  | .reads connection decision =>
    if (connection, decision) ∈ o.people then
      let people := o.people.erase (connection, decision)
      match o.session.cell.last.authentication.progress with
      | .requested challenge =>
        some { o with
          people
          answers := o.answers ++ [begin ⟨connection, challenge⟩ (decided decision)] }
      | _ => some { o with people }
    else none
  | .decides k decision => do
    let answer ← o.answers[k]?
    match answer.stage with
    | .asked => some (o.put k { answer with stage := resolved o answer decision })
    | _ => none
  | .signs k returned => do
    let answer ← o.answers[k]?
    match answer.stage, returned with
    | .signing asOf, .ok event => some (o.put k { answer with stage := .signed asOf event })
    | .signing _, .error reason => some (o.put k { answer with stage := unanswerable reason })
    | _, _ => none
  | .takesUp k detail => do
    let answer ← o.answers[k]?
    match answer.stage with
    | .signed asOf event => some (takeUp o k answer asOf event detail)
    | _ => none
  | .handsOff k frame detail => do
    let answer ← o.answers[k]?
    match answer.stage, frame with
    | .takenUp asOf _, some frame =>
      some { o.put k { answer with stage := .handing asOf, ticket := some o.session.tickets } with
        session := handOff o.session frame 0 true }
    | .takenUp .., none => some (o.put k { answer with stage := unanswerable detail })
    | _, _ => none
  | .returns k detail => do
    let answer ← o.answers[k]?
    let ticket ← answer.ticket
    let outcome ← o.session.returned.find? fun r => r.1 = ticket
    match answer.stage with
    | .handing asOf => some (o.put k { answer with stage := returnedStage asOf detail outcome.2 })
    | _ => none
  | .compares k => do
    let answer ← o.answers[k]?
    match answer.stage with
    | .recording what => some (compare o k answer what)
    | _ => none
  | .writes k => do
    let answer ← o.answers[k]?
    match answer.stage with
    | .writing what =>
      some { o.put k { answer with stage := recordedThen what } with
        session := o.session.moved what.onto }
    | _ => none
  | .settles k settlement => do
    let answer ← o.answers[k]?
    match answer.stage with
    | .awaiting account => some (o.put k { answer with stage := settled account settlement })
    | _ => none

end Fava.Auth
