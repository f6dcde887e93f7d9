import Fava.Auth.Progress
import Fava.Transport.Definite

namespace Fava.Auth

open Fava.Lib Fava.Nostr Fava.Relay Fava.Transport Fava.Transport.Driver

/-- The mailbox an answer awaits its verdict in: the event it is registered for,
and the settlement in it, of which it holds one. -/
structure Acknowledgement where
  event : EventId
  settlement : Option Settlement

/-- An `AUTH` frame that was handed off, with the event it encodes. -/
structure SentAuth where
  ticket : Nat
  event : Event

/-- The authenticator with the acknowledgements of its answers, the `AUTH` frames
handed off so far and every `OK` with status true the relay sent on a connection. -/
structure Verdicts where
  owner : Owner
  acknowledgements : Nat → Option Acknowledgement
  sent : List SentAuth
  accepted : List (RelaySessionIdentity × EventId)

/-- An acceptance past its identity check. -/
def Stage.verdict : Stage → Bool
  | .writing (.accepted _) => true
  | _ => false

/-- Whom a signer is being asked to sign for. -/
def Stage.signer : Stage → Option PublicKey
  | .signing asOf => some asOf
  | _ => none

/-- The event `RelaySessionExt::answer` has taken up. -/
def Stage.takenUpEvent : Stage → Option Event
  | .takenUp _ event => some event
  | _ => none

/-- `Mailbox::offer` with a capacity of one. -/
def Acknowledgement.offer (settlement : Settlement) (m : Acknowledgement) : Acknowledgement :=
  { m with settlement := m.settlement.or (some settlement) }

namespace Verdicts

variable {b c : Verdicts} {k : Nat}

def attached (session : Session) : Verdicts := ⟨Auth.attached session, fun _ => none, [], []⟩

/-- `RelaySessionExt::answer` registers a mailbox before it hands the frame off;
the relay may send an `OK` for any event while its socket is read; and an ending
of the connection reaches the mailboxes some time after the state it follows. -/
inductive Action
  | awaits (k : Nat)
  | ok (event : EventId) (status : Bool) (message : BoundedText)
  | ended (reason : SessionEnded)
  | auth (action : Auth.Action)

def offerAll (b : Verdicts) (settlement : Settlement) (about : Acknowledgement → Bool) :
    Nat → Option Acknowledgement :=
  fun k => (b.acknowledgements k).map fun m => if about m then m.offer settlement else m

/-- `settled` returns what is in the mailbox, and the frame is handed off once
the mailbox is there. -/
def enabled (b : Verdicts) : Auth.Action → Bool
  | .handsOff k (some _) _ => (b.acknowledgements k).isSome
  | .settles k settlement => (b.acknowledgements k).any fun m => m.settlement = some settlement
  | _ => true

def sentAfter (b : Verdicts) : Auth.Action → List SentAuth
  | .handsOff k (some _) _ =>
    match (b.owner.answers[k]?).bind fun x => x.stage.takenUpEvent with
    | some event => ⟨b.owner.session.tickets, event⟩ :: b.sent
    | none => b.sent
  | _ => b.sent

/-- A refused hand-off and a settlement release the mailbox. -/
def releasedAfter (p : Owner) : Auth.Action → Option Nat
  | .handsOff k none _ | .settles k _ => some k
  | .returns k _ =>
    match (p.answers[k]?).map Answer.stage with
    | some (.recording (.answering _)) => none
    | _ => some k
  | _ => none

def release (b : Verdicts) (released : Option Nat) : Nat → Option Acknowledgement :=
  fun k => if released = some k then none else b.acknowledgements k

def step (b : Verdicts) : Action → Option Verdicts
  | .awaits k => do
    let answer ← b.owner.answers[k]?
    match answer.stage, b.acknowledgements k with
    | .takenUp _ event, none => some { b with
        acknowledgements := Function.update b.acknowledgements k (some ⟨event.id, none⟩) }
    | _, _ => none
  | .ok event status message =>
    match b.owner.session.phase with
    | .pumping socket => some { b with
        acknowledgements := b.offerAll (if status then .accepted else .rejected message)
          fun m => m.event = event
        accepted := if status then (⟨b.owner.session.relay, socket⟩, event) :: b.accepted
          else b.accepted }
    | _ => none
  | .ended reason =>
    if reason ∈ b.owner.session.endings then
      some { b with acknowledgements := b.offerAll .ended fun _ => true }
    else none
  | .auth a =>
    if b.enabled a then
      (Auth.step b.owner a).map fun owner => { b with
        owner
        acknowledgements := b.release (releasedAfter owner a)
        sent := b.sentAfter a }
    else none

def connection (b : Verdicts) : Connection := b.owner.session.cell.last

/-- On this connection an `AUTH` signed by the account was written, and the relay
said `OK` to it there. -/
def Proven (b : Verdicts) (identity : RelaySessionIdentity) (account : PublicKey) : Prop :=
  ∃ m ∈ b.sent, m.event.pubkey = account ∧ (identity, m.event.id) ∈ b.accepted ∧
    ∃ w ∈ b.owner.session.written, w.2.call.ticket = m.ticket ∧
      identity = ⟨b.owner.session.relay, w.1⟩

/-- What the connection says is established was proved on that connection, and it
stays established as long as the connection does. -/
structure Sound (b : Verdicts) : Prop where
  proven : ∀ account, b.connection.authentication.established = some account →
    b.Proven b.connection.identity account
  kept : ∀ a c, step b a = some c → c.connection.identity = b.connection.identity →
    b.connection.authentication.established.isSome →
      c.connection.authentication.established.isSome

/-- A step that resets the connection's state. -/
def resets (b : Verdicts) : Action → Bool
  | .auth (.session .moves) => b.owner.session.cell.sender
  | _ => false

/-- The driver resets a connection only while no acceptance is about to be
written, past its identity check. -/
def Undivided (b : Verdicts) (a : Action) : Prop :=
  b.resets a = true → ∀ x ∈ b.owner.answers, x.stage.verdict = false

/-- A signer returns an event by the account it was asked to sign for. -/
def Genuine (b : Verdicts) : Action → Prop
  | .auth (.signs k (.ok event)) =>
    ∀ x ∈ b.owner.answers[k]?, ∀ asOf ∈ x.stage.signer, event.pubkey = asOf
  | _ => True

/-- No reset divides a verdict from its write, and signers sign for themselves. -/
def Faithful (b : Verdicts) (a : Action) : Prop := Undivided b a ∧ Genuine b a

instance (b : Verdicts) (a : Action) : Decidable (Undivided b a) :=
  inferInstanceAs (Decidable (_ → _))

instance (b : Verdicts) (a : Action) : Decidable (Genuine b a) := by
  unfold Genuine
  split <;> infer_instance

instance (b : Verdicts) (a : Action) : Decidable (Faithful b a) :=
  inferInstanceAs (Decidable (_ ∧ _))

end Verdicts

end Fava.Auth
