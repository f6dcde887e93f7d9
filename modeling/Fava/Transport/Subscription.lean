import Fava.Lib.Run
import Fava.Transport.Mailbox

namespace Fava.Transport.Subscription

open Fava.Lib Fava.Relay Fava.Transport

/-- One call of `offer`. The stamp is the call's place in the order in which
calls went through the queue's lock, or were refused because the mailbox was
closed; the code has no such number. -/
structure Offer where
  stamp : Nat
  item : SubscriptionItem
deriving DecidableEq

/-- How far one thread is in `Mailbox::offer`: holding the mailbox, and past
the check of `closed`. -/
inductive Offering
  | none
  | called (item : SubscriptionItem)
  | admitted (item : SubscriptionItem)
deriving DecidableEq

/-- How far `end_connection` is with this mailbox. -/
inductive Ending
  | absent
  | offering (progress : Offering)
  | done
deriving DecidableEq

/-- How far the holder of the handle is in `next`. -/
inductive Reading
  | idle
  | started
  | drained
  | nothingLost
  | waiting
  | released
deriving DecidableEq

inductive Entry
  | dropped (stamp : Nat)
  | refused (stamp : Nat)
  | lost (count : Nat)
  | returned (offer : Offer)
  | ended (reason : SessionEnded)
deriving DecidableEq

/-- One subscription handle, the threads that work on its mailbox, and the
history of what the mailbox dropped and what `next` returned. -/
structure Handle where
  mailbox : Mailbox Offer
  registered : Bool
  deliverer : Offering
  ender : Ending
  reader : Reading
  clock : Nat
  log : List Entry
deriving DecidableEq

def openSubscription (capacity : Nat) : Handle :=
  ⟨Mailbox.new capacity, true, .none, .absent, .idle, 0, []⟩

/-- The locked part of `offer`, with the record of what happened to the item. -/
def pushed (h : Handle) (item : SubscriptionItem) : Handle :=
  { h with
    mailbox := h.mailbox.push ⟨h.clock, item⟩
    clock := h.clock + 1
    log := if h.mailbox.full then h.log ++ [.dropped h.clock] else h.log }

def turnedAway (h : Handle) : Handle :=
  { h with clock := h.clock + 1, log := h.log ++ [.refused h.clock] }

inductive Action
  | deliver (item : SubscriptionItem)
  | delivererChecks
  | delivererPushes
  | endConnection (reason : SessionEnded)
  | enderChecks
  | enderPushes
  | enderCloses
  | release
  | next
  | takes
  | takesDropped
  | checksClosed
  | wakes
deriving DecidableEq

/-- One atomic step of one of the threads. `deliver` and `endConnection` find
the mailbox in the router's table; `release` is the handle's own `close` or
`drop`, after which nobody calls `next`; a waiting reader may always wake. -/
def step (h : Handle) : Action → Option Handle
  | .deliver item =>
    if h.registered ∧ h.deliverer = .none then some { h with deliverer := .called item } else none
  | .delivererChecks =>
    match h.deliverer with
    | .called item =>
      if h.mailbox.closed then some { turnedAway h with deliverer := .none }
      else some { h with deliverer := .admitted item }
    | _ => none
  | .delivererPushes =>
    match h.deliverer with
    | .admitted item => some { pushed h item with deliverer := .none }
    | _ => none
  | .endConnection reason =>
    if h.registered then
      some { h with registered := false, ender := .offering (.called (.ended reason)) }
    else none
  | .enderChecks =>
    match h.ender with
    | .offering (.called item) =>
      if h.mailbox.closed then some { turnedAway h with ender := .offering .none }
      else some { h with ender := .offering (.admitted item) }
    | _ => none
  | .enderPushes =>
    match h.ender with
    | .offering (.admitted item) => some { pushed h item with ender := .offering .none }
    | _ => none
  | .enderCloses =>
    if h.ender = .offering .none then
      some { h with mailbox := h.mailbox.close, ender := .done }
    else none
  | .release =>
    if h.reader = .idle ∨ h.reader = .waiting then
      if h.registered then
        some { h with registered := false, mailbox := h.mailbox.close, reader := .released }
      else some { h with reader := .released }
    else none
  | .next => if h.reader = .idle then some { h with reader := .started } else none
  | .takes =>
    if h.reader = .started then
      match h.mailbox.take with
      | (some offer, mailbox) =>
        some { h with mailbox, reader := .idle, log := h.log ++ [.returned offer] }
      | (none, _) => some { h with reader := .drained }
    else none
  | .takesDropped =>
    if h.reader = .drained then
      match h.mailbox.takeDropped with
      | (0, mailbox) => some { h with mailbox, reader := .nothingLost }
      | (n + 1, mailbox) =>
        some { h with mailbox, reader := .idle, log := h.log ++ [.lost (n + 1)] }
    else none
  | .checksClosed =>
    if h.reader = .nothingLost then
      if h.mailbox.closed then
        some { h with
          reader := .idle
          log := h.log ++ [.ended (.disconnected (BoundedText.new "session closed"))] }
      else some { h with reader := .waiting }
    else none
  | .wakes => if h.reader = .waiting then some { h with reader := .started } else none

/-- The dropped offers no `Lost` report has covered yet, oldest first. A report
of `n` covers the `n` oldest of them. -/
def uncovered (log : List Entry) : List Nat :=
  log.foldl (fun stamps entry =>
    match entry with
    | .dropped stamp => stamps ++ [stamp]
    | .lost count => stamps.drop count
    | _ => stamps) []

def refusals (log : List Entry) : List Nat :=
  log.filterMap fun
    | .refused stamp => some stamp
    | _ => none

/-- Nothing is returned while an offer made before it was dropped or refused and
no report has covered it. -/
def LossFirst (log : List Entry) : Prop :=
  ∀ before offer after, log = before ++ .returned offer :: after →
    ∀ stamp ∈ uncovered before ++ refusals before, ¬ stamp < offer.stamp

/-- An offer goes into the queue only while no loss waits to be reported, and
the count of unreported losses does not wrap. -/
def Timely (h : Handle) : Action → Prop
  | .delivererPushes | .enderPushes =>
    if h.mailbox.full then h.mailbox.dropped + 1 < 2 ^ 64 else h.mailbox.dropped = 0
  | _ => True

end Fava.Transport.Subscription
