import Fava.Relay.Connection

namespace Fava.Transport

open Fava.Nostr Fava.Relay

inductive SessionEnded
  | disconnected (detail : BoundedText)
  | reconnectExhausted (attempts : Nat) (detail : BoundedText)
deriving DecidableEq

inductive SubscriptionItem
  | event (event : Event)
  | endOfStoredEvents
  | closed (reason : BoundedText)
  | lost (dropped : Nat)
  | ended (ended : SessionEnded)
deriving DecidableEq

/-- One handle's bounded queue. A full queue counts what it cannot hold. -/
structure Mailbox (T : Type) where
  capacity : Nat
  items : List T
  dropped : Nat
  closed : Bool
deriving DecidableEq

namespace Mailbox

variable {T : Type}

def new (capacity : Nat) : Mailbox T := ⟨capacity, [], 0, false⟩

def full (m : Mailbox T) : Bool := decide (m.capacity ≤ m.items.length)

/-- The part of `offer` that runs under the queue's lock. The counter is a
`u64` and `fetch_add` wraps. -/
def push (m : Mailbox T) (item : T) : Mailbox T :=
  if m.full then { m with dropped := (m.dropped + 1) % 2 ^ 64 }
  else { m with items := m.items ++ [item] }

def offer (m : Mailbox T) (item : T) : Mailbox T := if m.closed then m else m.push item

def take (m : Mailbox T) : Option T × Mailbox T :=
  match m.items with
  | [] => (none, m)
  | item :: rest => (some item, { m with items := rest })

def takeDropped (m : Mailbox T) : Nat × Mailbox T := (m.dropped, { m with dropped := 0 })

def close (m : Mailbox T) : Mailbox T := { m with closed := true }

end Mailbox

end Fava.Transport
