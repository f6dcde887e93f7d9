import Fava.Transport.Mailbox

namespace Fava.Transport

open Fava.Nostr Fava.Relay

/-- The router's connection watch: whether its sender still exists, and the
last value it carried. -/
structure ConnectionCell where
  sender : Bool
  last : Connection
deriving DecidableEq

namespace ConnectionCell

/-- What a transition to `next` tells the live handles. -/
def ending (was next : Connection) : Option SessionEnded :=
  match next.connectivity with
  | .disconnected detail (some attempts) => some (.reconnectExhausted attempts detail)
  | .disconnected detail none => some (.disconnected detail)
  | _ =>
    if next.identity ≠ was.identity ∧ was.connectivity = .connected then
      some (.disconnected (BoundedText.new "session reconnected"))
    else none

def terminal (connection : Connection) : Bool :=
  match connection.connectivity with
  | .disconnected _ (some _) => true
  | _ => false

/-- `Router::moved`: nothing once the sender is gone, and the terminal state
drops the sender. -/
def moved (cell : ConnectionCell) (next : Connection → Connection) :
    ConnectionCell × Option SessionEnded :=
  if cell.sender then
    let current := next cell.last
    (⟨!terminal current, current⟩, ending cell.last current)
  else (cell, none)

end ConnectionCell

def challenged (challenge : String) (c : Connection) : Connection :=
  { c with authentication := { c.authentication with progress := .requested challenge } }

def replaced (identity : RelaySessionIdentity) (_ : Connection) : Connection :=
  ⟨identity, .connected, .unoffered⟩

def exhausted (attempts : Nat) (detail : String) (c : Connection) : Connection :=
  { c with connectivity := .disconnected (BoundedText.new detail) (some attempts) }

/-- The transition of `close_connection`. -/
def shut (c : Connection) : Connection :=
  if ConnectionCell.terminal c then c
  else { c with connectivity := .disconnected (BoundedText.new "session closed") (some 0) }

end Fava.Transport
