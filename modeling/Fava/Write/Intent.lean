import Fava.Write.Event
import Fava.Relay.Connection

namespace Fava.Write

open Fava.Nostr Fava.Relay

/-- Relay selection for one publication obligation. -/
inductive WriteRouting
  | automatic
  | explicit (relays : List RelayUrl)
deriving DecidableEq

def maxExplicitRelays : Nat := 256

/-- The first relay that stands in the list a second time. -/
def firstRepeat (seen : List RelayUrl) : List RelayUrl → Option RelayUrl
  | [] => none
  | relay :: rest => if relay ∈ seen then some relay else firstRepeat (relay :: seen) rest

namespace WriteRouting

def isExplicit : WriteRouting → Bool
  | .automatic => false
  | .explicit _ => true

def validate : WriteRouting → Except WriteIntentError Unit
  | .automatic => .ok ()
  | .explicit relays =>
    if relays = [] then .error .emptyExplicitRelays
    else if relays.length > maxExplicitRelays then
      .error (.tooManyExplicitRelays relays.length maxExplicitRelays)
    else
      match firstRepeat [] relays with
      | some relay => .error (.duplicateExplicitRelay relay)
      | none => .ok ()

end WriteRouting

/-- The three ways a write comes in: an unsigned body, a protocol-owned edit, or an
event that is already signed. -/
inductive WritePayload
  | event (event : UnsignedEvent)
  | edit (edit : EventEdit) (author : PublicKey)
  | presigned (event : Event)

structure WriteIntent where
  payload : WritePayload
  routing : WriteRouting
  access : Authority

def ensureId (N : Library) (event : UnsignedEvent) : UnsignedEvent :=
  { event with
    id := some (event.id.getD
      (N.computeId event.pubkey event.createdAt event.kind event.tags event.content)) }

def validateEventSize (N : Library) (event : UnsignedEvent) : Except WriteIntentError Unit :=
  if N.jsonLen event > maxEventBytes then .error (.tooLarge (N.jsonLen event) maxEventBytes)
  else .ok ()

/-- Validate one unsigned event and its route at one moment. -/
def WriteIntent.event (N : Library) (now : Timestamp) (event : UnsignedEvent)
    (routing : WriteRouting) : Except WriteIntentError WriteIntent := do
  let event := ensureId N event
  (N.verifyId event).mapError .invalidEvent
  routing.validate
  validateEventSize N event
  if (N.expiration event.tags).any (· ≤ now) then .error .expired
  else .ok ⟨.event event, routing, .unauthenticated⟩

end Fava.Write
