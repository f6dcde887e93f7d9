import Fava.Lib.Text
import Fava.Nostr.Event

namespace Fava.Relay

open Fava.Nostr

/-- Relay- or OS-supplied text retained under a byte bound. -/
structure BoundedText where
  text : String
  truncatedBytes : Nat
deriving DecidableEq

def BoundedText.maxBytes : Nat := 512

/-- The longest prefix of whole characters that fits in `n` bytes. -/
def charBoundary : Nat → List Char → List Char
  | _, [] => []
  | n, c :: cs => if c.utf8Size ≤ n then c :: charBoundary (n - c.utf8Size) cs else []

def BoundedText.new (text : String) : BoundedText :=
  let kept := String.ofList (charBoundary BoundedText.maxBytes text.toList)
  ⟨kept, text.utf8ByteSize - kept.utf8ByteSize⟩

inductive Connectivity
  | disconnected (detail : BoundedText) (spent : Option Nat)
  | connecting
  | connected
deriving DecidableEq

/-- How the challenge in front of one connection is going. -/
inductive Progress
  | idle
  | requested (challenge : String)
  | answering (asOf : PublicKey)
  | declined
  | refused (reason : BoundedText)
  | unanswerable (reason : BoundedText)
deriving DecidableEq

structure Authentication where
  established : Option PublicKey
  progress : Progress
deriving DecidableEq

def Authentication.unoffered : Authentication := ⟨none, .idle⟩

/-- What a piece of work needs the relay to know about who is asking. -/
inductive Authority
  | unauthenticated
  | asAccount (key : PublicKey)
deriving DecidableEq

def Authentication.canServe (a : Authentication) : Authority → Bool
  | .unauthenticated => a.established.isNone
  | .asAccount want =>
    match a.established, a.progress with
    | some established, _ => established = want
    | none, .answering asOf => asOf = want
    | none, _ => true

structure RelaySessionIdentity where
  relay : RelayUrl
  connection : Nat
deriving DecidableEq

structure Connection where
  identity : RelaySessionIdentity
  connectivity : Connectivity
  authentication : Authentication
deriving DecidableEq

end Fava.Relay
