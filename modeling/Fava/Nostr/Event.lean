import Mathlib.Data.List.Basic

namespace Fava.Nostr

abbrev EventId := Nat
abbrev PublicKey := Nat
abbrev Timestamp := Nat
abbrev Kind := Nat
abbrev RelayUrl := String
abbrev Tag := List String

/-- An event template before it is signed. Identifiers, keys and signatures are
opaque numbers: the code compares them and never looks inside. -/
structure UnsignedEvent where
  id : Option EventId
  pubkey : PublicKey
  createdAt : Timestamp
  kind : Kind
  tags : List Tag
  content : String
deriving DecidableEq

structure Event where
  id : EventId
  pubkey : PublicKey
  createdAt : Timestamp
  kind : Kind
  tags : List Tag
  content : String
  sig : Nat
deriving DecidableEq

end Fava.Nostr
