import Mathlib.Algebra.GroupWithZero.Nat
import Fava.Nostr.Event
import Fava.Lib.Fallible
import Fava.Lib.BTree

namespace Fava.Write

open Std Fava.Lib Fava.Nostr

/-- What is used of the Nostr library: identifiers and signatures, the length of an
event's JSON, and the forms of keys, identifiers and relay addresses. An event that
carries its own identifier verifies, and the kinds of lists are replaceable. -/
structure Library where
  computeId : PublicKey → Timestamp → Kind → List Tag → String → EventId
  verify : Event → Except String Unit
  verifyId : UnsignedEvent → Except String Unit
  jsonLen : UnsignedEvent → Nat
  expiration : List Tag → Option Timestamp
  isReplaceable : Kind → Bool
  isAddressable : Kind → Bool
  keyFromSlice : List UInt8 → Option PublicKey
  keyFromHex : String → Option PublicKey
  keyToHex : PublicKey → String
  keyDebug : PublicKey → String
  idFromSlice : List UInt8 → Option EventId
  idFromHex : String → Option EventId
  idToHex : EventId → String
  idDebug : EventId → String
  parseRelay : String → Option RelayUrl
  verifyId_ok : ∀ e : UnsignedEvent,
    e.id = some (computeId e.pubkey e.createdAt e.kind e.tags e.content) → verifyId e = .ok ()
  isReplaceable_list : ∀ k, k = 3 ∨ 10000 ≤ k ∧ k < 20000 → isReplaceable k = true
  isAddressable_iff : ∀ k, isAddressable k = true ↔ 30000 ≤ k ∧ k < 40000

def inAddressableRange (kind : Kind) : Bool := 30000 ≤ kind && kind < 40000

inductive WriteIntentError
  | emptyExplicitRelays
  | tooManyExplicitRelays (actual maximum : Nat)
  | duplicateExplicitRelay (relay : RelayUrl)
  | invalidEvent (reason : String)
  | expired
  | tooManyTags (actual maximum : Nat)
  | tooLarge (bytes maximum : Nat)
  | encoding (reason : String)

def WriteIntentError.text : WriteIntentError → String
  | .emptyExplicitRelays => "explicit publication requires at least one relay"
  | .tooManyExplicitRelays actual maximum =>
    s!"explicit relay count exceeds bound: {actual} > {maximum}"
  | .duplicateExplicitRelay relay => s!"explicit publication route repeats relay identity {relay}"
  | .invalidEvent reason => s!"event verification failed: {reason}"
  | .expired => "event is already expired"
  | .tooManyTags actual maximum => s!"event tags exceed bound: {actual} > {maximum}"
  | .tooLarge bytes maximum => s!"event bytes exceed bound: {bytes} > {maximum}"
  | .encoding reason => s!"event encoding failed: {reason}"

/-- One event, signed or not. -/
inductive EventValue
  | unsigned (event : UnsignedEvent)
  | signed (event : Event)
deriving DecidableEq

namespace EventValue

def id : EventValue → Option EventId
  | .unsigned event => event.id
  | .signed event => some event.id

def author : EventValue → PublicKey
  | .unsigned event => event.pubkey
  | .signed event => event.pubkey

def kind : EventValue → Kind
  | .unsigned event => event.kind
  | .signed event => event.kind

def createdAt : EventValue → Timestamp
  | .unsigned event => event.createdAt
  | .signed event => event.createdAt

def tags : EventValue → List Tag
  | .unsigned event => event.tags
  | .signed event => event.tags

def content : EventValue → String
  | .unsigned event => event.content
  | .signed event => event.content

/-- Check the identifier, and the signature when there is one. -/
def verify (N : Library) : EventValue → Except WriteIntentError Unit
  | .unsigned event => (N.verifyId event).mapError .invalidEvent
  | .signed event => (N.verify event).mapError .invalidEvent

end EventValue

/-- The state a coordinate names: one event, or the newest of a replaceable kind. -/
inductive EventCoordinate
  | event (id : EventId)
  | replaceable (author : PublicKey) (kind : Kind) (identifier : Option String)
deriving DecidableEq

namespace EventCoordinate

def rank : EventCoordinate → Nat
  | .event _ => 0
  | .replaceable _ _ _ => 1

def subject : EventCoordinate → Nat
  | .event id => id
  | .replaceable author _ _ => author

def kind : EventCoordinate → Kind
  | .event _ => 0
  | .replaceable _ kind _ => kind

def identifier : EventCoordinate → Option String
  | .event _ => none
  | .replaceable _ _ identifier => identifier

/-- Single events come first; the rest is ordered field by field. -/
instance : Ord EventCoordinate :=
  ⟨compareLex (compareOn rank) (compareLex (compareOn subject)
    (compareLex (compareOn kind) (compareOn identifier)))⟩

instance : TransOrd EventCoordinate :=
  inferInstanceAs (TransCmp (compareLex (compareOn rank) (compareLex (compareOn subject)
    (compareLex (compareOn kind) (compareOn identifier)))))

instance : LawfulEqOrd EventCoordinate where
  compare_self := ReflOrd.compare_self
  eq_of_compare := by
    intro a b h
    obtain ⟨rank, h⟩ := Ordering.then_eq_eq.mp h
    obtain ⟨subject, h⟩ := Ordering.then_eq_eq.mp h
    obtain ⟨kind, identifier⟩ := Ordering.then_eq_eq.mp h
    cases a <;> cases b <;>
      simp_all [compareOn, EventCoordinate.rank, EventCoordinate.subject, EventCoordinate.kind,
        EventCoordinate.identifier]

end EventCoordinate

def eventCoordinate (N : Library) (id : EventId) (author : PublicKey) (kind : Kind)
    (tags : List Tag) : EventCoordinate :=
  if inAddressableRange kind then
    let identifier := tags.findSome? fun tag =>
      if tag.head? = some "d" then some (tag[1]?.getD "") else none
    .replaceable author kind (some (identifier.getD ""))
  else if N.isReplaceable kind then .replaceable author kind none
  else .event id

def eventIsNewer (candidate current : Timestamp × EventId) : Bool :=
  candidate.1 > current.1 || (candidate.1 = current.1 && candidate.2 < current.2)

theorem eventIsNewer_trans {a b c : Timestamp × EventId} (first : eventIsNewer a b = true)
    (second : eventIsNewer b c = true) : eventIsNewer a c = true := by
  simp only [eventIsNewer, Bool.or_eq_true, Bool.and_eq_true, decide_eq_true_eq] at first second ⊢
  obtain later | ⟨same, smaller⟩ := first <;> obtain later' | ⟨same', smaller'⟩ := second
  · exact .inl (Nat.lt_trans later' later)
  · exact .inl (same' ▸ later)
  · exact .inl (same ▸ later')
  · exact .inr ⟨same.trans same', Nat.lt_trans smaller smaller'⟩

theorem eventIsNewer_irrefl {a : Timestamp × EventId} : eventIsNewer a a = false := by
  simp only [eventIsNewer, gt_iff_lt, Nat.lt_irrefl, decide_false, Bool.and_false, Bool.or_false]

/-- A protocol-owned change to one replaceable event. -/
structure EventEdit where
  kind : Kind
  identifier : Option String
  change : List UInt8
deriving DecidableEq

def editCoordinate (edit : EventEdit) (author : PublicKey) : EventCoordinate :=
  .replaceable author edit.kind edit.identifier

def maxTags : Nat := 2000

def maxEventBytes : Nat := 131072

namespace EventEdit

def validateCoordinate (N : Library) (kind : Kind) (identifier : Option String) :
    Except WriteIntentError Unit :=
  match identifier with
  | none =>
    if N.isReplaceable kind then .ok ()
    else .error (.invalidEvent "replaceable-event edit kind requires an addressable identifier")
  | some _ =>
    if N.isAddressable kind then .ok ()
    else .error (.invalidEvent "replaceable-event edit identifier requires an addressable kind")

def validateBytes (value : List UInt8) : Except WriteIntentError Unit :=
  if value.length > maxEventBytes then .error (.tooLarge value.length maxEventBytes) else .ok ()

def new (N : Library) (kind : Kind) (identifier : Option String) (change : List UInt8) :
    Except WriteIntentError EventEdit := do
  validateCoordinate N kind identifier
  validateBytes change
  .ok ⟨kind, identifier, change⟩

end EventEdit

/-- Build one unsigned event under the bounds every event meets. -/
def buildEvent (N : Library) (author : PublicKey) (kind : Kind) (createdAt : Timestamp)
    (tags : List Tag) (content : String) : Except WriteIntentError UnsignedEvent :=
  if tags.length > maxTags then .error (.tooManyTags tags.length maxTags)
  else
    let event : UnsignedEvent :=
      ⟨some (N.computeId author createdAt kind tags content), author, createdAt, kind, tags, content⟩
    if N.jsonLen event > maxEventBytes then .error (.tooLarge (N.jsonLen event) maxEventBytes)
    else .ok event

/-- Construct one tag: only an empty one is refused. -/
def parseTag (values : List String) : Option Tag := if values = [] then none else some values

/-- An unsigned number in big-endian bytes. -/
def ofBigEndian (bytes : List UInt8) : Nat := bytes.foldl (fun n b => n * 256 + b.toNat) 0

def fromUtf8 (bytes : List UInt8) : Option String := String.fromUTF8? ⟨bytes.toArray⟩

/-- A pure provider of one kind's edits. -/
structure EditApplier where
  kind : Kind
  supports : EventEdit → Bool
  apply : EventEdit → PublicKey → Option EventValue → Timestamp →
    Except WriteIntentError UnsignedEvent

/-- The content and tags an edit starts from. -/
def sourceContent (source : Option EventValue) : String := (source.map EventValue.content).getD ""

def sourceTags (source : Option EventValue) : List Tag := (source.map EventValue.tags).getD []

/-- What an applier of one list does: a supported edit of its coordinate changes the
tags of a qualified earlier source by `transform` and keeps the content; a source that
is not earlier is refused. -/
structure Rebases (N : Library) (applier : EditApplier)
    (transform : EventEdit → List Tag → Except WriteIntentError (List Tag))
    (Fits : EventValue → Prop) : Prop where
  list : applier.kind = 3 ∨ 10000 ≤ applier.kind ∧ applier.kind < 20000
  coordinate : ∀ edit, applier.supports edit = true →
    edit.kind = applier.kind ∧ edit.identifier = none
  total : ∀ edit tags, applier.supports edit = true → ∃ tags', transform edit tags = .ok tags'
  refuses : ∀ edit author source createdAt event, createdAt ≤ source.createdAt →
    applier.apply edit author (some source) createdAt ≠ .ok event
  applies : ∀ edit author source createdAt tags event, applier.supports edit = true →
    (∀ s, source = some s → Fits s ∧ s.verify N = .ok () ∧ s.author = author ∧
      s.kind = applier.kind ∧ s.createdAt < createdAt) →
    transform edit (sourceTags source) = .ok tags →
    buildEvent N author applier.kind createdAt tags (sourceContent source) = .ok event →
    applier.apply edit author source createdAt = .ok event

variable {N : Library} {author : PublicKey} {kind : Kind} {createdAt : Timestamp} {tags : List Tag}
  {content : String} {event : UnsignedEvent}

/-- A built event has what it was built from and its own identifier. -/
theorem buildEvent_eq_ok (h : buildEvent N author kind createdAt tags content = .ok event) :
    event = ⟨some (N.computeId author createdAt kind tags content), author, createdAt, kind, tags,
      content⟩ := by
  unfold buildEvent at h
  split at h
  · cases h
  · dsimp only at h
    split at h
    · cases h
    · exact (Except.ok.inj h).symm

theorem verifyId_of_buildEvent
    (h : buildEvent N author kind createdAt tags content = .ok event) :
    N.verifyId event = .ok () := by
  rw [buildEvent_eq_ok h]
  exact N.verifyId_ok _ rfl

section Plain

def hexDigit (n : Nat) : Char := Char.ofNat (if n < 10 then 48 + n else 87 + n)

/-- The lowest `width` hexadecimal digits of a number. -/
def toHex : Nat → Nat → List Char
  | 0, _ => []
  | width + 1, n => toHex width (n / 16) ++ [hexDigit (n % 16)]

def fromHexDigit (c : Char) : Option Nat :=
  if 48 ≤ c.toNat ∧ c.toNat ≤ 57 then some (c.toNat - 48)
  else if 97 ≤ c.toNat ∧ c.toNat ≤ 102 then some (c.toNat - 87)
  else none

def fromHex (text : String) : Option Nat :=
  if text.length = 64 then
    text.toList.foldlM (fun n c => (fromHexDigit c).map (n * 16 + ·)) 0
  else none

def fromSlice (bytes : List UInt8) : Option Nat :=
  if bytes.length = 32 then some (ofBigEndian bytes) else none

/-- The length of a list's JSON from the lengths of its items. -/
def jsonListLen (items : List Nat) : Nat := 2 + items.sum + (items.length - 1)

/-- A library whose identifiers are sums instead of hashes. -/
def plainLibrary : Library where
  computeId author createdAt kind tags content :=
    author + createdAt + kind + (tags.flatten.map String.length).sum + content.length
  verify event :=
    if event.id = event.pubkey + event.createdAt + event.kind +
        (event.tags.flatten.map String.length).sum + event.content.length then .ok ()
    else .error "invalid event id"
  verifyId event :=
    if event.id.all (· = event.pubkey + event.createdAt + event.kind +
        (event.tags.flatten.map String.length).sum + event.content.length) then .ok ()
    else .error "invalid event id"
  jsonLen event := 190 + (toString event.createdAt).length + (toString event.kind).length +
    jsonListLen (event.tags.map fun tag => jsonListLen (tag.map (String.length · + 2))) +
    (event.content.length + 2)
  expiration tags := tags.findSome? fun tag =>
    if tag.head? = some "expiration" then tag[1]?.bind String.toNat? else none
  isReplaceable kind := kind = 0 || kind = 3 || kind = 41 || (10000 ≤ kind && kind < 20000)
  isAddressable kind := 30000 ≤ kind && kind < 40000
  keyFromSlice := fromSlice
  keyFromHex := fromHex
  keyToHex key := String.ofList (toHex 64 key)
  keyDebug key := "PublicKey(" ++ String.ofList (toHex 64 key) ++ ")"
  idFromSlice := fromSlice
  idFromHex := fromHex
  idToHex id := String.ofList (toHex 64 id)
  idDebug id := "EventId(" ++ String.ofList (toHex 64 id) ++ ")"
  parseRelay text := if text.startsWith "wss://" then some text else none
  verifyId_ok event own := by simp [own]
  isReplaceable_list kind list := by
    obtain rfl | range := list
    · decide
    · simp [range]
  isAddressable_iff kind := by simp

end Plain

end Fava.Write
