import Fava.Lib.BTree
import Fava.Write.Event

namespace Fava.Routing

open Std Fava.Lib Fava.Nostr Fava.Write

/-- Where the author of a relay list reads, and where the author publishes. -/
structure RelayList where
  author : PublicKey
  readRelays : BTreeSet RelayUrl
  writeRelays : BTreeSet RelayUrl

inductive RelayListError
  | wrongKind (actual : Nat)

def RelayListError.text : RelayListError → String
  | .wrongKind actual => "expected kind 10002, got " ++ toString actual

def relayListKind : Kind := 10002

namespace RelayList

variable (N : Library) {list : RelayList} {relay : RelayUrl} {tag : Tag} {tags : List Tag}
  {event : EventValue}

/-- Whether a relay with this marker is one to read, and whether it is one to publish at. -/
def marked : Option String → Option (Bool × Bool)
  | some "read" => some (true, false)
  | some "write" => some (false, true)
  | none => some (true, true)
  | some _ => none

def addTag (list : RelayList) : Tag → RelayList
  | "r" :: raw :: rest =>
    match N.parseRelay raw, marked rest.head? with
    | some relay, some (read, write) =>
      { list with
        readRelays := if read then list.readRelays.insert relay else list.readRelays
        writeRelays := if write then list.writeRelays.insert relay else list.writeRelays }
    | _, _ => list
  | _ => list

/-- A tag that is no relay, or has a marker of its own, is passed over. -/
def fromEvent (event : EventValue) : Except RelayListError RelayList :=
  if event.kind ≠ relayListKind then .error (.wrongKind event.kind)
  else .ok (event.tags.foldl (addTag N) ⟨event.author, ∅, ∅⟩)

/-- A tag names a relay under one marker, or under none. -/
def names (marker : String) (relay : RelayUrl) : Tag → Bool
  | "r" :: raw :: rest => decide (N.parseRelay raw = some relay) && rest.head?.all (· = marker)
  | _ => false

variable {N}

theorem marked_eq {marker : Option String} {read write : Bool} (h : marked marker = some (read, write)) :
    (read = marker.all (· = "read")) ∧ (write = marker.all (· = "write")) := by
  unfold marked at h
  split at h
  · cases h
    exact ⟨rfl, rfl⟩
  · cases h
    exact ⟨rfl, rfl⟩
  · cases h
    exact ⟨rfl, rfl⟩
  · cases h

theorem marked_eq_none {marker : Option String} (h : marked marker = none) :
    marker.all (· = "read") = false ∧ marker.all (· = "write") = false := by
  unfold marked at h
  split at h
  · cases h
  · cases h
  · cases h
  · rename_i other unread unwritten
    exact ⟨decide_eq_false unread, decide_eq_false unwritten⟩

theorem mem_addTag :
    (relay ∈ (addTag N list tag).readRelays ↔ relay ∈ list.readRelays ∨ names N "read" relay tag = true) ∧
      (relay ∈ (addTag N list tag).writeRelays ↔
        relay ∈ list.writeRelays ∨ names N "write" relay tag = true) := by
  unfold addTag
  split
  · rename_i raw rest
    have named (marker : String) : names N marker relay ("r" :: raw :: rest) =
        (decide (N.parseRelay raw = some relay) && rest.head?.all (· = marker)) := rfl
    rw [named, named]
    cases parsed : N.parseRelay raw with
    | none => simp
    | some other =>
      cases meaning : marked rest.head? with
      | none =>
        obtain ⟨unread, unwritten⟩ := marked_eq_none meaning
        rw [unread, unwritten]
        simp
      | some meant =>
        obtain ⟨read, write⟩ := meant
        obtain ⟨reads, writes⟩ := marked_eq meaning
        rw [← reads, ← writes]
        have turned : other = relay ↔ relay = other := eq_comm
        constructor
        · cases read <;> simp [turned, or_comm]
        · cases write <;> simp [turned, or_comm]
  · rename_i other
    have unnamed (marker : String) : names N marker relay tag = false := by
      unfold names
      split
      · exact absurd rfl (other _ _)
      · rfl
    rw [unnamed, unnamed]
    simp

theorem author_addTag : (addTag N list tag).author = list.author := by
  unfold addTag
  split
  · split <;> rfl
  · rfl

theorem author_addTags : (tags.foldl (addTag N) list).author = list.author := by
  induction tags generalizing list with
  | nil => rfl
  | cons tag tags ih => exact ih.trans author_addTag

theorem mem_addTags :
    (relay ∈ (tags.foldl (addTag N) list).readRelays ↔
        relay ∈ list.readRelays ∨ tags.any (names N "read" relay) = true) ∧
      (relay ∈ (tags.foldl (addTag N) list).writeRelays ↔
        relay ∈ list.writeRelays ∨ tags.any (names N "write" relay) = true) := by
  induction tags generalizing list with
  | nil => simp
  | cons tag tags ih =>
    rw [List.foldl_cons, ih.1, ih.2, mem_addTag.1, mem_addTag.2, List.any_cons, List.any_cons,
      Bool.or_eq_true, Bool.or_eq_true, or_assoc, or_assoc]
    exact ⟨Iff.rfl, Iff.rfl⟩

/-- The list of an event is by its author, and holds the relays that its tags name. -/
theorem fromEvent_eq_ok (h : fromEvent N event = .ok list) :
    event.kind = relayListKind ∧ list.author = event.author ∧
      (∀ relay, relay ∈ list.readRelays ↔ event.tags.any (names N "read" relay) = true) ∧
      ∀ relay, relay ∈ list.writeRelays ↔ event.tags.any (names N "write" relay) = true := by
  unfold fromEvent at h
  split at h
  · cases h
  · rename_i kind
    cases h
    refine ⟨not_not.mp kind, author_addTags, fun relay => ?_, fun relay => ?_⟩
    · rw [mem_addTags.1, or_iff_right ExtTreeSet.not_mem_empty]
    · rw [mem_addTags.2, or_iff_right ExtTreeSet.not_mem_empty]

theorem exists_fromEvent (kind : event.kind = relayListKind) : ∃ list, fromEvent N event = .ok list :=
  ⟨_, if_neg (not_not.mpr kind)⟩

end RelayList

end Fava.Routing
