import Fava.Relay.Connection
import Fava.Write.Event

namespace Fava.State

open Fava.Nostr Fava.Relay Fava.Write

/-- One admitted occurrence under one logical relay identity. -/
structure RelayOccurrence where
  session : RelayUrl
  authority : Authority
  observedAt : Timestamp
deriving DecidableEq

/-- One signed event with the occurrence that brought it. -/
structure RelayEvent where
  event : Event
  occurrence : RelayOccurrence
deriving DecidableEq

/-- The coordinate an `a` tag names. -/
structure Coordinate where
  publicKey : PublicKey
  kind : Kind
  identifier : String

/-- The library, with its reader of coordinates. -/
structure Rules extends Library where
  parseCoordinate : String → Option Coordinate

def eventDeletion : Kind := 5

/-- A decimal number that fits in a `u64`; a leading plus sign is accepted. -/
def parseU64 (text : String) : Option Nat :=
  let digits := match text.toList with
    | '+' :: rest => rest
    | digits => digits
  if digits = [] ∨ ¬digits.all Char.isDigit then none
  else
    let value := digits.foldl (fun n c => 10 * n + (c.toNat - '0'.toNat)) 0
    if value < 2 ^ 64 then some value else none

/-- The second value of a tag with this name. -/
def tagValue (name : String) (tag : Tag) : Option String :=
  if tag.head? = some name then tag[1]? else none

/-- Whether any expiration of an event is due. -/
def eventIsExpired (tags : List Tag) (now : Timestamp) : Bool :=
  tags.any fun tag => ((tagValue "expiration" tag).bind parseU64).any (· ≤ now)

variable (R : Rules)

def coordinateOf (event : Event) : EventCoordinate :=
  eventCoordinate R.toLibrary event.id event.pubkey event.kind event.tags

/-- Whether an authorized deletion covers the target. -/
def deletionApplies (deletion target : Event) : Bool :=
  if deletion.kind ≠ eventDeletion || target.kind = eventDeletion || deletion.pubkey ≠ target.pubkey then
    false
  else if deletion.tags.any fun tag => (tagValue "e" tag).bind R.idFromHex = some target.id then true
  else if target.createdAt > deletion.createdAt then false
  else deletion.tags.any fun tag => ((tagValue "a" tag).bind R.parseCoordinate).any fun c =>
    coordinateOf R target = .replaceable c.publicKey c.kind
      (if inAddressableRange c.kind then some c.identifier else none)

inductive RetractionCause
  | deleted (deletion : EventId)
  | superseded (winner : EventId)
  | expired
  | evicted
deriving DecidableEq

inductive EventStateMutation
  | upsert (incoming : RelayEvent)
  | retract (eventId : EventId) (session : RelayUrl) (cause : RetractionCause)
deriving DecidableEq

def RelayEvent.retract (known : RelayEvent) (cause : RetractionCause) : EventStateMutation :=
  .retract known.event.id known.occurrence.session cause

/-- The candidate wins over what is current at its coordinate. -/
def RelayEvent.newer (candidate current : RelayEvent) : Bool :=
  eventIsNewer (candidate.event.createdAt, candidate.event.id)
    (current.event.createdAt, current.event.id)

/-- One transition for a finite set of current contributions. -/
def mutationsForEvent (current : List RelayEvent) (incoming : RelayEvent) (now : Timestamp) :
    List EventStateMutation :=
  if eventIsExpired incoming.event.tags now ||
      current.any fun known => deletionApplies R known.event incoming.event then []
  else if incoming.event.kind = eventDeletion then
    ((current.filter fun known => deletionApplies R incoming.event known.event).map fun known =>
      known.retract (.deleted incoming.event.id)) ++ [.upsert incoming]
  else
    match current.find? fun known => known.event.id = incoming.event.id &&
        known.occurrence.session = incoming.occurrence.session with
    | some existing =>
      if incoming.occurrence.observedAt < existing.occurrence.observedAt then [.upsert incoming]
      else []
    | none =>
      match coordinateOf R incoming.event with
      | .replaceable _ _ _ =>
        let sameSession := current.filter fun known =>
          known.occurrence.session = incoming.occurrence.session &&
            coordinateOf R known.event = coordinateOf R incoming.event
        if sameSession.any fun known => !incoming.newer known then []
        else ((sameSession.filter fun known => known.event.id ≠ incoming.event.id).map fun known =>
          known.retract (.superseded incoming.event.id)) ++ [.upsert incoming]
      | .event _ => [.upsert incoming]

/-- Retractions of all that has expired. -/
def mutationsForExpiration (current : List RelayEvent) (now : Timestamp) :
    List EventStateMutation :=
  (current.filter fun known => eventIsExpired known.event.tags now).map fun known =>
    known.retract .expired

variable {R} {current : List RelayEvent} {incoming known : RelayEvent} {now : Timestamp}
  {id : EventId} {session : RelayUrl} {cause : RetractionCause}

theorem newer_asymm {candidate current : RelayEvent} (newer : candidate.newer current = true) :
    current.newer candidate = false := by
  simp only [RelayEvent.newer, eventIsNewer, Bool.or_eq_true, Bool.and_eq_true, decide_eq_true_eq,
    Bool.or_eq_false_iff, Bool.and_eq_false_iff, decide_eq_false_iff_not] at newer ⊢
  obtain later | ⟨same, smaller⟩ := newer
  · exact ⟨Nat.lt_asymm later, .inl (Nat.ne_of_lt later)⟩
  · exact ⟨fun later => Nat.ne_of_gt later same.symm, .inr (Nat.lt_asymm smaller)⟩

theorem newer_trans {a b c : RelayEvent} (first : a.newer b = true) (second : b.newer c = true) :
    a.newer c = true :=
  eventIsNewer_trans first second

theorem newer_total {a b : RelayEvent} (other : a.event.id ≠ b.event.id)
    (not_newer : a.newer b = false) : b.newer a = true := by
  simp only [RelayEvent.newer, eventIsNewer, Bool.or_eq_true, Bool.and_eq_true, decide_eq_true_eq,
    Bool.or_eq_false_iff, Bool.and_eq_false_iff, decide_eq_false_iff_not] at not_newer ⊢
  obtain ⟨not_later, differ⟩ := not_newer
  obtain later | same := Nat.lt_or_eq_of_le (Nat.le_of_not_lt not_later)
  · exact .inl later
  · refine .inr ⟨same.symm, ?_⟩
    have larger := differ.resolve_left (not_not.mpr same)
    exact Nat.lt_of_le_of_ne (Nat.le_of_not_lt larger) other.symm

/-- Neither due nor deleted. -/
def Admissible (R : Rules) (current : List RelayEvent) (incoming : RelayEvent) (now : Timestamp) :
    Prop :=
  eventIsExpired incoming.event.tags now = false ∧
    ∀ known ∈ current, deletionApplies R known.event incoming.event = false

/-- Nothing current is the same event of the same session. -/
def Fresh (current : List RelayEvent) (incoming : RelayEvent) : Prop :=
  ∀ known ∈ current, known.event.id = incoming.event.id →
    known.occurrence.session ≠ incoming.occurrence.session

/-- One session has both at one coordinate. -/
def Rivals (R : Rules) (known incoming : RelayEvent) : Prop :=
  known.occurrence.session = incoming.occurrence.session ∧
    coordinateOf R known.event = coordinateOf R incoming.event

/-- Why one incoming event changes nothing, or what it takes out as it is put in. -/
inductive Outcome (R : Rules) (current : List RelayEvent) (incoming : RelayEvent) (now : Timestamp) :
    List EventStateMutation → Prop
  | expired (due : eventIsExpired incoming.event.tags now = true) : Outcome R current incoming now []
  | deleted (known : RelayEvent) (here : known ∈ current)
      (deletes : deletionApplies R known.event incoming.event = true) :
      Outcome R current incoming now []
  | seen (known : RelayEvent) (here : known ∈ current) (id : known.event.id = incoming.event.id)
      (session : known.occurrence.session = incoming.occurrence.session)
      (earlier : known.occurrence.observedAt ≤ incoming.occurrence.observedAt) :
      Outcome R current incoming now []
  | older (known : RelayEvent) (here : known ∈ current) (rivals : Rivals R known incoming)
      (fresh : Fresh current incoming) (loses : incoming.newer known = false) :
      Outcome R current incoming now []
  | deletion (admissible : Admissible R current incoming now)
      (kind : incoming.event.kind = eventDeletion) (out : List RelayEvent)
      (taken : ∀ known, known ∈ out ↔
        known ∈ current ∧ deletionApplies R incoming.event known.event = true) :
      Outcome R current incoming now
        (out.map (·.retract (.deleted incoming.event.id)) ++ [.upsert incoming])
  | refresh (admissible : Admissible R current incoming now)
      (kind : incoming.event.kind ≠ eventDeletion) (known : RelayEvent) (here : known ∈ current)
      (id : known.event.id = incoming.event.id)
      (session : known.occurrence.session = incoming.occurrence.session)
      (later : incoming.occurrence.observedAt < known.occurrence.observedAt) :
      Outcome R current incoming now [.upsert incoming]
  | replace (admissible : Admissible R current incoming now)
      (kind : incoming.event.kind ≠ eventDeletion) (fresh : Fresh current incoming)
      (newest : ∀ known ∈ current, Rivals R known incoming → incoming.newer known = true)
      (out : List RelayEvent)
      (taken : ∀ known, known ∈ out ↔ known ∈ current ∧ Rivals R known incoming) :
      Outcome R current incoming now
        (out.map (·.retract (.superseded incoming.event.id)) ++ [.upsert incoming])
  | plain (admissible : Admissible R current incoming now)
      (kind : incoming.event.kind ≠ eventDeletion) (fresh : Fresh current incoming)
      (id : EventId) (coordinate : coordinateOf R incoming.event = .event id) :
      Outcome R current incoming now [.upsert incoming]

theorem mutationsForEvent_outcome (R : Rules) (current : List RelayEvent) (incoming : RelayEvent)
    (now : Timestamp) :
    Outcome R current incoming now (mutationsForEvent R current incoming now) := by
  unfold mutationsForEvent
  split
  · rename_i refused
    rw [Bool.or_eq_true, List.any_eq_true] at refused
    obtain due | ⟨known, here, deletes⟩ := refused
    · exact .expired due
    · exact .deleted known here deletes
  · rename_i accepted
    rw [Bool.or_eq_true, not_or, Bool.not_eq_true, Bool.not_eq_true, List.any_eq_false] at accepted
    have admissible : Admissible R current incoming now :=
      ⟨accepted.1, fun known here => by simpa using accepted.2 known here⟩
    split
    · rename_i kind
      exact .deletion admissible kind _ fun known => List.mem_filter
    · rename_i kind
      split
      · rename_i existing found
        have here := List.mem_of_find?_eq_some found
        have same := List.find?_some found
        rw [Bool.and_eq_true, decide_eq_true_eq, decide_eq_true_eq] at same
        split
        · rename_i later
          exact .refresh admissible kind existing here same.1 same.2 later
        · rename_i earlier
          exact .seen existing here same.1 same.2 (Nat.le_of_not_lt earlier)
      · rename_i absent
        have fresh : Fresh current incoming := by
          intro known here id session
          simpa [id, session] using List.find?_eq_none.mp absent known here
        split
        · have listed : ∀ known, known ∈ (current.filter fun known =>
              known.occurrence.session = incoming.occurrence.session &&
                coordinateOf R known.event = coordinateOf R incoming.event) ↔
              known ∈ current ∧ Rivals R known incoming := by
            intro known
            simp only [List.mem_filter, Bool.and_eq_true, decide_eq_true_eq, Rivals]
          dsimp only
          split
          · rename_i older
            obtain ⟨known, hk, loses⟩ := List.any_eq_true.mp older
            obtain ⟨here, rivals⟩ := (listed known).mp hk
            exact .older known here rivals fresh (by simpa using loses)
          · rename_i newest
            rw [Bool.not_eq_true, List.any_eq_false] at newest
            refine .replace admissible kind fresh (fun known here rivals => ?_) _ fun known => ?_
            · simpa using newest known ((listed known).mpr ⟨here, rivals⟩)
            · rw [List.mem_filter, listed]
              refine ⟨And.left, fun hk => ⟨hk, ?_⟩⟩
              rw [decide_eq_true_eq]
              intro id
              exact fresh known hk.1 id hk.2.1
        · rename_i id coordinate
          exact .plain admissible kind fresh id coordinate

/-- What one incoming event changes: it is refused for a reason, or it is the only one
put in, and what is taken out is deleted or superseded by it. -/
theorem mutationsForEvent_cases (R : Rules) (current : List RelayEvent) (incoming : RelayEvent)
    (now : Timestamp) :
    (mutationsForEvent R current incoming now = [] ∧
      (eventIsExpired incoming.event.tags now = true ∨
        (∃ known ∈ current, deletionApplies R known.event incoming.event = true) ∨
        (∃ known ∈ current, known.event.id = incoming.event.id ∧
          known.occurrence.session = incoming.occurrence.session) ∨
        ∃ known ∈ current, known.occurrence.session = incoming.occurrence.session ∧
          coordinateOf R known.event = coordinateOf R incoming.event ∧
            incoming.newer known = false)) ∨
    ∃ out : List RelayEvent, ∃ cause : RetractionCause,
      mutationsForEvent R current incoming now = out.map (·.retract cause) ++ [.upsert incoming] ∧
        ∀ known ∈ out, known ∈ current ∧
          (deletionApplies R incoming.event known.event = true ∨
            known.occurrence.session = incoming.occurrence.session ∧
              coordinateOf R known.event = coordinateOf R incoming.event ∧
                incoming.newer known = true) := by
  have outcome := mutationsForEvent_outcome R current incoming now
  generalize mutationsForEvent R current incoming now = decided at outcome
  cases outcome with
  | expired due => exact .inl ⟨rfl, .inl due⟩
  | deleted known here deletes => exact .inl ⟨rfl, .inr (.inl ⟨known, here, deletes⟩)⟩
  | seen known here id session => exact .inl ⟨rfl, .inr (.inr (.inl ⟨known, here, id, session⟩))⟩
  | older known here rivals fresh loses =>
    exact .inl ⟨rfl, .inr (.inr (.inr ⟨known, here, rivals.1, rivals.2, loses⟩))⟩
  | deletion admissible kind out taken =>
    exact .inr ⟨out, _, rfl, fun known hk => ((taken known).mp hk).imp id .inl⟩
  | refresh => exact .inr ⟨[], .expired, rfl, nofun⟩
  | replace admissible kind fresh newest out taken =>
    refine .inr ⟨out, _, rfl, fun known hk => ?_⟩
    obtain ⟨here, rivals⟩ := (taken known).mp hk
    exact ⟨here, .inr ⟨rivals.1, rivals.2, newest known here rivals⟩⟩
  | plain => exact .inr ⟨[], .expired, rfl, nofun⟩

end Fava.State
