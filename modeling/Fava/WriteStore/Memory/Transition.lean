import Fava.WriteStore.Memory.Changes

namespace Fava.WriteStore.Memory

open Std Fava.Lib Fava.Nostr Fava.Relay Fava.Routing Fava.Write

/-- One edit with the revision made for it, as it is presented to the store. -/
structure Offer where
  now : Timestamp
  reservation : Option Nat
  edit : EventEdit
  author : PublicKey
  routing : WriteRouting
  access : Authority
  event : UnsignedEvent
  source : Option EventValue
  route : Option RoutePlan

def Offer.coordinate (o : Offer) : EventCoordinate := editCoordinate o.edit o.author

def offer (now : Timestamp) (reservation : Option Nat) (intent : WriteIntent)
    (event : UnsignedEvent) (source : Option EventValue) (route : Option RoutePlan) : Option Offer :=
  match intent.payload with
  | .edit edit author =>
    some ⟨now, reservation, edit, author, intent.routing, intent.access, event, source, route⟩
  | _ => none

def offered : Action → Option Offer
  | .acceptAppliedEdit now intent event source => offer now none intent event source none
  | .acceptReservedAppliedEdit now reservation intent event source initialRoute =>
    offer now (some reservation) intent event source initialRoute
  | _ => none

/-- The route an edit brings along, numbered after the one its head follows. -/
def successorRoute (receipt : Receipt) (route : Option RoutePlan) : Option RoutePlan :=
  route.map ({ · with revision := receipt.routeRevision + 1 })

/-- An offer whose revision was made from the current generation of a receipt. -/
structure Composes (N : Library) (o : Offer) (receipt : Receipt) (cell : SemanticCell) : Prop where
  author : cell.author = o.author
  routing : receipt.routing = o.routing
  unsigned : ∃ event, receipt.current.event = .unsigned event
  valid : validateRevision N o.now o.edit o.author o.event o.source o.routing =
    .ok (some (receipt.current.id, receipt.current.event.createdAt))
  bounded : receipt.current.publication.retiredRevisions.length < destinationEvidenceCapacity
  fits : ∃ routed, applyInitialRoute N receipt (successorRoute receipt o.route) = .ok routed

/-- A revision made from another source that the current generation of a receipt may give
way to. -/
structure Corrects (N : Library) (now : Timestamp) (receipt : Receipt) (cell : SemanticCell)
    (event : UnsignedEvent) (source : Option EventValue) (selected : Option Source)
    (route : Option RoutePlan) : Prop where
  isOpen : receipt.isTerminal = false
  valid : ∃ edit, cell.edits.getLast? = some edit ∧
    validateRevision N now edit cell.author event source receipt.routing = .ok selected
  qualified : qualified cell.source selected = true
  newer : ∃ id, event.id = some id ∧ eventIsNewer (event.createdAt, id)
    (receipt.current.event.createdAt, receipt.current.id) = true
  bounded : receipt.current.publication.retiredRevisions.length < destinationEvidenceCapacity
  fits : ∃ routed, applyInitialRoute N receipt route = .ok routed

/-- The lanes a waiting generation starts with. -/
def successorLanes (receipt : Receipt) (successor : Successor) :
    BTreeMap RelayUrl RelayDeliveryOutcome :=
  if successor.edit.isNone then BTreeMap.constant (correctionDestinations receipt).toList .pending
  else destinations receipt.routing

/-- A waiting generation takes over from the current one. -/
structure TakesOver (N : Library) (r : ReceiptId) (receipt : Receipt) (successor : Successor)
    (current : LocalWriteEvent) (updated : Receipt) : Prop where
  generated : nextGeneration r receipt successor.event (successor.source.map Prod.fst)
    (successorLanes receipt successor) = .ok current
  applied : applyInitialRoute N (restarted receipt current) successor.route = .ok updated

/-- Custody of a receipt ends with the receipt. -/
def released (state : WriteState) (r : ReceiptId) (receipt : Receipt) : WriteState :=
  if receipt.isTerminal then releaseSemantic state r else state

/-- What one operation can make of the ledger. -/
inductive Transition (N : Library) (capacity : Nat) (s : WriteState) : Action → WriteState → Prop
  | refused {action : Action} : Transition N capacity s action s
  | reserved {edit : EventEdit} {author : PublicKey}
      (unreserved : isReserved s (editCoordinate edit author) = false)
      (unqueued : ∀ r, s.coordinates[editCoordinate edit author]? = some r → r ∉ s.successors)
      (room : editCoordinate edit author ∈ s.coordinates ∨ capacityReached s capacity = false) :
      Transition N capacity s (.reserveActive edit author)
        { s with
          nextReservation := s.nextReservation + 1
          reservations := s.reservations.insert s.nextReservation (editCoordinate edit author) }
  | freed {reservation : Nat} (held : reservation ∈ s.reservations) :
      Transition N capacity s (.releaseActive reservation)
        { s with reservations := s.reservations.erase reservation }
  | accepted {intent : WriteIntent} {receipt : Receipt} {revision : Nat}
      (room : capacityReached s capacity = false) (enters : Enters N s.nextIdentity receipt) :
      Transition N capacity s (.accept intent)
        { s with
          revision := revision
          writes := s.writes.insert s.nextIdentity receipt
          nextIdentity := s.nextIdentity + 1 }
  | consumed {action : Action} {o : Offer} {t : WriteState} (offers : offered action = some o)
      (took : takeReservation o.reservation o.coordinate s = .ok t) : Transition N capacity s action t
  | opened {action : Action} {o : Offer} {t : WriteState} {selected : Option Source}
      {fresh receipt : Receipt} (offers : offered action = some o)
      (took : takeReservation o.reservation o.coordinate s = .ok t)
      (vacant : t.coordinates[o.coordinate]? = none)
      (room : o.reservation.isSome = true ∨ capacityReached t capacity = false)
      (valid : validateRevision N o.now o.edit o.author o.event o.source o.routing = .ok selected)
      (counted : t.nextIdentity + 1 < counterBound)
      (made : acceptedReceipt t.nextIdentity (.unsigned o.event) .unsigned
        (selected.map Prod.fst) o.routing o.access = .ok fresh)
      (applied : applyInitialRoute N fresh o.route = .ok receipt) (revision : Nat) :
      Transition N capacity s action
        { t with
          revision := revision
          writes := t.writes.insert t.nextIdentity receipt
          coordinates :=
            if receipt.isTerminal then t.coordinates
            else t.coordinates.insert o.coordinate t.nextIdentity
          edits :=
            if receipt.isTerminal then t.edits
            else t.edits.insert t.nextIdentity ⟨[o.edit], o.author, selected, none⟩
          nextIdentity := t.nextIdentity + 1
          taken := t.taken ++ [(t.nextIdentity, o.edit)] }
  | queued {action : Action} {o : Offer} {t : WriteState} {r : ReceiptId} {receipt : Receipt}
      {cell : SemanticCell} (offers : offered action = some o)
      (took : takeReservation o.reservation o.coordinate s = .ok t)
      (owner : t.coordinates[o.coordinate]? = some r) (found : t.writes[r]? = some receipt)
      (held : t.edits[r]? = some cell) (composes : Composes N o receipt cell)
      (authorized : receipt.current.publication.signature = .authorized)
      (unqueued : r ∉ t.successors) :
      Transition N capacity s action
        { t with
          successors := t.successors.insert r
            ⟨some o.edit, o.event, cell.source, successorRoute receipt o.route⟩
          taken := t.taken ++ [(r, o.edit)] }
  | composed {action : Action} {o : Offer} {t : WriteState} {r : ReceiptId}
      {receipt updated : Receipt} {cell : SemanticCell} {current : LocalWriteEvent}
      (offers : offered action = some o)
      (took : takeReservation o.reservation o.coordinate s = .ok t)
      (owner : t.coordinates[o.coordinate]? = some r) (found : t.writes[r]? = some receipt)
      (held : t.edits[r]? = some cell) (composes : Composes N o receipt cell)
      (unauthorized : receipt.current.publication.signature ≠ .authorized)
      (generated : nextGeneration r receipt o.event (cell.source.map Prod.fst)
        (destinations o.routing) = .ok current)
      (applied : applyInitialRoute N (restarted receipt current)
        (successorRoute receipt o.route) = .ok updated) (revision : Nat) :
      Transition N capacity s action
        { t with
          revision := revision
          writes := t.writes.insert r updated
          coordinates :=
            if updated.isTerminal then t.coordinates.erase o.coordinate else t.coordinates
          edits :=
            if updated.isTerminal then t.edits.erase r
            else t.edits.insert r ⟨cell.edits ++ [o.edit], o.author, cell.source, none⟩
          taken := t.taken ++ [(r, o.edit)] }
  | deferred {now : Timestamp} {writeId : WriteId} {r : ReceiptId} {expected : RevisionId}
      {expectedSource : Option EventId} {appliedEdits : List EventEdit} {event : UnsignedEvent}
      {source : Option EventValue} {route : Option RoutePlan} {receipt : Receipt}
      {cell : SemanticCell} {selected : Option Source} (found : s.writes[r]? = some receipt)
      (held : s.edits[r]? = some cell)
      (corrects : Corrects N now receipt cell event source selected route)
      (authorized : receipt.current.publication.signature = .authorized)
      (unqueued : r ∉ s.successors) :
      Transition N capacity s
        (.installRevision now writeId r expected expectedSource appliedEdits event source route)
        { s with successors := s.successors.insert r ⟨none, event, selected, route⟩ }
  | corrected {now : Timestamp} {writeId : WriteId} {r : ReceiptId} {expected : RevisionId}
      {expectedSource : Option EventId} {appliedEdits : List EventEdit} {event : UnsignedEvent}
      {source : Option EventValue} {route : Option RoutePlan} {receipt updated : Receipt}
      {cell : SemanticCell} {selected : Option Source} {current : LocalWriteEvent} {revision : Nat}
      (found : s.writes[r]? = some receipt) (held : s.edits[r]? = some cell)
      (stands : requireCurrent receipt writeId expected expectedSource cell.source = .ok ())
      (complete : cell.edits = appliedEdits)
      (corrects : Corrects N now receipt cell event source selected route)
      (unauthorized : receipt.current.publication.signature ≠ .authorized)
      (bounded : (correctionDestinations receipt).size ≤ destinationEvidenceCapacity)
      (generated : nextGeneration r receipt event (selected.map Prod.fst)
        (BTreeMap.constant (correctionDestinations receipt).toList .pending) = .ok current)
      (applied : applyInitialRoute N
        { receipt with
          current := current
          outcome := .isOpen
          desiredDestinations := correctionDestinations receipt
          attempts := ∅ } route = .ok updated) :
      Transition N capacity s
        (.installRevision now writeId r expected expectedSource appliedEdits event source route)
        { s with
          revision := revision
          writes := s.writes.insert r updated
          edits := s.edits.insert r ⟨cell.edits, cell.author, selected, none⟩ }
  | failed {action : Action} {r : ReceiptId} {receipt updated : Receipt} {cell : SemanticCell}
      {failedSource : Option EventId} {revision : Nat} (found : s.writes[r]? = some receipt)
      (held : s.edits[r]? = some cell) (changes : Changes N r receipt action updated)
      (kept : ∃ failure, updated = receipt.withPublication
        { receipt.current.publication with revisionFailure := failure }) :
      Transition N capacity s action
        { s with
          revision := revision
          writes := s.writes.insert r updated
          edits := s.edits.insert r { cell with failedSource := failedSource } }
  | promoted {action : Action} {r : ReceiptId} {receipt updated : Receipt} {cell : SemanticCell}
      {successor : Successor} {current : LocalWriteEvent} {revision : Nat}
      (found : s.writes[r]? = some receipt) (held : s.edits[r]? = some cell)
      (waiting : s.successors[r]? = some successor) (due : Concludes N r receipt action)
      (takes : TakesOver N r receipt successor current updated) :
      Transition N capacity s action
        { s with
          revision := revision
          writes := s.writes.insert r updated
          successors := s.successors.erase r
          edits := s.edits.insert r
            ⟨cell.edits ++ successor.edit.toList, cell.author, successor.source, none⟩ }
  | abandoned {action : Action} {r : ReceiptId} {successor : Successor}
      (waiting : s.successors[r]? = some successor)
      (stuck : ∀ receipt cell current updated, s.writes[r]? = some receipt →
        s.edits[r]? = some cell → ¬TakesOver N r receipt successor current updated) :
      Transition N capacity s action { s with successors := s.successors.erase r }
  | recorded {action : Action} {r : ReceiptId} {receipt updated : Receipt} {revision : Nat}
      (found : s.writes[r]? = some receipt) (changes : Changes N r receipt action updated)
      (kept : updated.current.publication.revisionId = receipt.current.publication.revisionId)
      (awaited : r ∈ s.successors → receipt.current.publication.signature = .authorized →
        updated.isTerminal = true ∨ updated.current.publication.signature = .authorized) :
      Transition N capacity s action
        (released { s with revision := revision, writes := s.writes.insert r updated } r updated)
  | removed {r : ReceiptId} {receipt : Receipt} {revision : Nat}
      (found : s.writes[r]? = some receipt) (terminal : receipt.isTerminal = true) :
      Transition N capacity s (.removeReceipt r)
        { releaseSemantic s r with revision := revision, writes := s.writes.erase r }

variable {N : Library} {capacity : Nat} {action : Action} {s s' t : WriteState} {r : ReceiptId}
  {receipt updated : Receipt}

/-- Taking a reservation changes nothing else. -/
theorem takeReservation_eq_ok {reservation : Option Nat} {c : EventCoordinate}
    (took : takeReservation reservation c s = .ok t) :
    reservation = none ∧ t = s ∨ ∃ id, reservation = some id ∧ s.reservations[id]? = some c ∧
      t = { s with reservations := s.reservations.erase id } := by
  cases reservation with
  | none => exact .inl ⟨rfl, (Except.ok.inj took).symm⟩
  | some id =>
    obtain ⟨reserved, present, took⟩ := demand_bind_eq_ok.mp took
    obtain ⟨rfl, emptied⟩ := require_bind_eq_ok.mp took
    exact .inr ⟨id, rfl, present, (Except.ok.inj emptied).symm⟩

theorem atomically_cases {α : Type} {f : WriteState → Except WriteStoreError (α × WriteState)}
    {P : WriteState → Prop} (done : ∀ answer s', f s = .ok (answer, s') → P s')
    (failed : ∀ error, f s = .error error → P s) : P (atomically f s).2 := by
  unfold Memory.atomically
  cases result : f s with
  | error error => exact failed error result
  | ok both => exact done both.1 both.2 result

theorem Transition.atomically {α : Type}
    {f : WriteState → Except WriteStoreError (α × WriteState)}
    (done : ∀ answer s', f s = .ok (answer, s') → Transition N capacity s action s') :
    Transition N capacity s action (atomically f s).2 :=
  atomically_cases done fun _ _ => .refused

/-- A receipt that stays open keeps its custody. -/
theorem Transition.keep {revision : Nat} (found : s.writes[r]? = some receipt)
    (changes : Changes N r receipt action updated) (isOpen : updated.isTerminal = false)
    (kept : updated.current.publication.revisionId = receipt.current.publication.revisionId)
    (awaited : r ∈ s.successors → receipt.current.publication.signature = .authorized →
      updated.current.publication.signature = .authorized) :
    Transition N capacity s action
      { s with revision := revision, writes := s.writes.insert r updated } := by
  have recording : Transition N capacity s action
      (released { s with revision := revision, writes := s.writes.insert r updated } r updated) :=
    .recorded found changes kept fun queued authorized => .inr (awaited queued authorized)
  rw [released, if_neg (by rw [isOpen]; exact Bool.false_ne_true)] at recording
  exact recording

theorem reserveActiveSlot_transition {edit : EventEdit} {author : PublicKey} :
    Transition N capacity s (.reserveActive edit author)
      (reserveActiveSlot capacity edit author s).2 := by
  apply Transition.atomically
  intro answer s' done
  obtain ⟨unreserved, done⟩ := require_bind_eq_ok.mp done
  obtain ⟨unqueued, done⟩ := require_bind_eq_ok.mp done
  obtain ⟨room, done⟩ := require_bind_eq_ok.mp done
  obtain ⟨-, done⟩ := require_bind_eq_ok.mp done
  obtain ⟨-, rfl⟩ := Prod.mk.inj (Except.ok.inj done)
  refine .reserved (Bool.eq_false_iff.mpr unreserved) ?_ ?_
  · intro r owner queued
    rw [owner] at unqueued
    exact unqueued (ExtTreeMap.contains_iff_mem.mpr queued)
  · exact room.imp ExtTreeMap.contains_iff_mem.mp Bool.eq_false_iff.mpr

theorem releaseActiveSlot_transition {reservation : Nat} :
    Transition N capacity s (.releaseActive reservation) (releaseActiveSlot reservation s).2 := by
  apply Transition.atomically
  intro answer s' done
  obtain ⟨held, done⟩ := require_bind_eq_ok.mp done
  obtain ⟨-, rfl⟩ := Prod.mk.inj (Except.ok.inj done)
  exact .freed held

section Acceptance

theorem nextIdentity_eq_ok {current next : Nat} (h : nextIdentity current = .ok next) :
    current + 1 < counterBound ∧ next = current + 1 := by
  unfold nextIdentity at h
  split at h
  · rename_i counted
    exact ⟨counted, (Except.ok.inj h).symm⟩
  · cases h

theorem accept_transition {intent : WriteIntent} :
    Transition N capacity s (.accept intent) (accept capacity intent s).2 := by
  apply Transition.atomically
  intro answer s' done
  obtain ⟨room, done⟩ := require_bind_eq_ok.mp done
  obtain ⟨next, counts, done⟩ := bind_eq_ok.mp done
  obtain ⟨⟨value, signature⟩, completed, done⟩ := bind_eq_ok.mp done
  obtain ⟨receipt, made, done⟩ := bind_eq_ok.mp done
  obtain ⟨recorded, stored, done⟩ := bind_eq_ok.mp done
  obtain ⟨-, rfl⟩ := Prod.mk.inj (Except.ok.inj done)
  obtain ⟨revision, rfl⟩ := record_eq_ok stored
  obtain ⟨counted, rfl⟩ := nextIdentity_eq_ok counts
  have undecided : (∃ unsigned, value = .unsigned unsigned) ∧ signature = .unsigned ∨
      (∃ signed, value = .signed signed) ∧ signature = .signed := by
    unfold completePayload at completed
    split at completed
    · cases completed
      exact .inl ⟨⟨_, rfl⟩, rfl⟩
    · cases completed
    · cases completed
      exact .inr ⟨⟨_, rfl⟩, rfl⟩
  refine .accepted (Bool.eq_false_iff.mpr room) ?_
  exact .accepted value signature none intent.routing intent.access counted undecided made
    (show applyInitialRoute N receipt none = .ok receipt from rfl)

/-- What a validated revision was made from. -/
theorem validateSource_of_validateRevision {now : Timestamp} {edit : EventEdit}
    {author : PublicKey} {event : UnsignedEvent} {source : Option EventValue}
    {routing : WriteRouting} {selected : Option Source}
    (h : validateRevision N now edit author event source routing = .ok selected) :
    validateSource N edit author source = .ok selected ∧
      ∀ chosen ∈ selected, ∃ id, event.id = some id ∧
        eventIsNewer (event.createdAt, id) (chosen.2, chosen.1) = true := by
  obtain ⟨_, -, h⟩ := bind_eq_ok.mp h
  obtain ⟨-, h⟩ := require_bind_eq_ok.mp h
  obtain ⟨_, -, h⟩ := bind_eq_ok.mp h
  obtain ⟨-, h⟩ := require_bind_eq_ok.mp h
  obtain ⟨chosen, validated, h⟩ := bind_eq_ok.mp h
  split at h
  · cases h
    exact ⟨validated, nofun⟩
  · obtain ⟨id, known, h⟩ := demand_bind_eq_ok.mp h
    obtain ⟨newer, h⟩ := require_bind_eq_ok.mp h
    cases h
    refine ⟨validated, ?_⟩
    rintro _ ⟨⟩
    exact ⟨id, known, newer⟩

theorem validateSource_some {edit : EventEdit} {author : PublicKey} {source : EventValue}
    {selected : Option Source} (h : validateSource N edit author (some source) = .ok selected) :
    ∃ id, source.id = some id ∧ selected = some (id, source.createdAt) := by
  obtain ⟨_, -, h⟩ := bind_eq_ok.mp h
  obtain ⟨id, known, h⟩ := demand_bind_eq_ok.mp h
  obtain ⟨-, h⟩ := require_bind_eq_ok.mp h
  exact ⟨id, known, (Except.ok.inj h).symm⟩

theorem composeSemantic_transition {o : Offer} {answer : AcceptedWrite} {selected : Option Source}
    (offers : offered action = some o)
    (took : takeReservation o.reservation o.coordinate s = .ok t)
    (owner : t.coordinates[o.coordinate]? = some r)
    (valid : validateRevision N o.now o.edit o.author o.event o.source o.routing = .ok selected)
    (done : composeSemantic N r o.edit o.author o.routing o.event o.source o.route t =
      .ok (answer, s')) : Transition N capacity s action s' := by
  obtain ⟨receipt, found, done⟩ := demand_bind_eq_ok.mp done
  obtain ⟨cell, held, done⟩ := demand_bind_eq_ok.mp done
  obtain ⟨⟨author, routing⟩, done⟩ := require_bind_eq_ok.mp done
  obtain ⟨unsigned, done⟩ := require_bind_eq_ok.mp done
  obtain ⟨chosen, sourced, done⟩ := bind_eq_ok.mp done
  obtain ⟨⟨made, exact⟩, done⟩ := require_bind_eq_ok.mp done
  obtain ⟨bounded, done⟩ := require_bind_eq_ok.mp done
  obtain ⟨-, done⟩ := require_bind_eq_ok.mp done
  obtain ⟨routed, fits, done⟩ := bind_eq_ok.mp done
  have composes : Composes N o receipt cell := by
    refine ⟨author, routing, ?_, ?_, bounded, routed, fits⟩
    · cases event : receipt.current.event with
      | unsigned unsigned => exact ⟨unsigned, rfl⟩
      | signed signed =>
        rw [event] at unsigned
        cases unsigned
    · have same := (validateSource_of_validateRevision valid).1
      rw [same] at sourced
      cases sourced
      rw [made] at same
      obtain ⟨id, -, rfl⟩ := validateSource_some same
      rw [valid]
      obtain rfl := Option.some.inj exact
      rfl
  split at done
  · rename_i authorized
    obtain ⟨unqueued, done⟩ := require_bind_eq_ok.mp done
    obtain ⟨-, rfl⟩ := Prod.mk.inj (Except.ok.inj done)
    exact .queued offers took owner found held composes authorized unqueued
  · rename_i unauthorized
    obtain ⟨current, generated, done⟩ := bind_eq_ok.mp done
    obtain ⟨updated, applied, done⟩ := bind_eq_ok.mp done
    obtain ⟨recorded, stored, done⟩ := bind_eq_ok.mp done
    obtain ⟨-, rfl⟩ := Prod.mk.inj (Except.ok.inj done)
    obtain ⟨revision, rfl⟩ := record_eq_ok stored
    have composed : Transition N capacity s action _ := .composed offers took owner found held
      composes unauthorized generated applied revision
    split
    · rename_i terminal
      simp only [if_pos terminal] at composed
      exact composed
    · rename_i isOpen
      simp only [if_neg isOpen] at composed
      exact composed

theorem acceptEdit_transition {o : Offer} {answer : AcceptedWrite}
    (offers : offered action = some o)
    (took : takeReservation o.reservation o.coordinate s = .ok t)
    (done : acceptEdit N capacity o.now o.reservation.isSome o.edit o.author o.routing o.access
      o.event o.source o.route t = .ok (answer, s')) : Transition N capacity s action s' := by
  obtain ⟨selected, valid, done⟩ := bind_eq_ok.mp done
  split at done
  · rename_i r owner
    obtain ⟨receipt, -, done⟩ := demand_bind_eq_ok.mp done
    obtain ⟨cell, -, done⟩ := demand_bind_eq_ok.mp done
    split at done
    · obtain ⟨-, rfl⟩ := Prod.mk.inj (Except.ok.inj done)
      exact .consumed offers took
    · exact composeSemantic_transition offers took owner valid done
  · rename_i vacant
    obtain ⟨room, done⟩ := require_bind_eq_ok.mp done
    obtain ⟨next, counts, done⟩ := bind_eq_ok.mp done
    obtain ⟨fresh, made, done⟩ := bind_eq_ok.mp done
    obtain ⟨receipt, applied, done⟩ := bind_eq_ok.mp done
    obtain ⟨recorded, stored, done⟩ := bind_eq_ok.mp done
    obtain ⟨-, rfl⟩ := Prod.mk.inj (Except.ok.inj done)
    obtain ⟨revision, rfl⟩ := record_eq_ok stored
    obtain ⟨counted, rfl⟩ := nextIdentity_eq_ok counts
    have opened : Transition N capacity s action _ := .opened offers took vacant
      (room.imp_right Bool.eq_false_iff.mpr) valid counted made applied revision
    split
    · rename_i terminal
      simp only [if_pos terminal] at opened
      exact opened
    · rename_i isOpen
      simp only [if_neg isOpen] at opened
      exact opened

theorem acceptSemanticInner_transition {now : Timestamp} {reservation : Option Nat}
    {intent : WriteIntent} {event : UnsignedEvent} {source : Option EventValue}
    {route : Option RoutePlan}
    (offers : offered action = offer now reservation intent event source route) :
    Transition N capacity s action
      (acceptSemanticInner N capacity now reservation intent event source route s).2 := by
  unfold acceptSemanticInner
  unfold offer at offers
  split
  · rename_i edit author payload
    rw [payload] at offers
    split
    · exact .refused
    · rename_i t took
      exact atomically_cases (fun _ _ done => acceptEdit_transition offers took done)
        fun _ _ => .consumed offers took
  · exact .refused

end Acceptance

section Lifecycle

variable {now : Timestamp} {writeId : WriteId} {expected revisionId : RevisionId}
  {expectedSource : Option EventId} {appliedEdits : List EventEdit} {event : UnsignedEvent}
  {source : Option EventValue} {initialRoute : Option RoutePlan} {reason : String}
  {eventId : EventId} {session : RelayUrl} {attempt : Nat}

theorem installSemantic_transition :
    Transition N capacity s
      (.installRevision now writeId r expected expectedSource appliedEdits event source initialRoute)
      (installSemantic N now writeId r expected expectedSource appliedEdits event source initialRoute
        s).2 := by
  apply Transition.atomically
  intro answer s' done
  obtain ⟨receipt, found, done⟩ := demand_bind_eq_ok.mp done
  obtain ⟨cell, held, done⟩ := demand_bind_eq_ok.mp done
  obtain ⟨_, current, done⟩ := bind_eq_ok.mp done
  obtain ⟨complete, done⟩ := require_bind_eq_ok.mp done
  obtain ⟨edit, last, done⟩ := demand_bind_eq_ok.mp done
  obtain ⟨selected, valid, done⟩ := bind_eq_ok.mp done
  split at done
  · obtain ⟨-, rfl⟩ := Prod.mk.inj (Except.ok.inj done)
    exact .refused
  · obtain ⟨_, qualifies, done⟩ := bind_eq_ok.mp done
    obtain ⟨id, known, done⟩ := demand_bind_eq_ok.mp done
    obtain ⟨newer, done⟩ := require_bind_eq_ok.mp done
    obtain ⟨bounded, done⟩ := require_bind_eq_ok.mp done
    obtain ⟨routed, fits, done⟩ := bind_eq_ok.mp done
    have qualified : qualified cell.source selected = true := of_require qualifies
    have corrects : Corrects N now receipt cell event source selected initialRoute :=
      ⟨open_of_requireCurrent current, ⟨edit, last, valid⟩, qualified, ⟨id, known, newer⟩, bounded,
        routed, fits⟩
    split at done
    · rename_i authorized
      obtain ⟨unqueued, done⟩ := require_bind_eq_ok.mp done
      obtain ⟨-, rfl⟩ := Prod.mk.inj (Except.ok.inj done)
      exact .deferred found held corrects authorized unqueued
    · rename_i unauthorized
      obtain ⟨few, done⟩ := require_bind_eq_ok.mp done
      obtain ⟨next, generated, done⟩ := bind_eq_ok.mp done
      obtain ⟨updated, applied, done⟩ := bind_eq_ok.mp done
      obtain ⟨recorded, stored, done⟩ := bind_eq_ok.mp done
      obtain ⟨-, rfl⟩ := Prod.mk.inj (Except.ok.inj done)
      obtain ⟨revision, rfl⟩ := record_eq_ok stored
      exact .corrected found held current complete corrects unauthorized few generated applied

theorem recordSemanticFailure_transition :
    Transition N capacity s
      (.recordRevisionFailure writeId r expected expectedSource source reason)
      (recordSemanticFailure N writeId r expected expectedSource source reason s).2 := by
  apply Transition.atomically
  intro answer s' done
  obtain ⟨receipt, found, done⟩ := demand_bind_eq_ok.mp done
  obtain ⟨cell, held, done⟩ := demand_bind_eq_ok.mp done
  obtain ⟨_, current, done⟩ := bind_eq_ok.mp done
  obtain ⟨_, -, done⟩ := demand_bind_eq_ok.mp done
  obtain ⟨failedSource, -, done⟩ := bind_eq_ok.mp done
  obtain ⟨_, -, done⟩ := bind_eq_ok.mp done
  dsimp only at done
  split at done
  · obtain ⟨-, rfl⟩ := Prod.mk.inj (Except.ok.inj done)
    exact .refused
  · obtain ⟨recorded, stored, done⟩ := bind_eq_ok.mp done
    obtain ⟨-, rfl⟩ := Prod.mk.inj (Except.ok.inj done)
    obtain ⟨revision, rfl⟩ := record_eq_ok stored
    exact .failed found held (.fail failedSource (open_of_requireCurrent current)) ⟨_, rfl⟩

theorem promoteAuthorizedSuccessor_transition
    (due : ∀ receipt : Receipt, s.writes[r]? = some receipt → Concludes N r receipt action) :
    Transition N capacity s action (promoteAuthorizedSuccessor N r s).2 := by
  unfold promoteAuthorizedSuccessor
  split
  · exact .refused
  · rename_i revision later
    split
    · exact .refused
    · rename_i successor waiting
      refine atomically_cases (fun answer s' done => ?_) fun error failed => ?_
      · obtain ⟨receipt, found, done⟩ := demand_bind_eq_ok.mp done
        obtain ⟨cell, held, done⟩ := demand_bind_eq_ok.mp done
        obtain ⟨current, generated, done⟩ := bind_eq_ok.mp done
        obtain ⟨updated, applied, done⟩ := bind_eq_ok.mp done
        obtain ⟨recorded, stored, done⟩ := bind_eq_ok.mp done
        obtain ⟨-, rfl⟩ := Prod.mk.inj (Except.ok.inj done)
        obtain ⟨revision, rfl⟩ := record_eq_ok stored
        exact .promoted found held waiting (due receipt found) ⟨generated, applied⟩
      · refine .abandoned waiting fun receipt cell current updated found held takes => ?_
        have generated := takes.generated
        unfold successorLanes at generated
        simp only [found, held, demand, bind, Except.bind, generated, takes.applied,
          WriteState.record, later] at failed
        cases failed

theorem concludeSigning_transition {promotes : WriteState → Receipt → Bool}
    {standing : WriteState → Except WriteStoreError Standing} {recorded : Receipt → Receipt}
    (current : ∀ receipt, standing s = .ok (.current receipt) →
      s.writes[r]? = some receipt ∧ Concludes N r receipt action ∧
        Changes N r receipt action (recorded receipt) ∧
        (recorded receipt).isTerminal = false ∧
        (recorded receipt).current.publication.revisionId =
          receipt.current.publication.revisionId)
    (awaited : ∀ receipt, receipt.current.publication.signature = .authorized →
      r ∈ s.successors → promotes s receipt = true) :
    Transition N capacity s action (concludeSigning N r promotes standing recorded s).2 := by
  unfold concludeSigning
  split
  · exact .refused
  · exact .refused
  · rename_i receipt stands
    obtain ⟨found, due, changes, isOpen, kept⟩ := current receipt stands
    split
    · apply promoteAuthorizedSuccessor_transition
      intro other present
      rw [found] at present
      cases present
      exact due
    · rename_i stays
      apply Transition.atomically
      intro answer s' done
      obtain ⟨written, stored, done⟩ := bind_eq_ok.mp done
      obtain ⟨-, rfl⟩ := Prod.mk.inj (Except.ok.inj done)
      obtain ⟨revision, rfl⟩ := record_eq_ok stored
      exact .keep found changes isOpen kept fun queued authorized =>
        (stays (awaited receipt authorized queued)).elim

theorem installSignedCurrent_transition {event : Event} :
    Transition N capacity s (.installSigned writeId r revisionId eventId event)
      (installSignedCurrent N writeId r revisionId eventId event s).2 := by
  apply concludeSigning_transition
  · intro receipt stands
    obtain ⟨_, verified, stands⟩ := bind_eq_ok.mp stands
    obtain ⟨other, found, stands⟩ := demand_bind_eq_ok.mp stands
    obtain ⟨_, current, stands⟩ := bind_eq_ok.mp stands
    split at stands
    · split at stands <;> cases stands
    · rename_i unsigned holding
      obtain ⟨signed, stands⟩ := require_bind_eq_ok.mp stands
      obtain ⟨allowed, stands⟩ := require_bind_eq_ok.mp stands
      cases stands
      have isOpen := open_of_validateCurrentRevision current
      have verified := mapError_eq_ok.mp verified
      exact ⟨found, ⟨rfl, current, verified, unsigned, holding, signed⟩,
        .sign unsigned isOpen verified holding signed allowed, isOpen, rfl⟩
  · exact fun _ _ queued => ExtTreeMap.contains_iff_mem.mpr queued

theorem recordSignerRefusalCurrent_transition :
    Transition N capacity s (.recordSignerRefusal writeId r revisionId eventId reason)
      (recordSignerRefusalCurrent N writeId r revisionId eventId reason s).2 := by
  apply concludeSigning_transition
  · intro receipt stands
    obtain ⟨_, bounded, stands⟩ := bind_eq_ok.mp stands
    obtain ⟨other, found, stands⟩ := demand_bind_eq_ok.mp stands
    obtain ⟨_, current, stands⟩ := bind_eq_ok.mp stands
    split at stands
    · rename_i authorized
      cases stands
      have isOpen := open_of_validateCurrentRevision current
      exact ⟨found, ⟨rfl, bounded, current⟩, .refuse isOpen bounded authorized, isOpen, rfl⟩
    · cases stands
    · cases stands
    · cases stands
    · split at stands <;> cases stands
  · exact fun _ _ queued => ExtTreeMap.contains_iff_mem.mpr queued

theorem recordSignerRetryableCurrent_transition :
    Transition N capacity s (.recordSignerRetryable writeId r revisionId eventId reason)
      (recordSignerRetryableCurrent N writeId r revisionId eventId reason s).2 := by
  apply concludeSigning_transition
  · intro receipt stands
    obtain ⟨_, bounded, stands⟩ := bind_eq_ok.mp stands
    obtain ⟨other, found, stands⟩ := demand_bind_eq_ok.mp stands
    obtain ⟨_, current, stands⟩ := bind_eq_ok.mp stands
    have isOpen := open_of_validateCurrentRevision current
    split at stands
    all_goals
      rename_i state
      cases stands
      try exact ⟨found, ⟨rfl, bounded, current⟩,
        .retry isOpen bounded (by rw [state]; exact ⟨nofun, nofun⟩), isOpen, rfl⟩
  · intro receipt authorized queued
    rw [authorized, ExtTreeMap.contains_iff_mem.mpr queued]
    rfl

theorem authorizeSigningCurrent_transition :
    Transition N capacity s (.authorizeSigning writeId r revisionId eventId)
      (authorizeSigningCurrent N writeId r revisionId eventId s).2 := by
  apply Transition.atomically
  intro answer s' done
  obtain ⟨receipt, found, done⟩ := demand_bind_eq_ok.mp done
  obtain ⟨_, current, done⟩ := bind_eq_ok.mp done
  obtain ⟨unsigned, done⟩ := require_bind_eq_ok.mp done
  have isOpen := open_of_validateCurrentRevision current
  have holding : ∃ unsigned, receipt.current.event = .unsigned unsigned := by
    cases event : receipt.current.event with
    | unsigned unsigned => exact ⟨unsigned, rfl⟩
    | signed signed =>
      rw [event] at unsigned
      cases unsigned
  split at done
  · obtain ⟨-, rfl⟩ := Prod.mk.inj (Except.ok.inj done)
    exact .refused
  · cases done
  · cases done
  all_goals
    rename_i state
    dsimp only at done
    split at done
    · obtain ⟨-, rfl⟩ := Prod.mk.inj (Except.ok.inj done)
      exact .refused
    · obtain ⟨recorded, stored, done⟩ := bind_eq_ok.mp done
      obtain ⟨-, rfl⟩ := Prod.mk.inj (Except.ok.inj done)
      obtain ⟨revision, rfl⟩ := record_eq_ok stored
      exact .keep found (.authorize s isOpen (by rw [state]; exact ⟨nofun, nofun⟩) holding) isOpen rfl
        fun _ authorized => by rw [state] at authorized; cases authorized

theorem applyRouteCurrent_transition {plan : RoutePlan} :
    Transition N capacity s (.applyRoute writeId r revisionId eventId plan)
      (applyRouteCurrent N writeId r revisionId eventId plan s).2 := by
  apply Transition.atomically
  intro answer s' done
  obtain ⟨receipt, found, done⟩ := demand_bind_eq_ok.mp done
  obtain ⟨_, current, done⟩ := bind_eq_ok.mp done
  obtain ⟨updated, applied, done⟩ := bind_eq_ok.mp done
  split at done
  · obtain ⟨-, rfl⟩ := Prod.mk.inj (Except.ok.inj done)
    exact .refused
  · obtain ⟨recorded, stored, done⟩ := bind_eq_ok.mp done
    obtain ⟨-, rfl⟩ := Prod.mk.inj (Except.ok.inj done)
    obtain ⟨revision, rfl⟩ := record_eq_ok stored
    have same := unrouted_of_applyRoute applied
    exact .recorded found (.route (open_of_validateCurrentRevision current) current applied)
      (congrArg (·.current.publication.revisionId) same)
      fun _ authorized => .inr ((congrArg (·.current.publication.signature) same).trans authorized)

theorem beginAttemptCurrent_transition :
    Transition N capacity s (.beginAttempt writeId r revisionId eventId session attempt)
      (beginAttemptCurrent writeId r revisionId eventId session attempt s).2 := by
  apply Transition.atomically
  intro answer s' done
  obtain ⟨receipt, found, done⟩ := demand_bind_eq_ok.mp done
  obtain ⟨_, current, done⟩ := bind_eq_ok.mp done
  dsimp only at done
  split at done
  · obtain ⟨-, rfl⟩ := Prod.mk.inj (Except.ok.inj done)
    exact .refused
  · obtain ⟨-, done⟩ := require_bind_eq_ok.mp done
    obtain ⟨later, done⟩ := require_bind_eq_ok.mp done
    obtain ⟨outcome, lane, done⟩ := demand_bind_eq_ok.mp done
    obtain ⟨fresh, done⟩ := require_bind_eq_ok.mp done
    obtain ⟨recorded, stored, done⟩ := bind_eq_ok.mp done
    obtain ⟨-, rfl⟩ := Prod.mk.inj (Except.ok.inj done)
    obtain ⟨revision, rfl⟩ := record_eq_ok stored
    have isOpen := open_of_validateCurrentRevision current
    exact .keep found (.begin outcome isOpen later lane fresh) isOpen rfl fun _ authorized => authorized

theorem recordOutcomeCurrent_transition {outcome : RelayDeliveryOutcome} :
    Transition N capacity s (.recordOutcome writeId r revisionId eventId session attempt outcome)
      (recordOutcomeCurrent writeId r revisionId eventId session attempt outcome s).2 := by
  apply Transition.atomically
  intro answer s' done
  obtain ⟨_, bounded, done⟩ := bind_eq_ok.mp done
  obtain ⟨decided, done⟩ := require_bind_eq_ok.mp done
  obtain ⟨receipt, found, done⟩ := demand_bind_eq_ok.mp done
  obtain ⟨_, current, done⟩ := bind_eq_ok.mp done
  obtain ⟨tried, done⟩ := require_bind_eq_ok.mp done
  obtain ⟨previous, lane, done⟩ := demand_bind_eq_ok.mp done
  split at done
  · obtain ⟨-, rfl⟩ := Prod.mk.inj (Except.ok.inj done)
    exact .refused
  · obtain ⟨moves, done⟩ := require_bind_eq_ok.mp done
    obtain ⟨recorded, stored, done⟩ := bind_eq_ok.mp done
    obtain ⟨-, rfl⟩ := Prod.mk.inj (Except.ok.inj done)
    obtain ⟨revision, rfl⟩ := record_eq_ok stored
    have same := unrouted_settle
      (receipt.withDestinations (receipt.destinations.insert session outcome))
    refine .recorded found
      (.outcome previous (open_of_validateCurrentRevision current) bounded decided tried lane moves)
      (congrArg (·.current.publication.revisionId) same) ?_
    exact fun _ authorized =>
      .inr ((congrArg (·.current.publication.signature) same).trans authorized)

theorem cancel_transition : Transition N capacity s (.cancel r) (cancel r s).2 := by
  apply Transition.atomically
  intro answer s' done
  obtain ⟨revision, -, done⟩ := bind_eq_ok.mp done
  split at done
  · obtain ⟨-, rfl⟩ := Prod.mk.inj (Except.ok.inj done)
    exact .refused
  · rename_i receipt found
    split at done
    · obtain ⟨-, rfl⟩ := Prod.mk.inj (Except.ok.inj done)
      exact .refused
    · obtain ⟨⟨isOpen, untouched⟩, done⟩ := require_bind_eq_ok.mp done
      obtain ⟨-, rfl⟩ := Prod.mk.inj (Except.ok.inj done)
      exact .recorded found (.cancel (by simpa using isOpen) untouched) rfl fun _ _ => .inl rfl

theorem removeReceipt_transition :
    Transition N capacity s (.removeReceipt r) (removeReceipt r s).2 := by
  apply Transition.atomically
  intro answer s' done
  obtain ⟨finished, done⟩ := require_bind_eq_ok.mp done
  split at done
  · rename_i present
    obtain ⟨revision, -, done⟩ := bind_eq_ok.mp done
    obtain ⟨-, rfl⟩ := Prod.mk.inj (Except.ok.inj done)
    obtain ⟨receipt, found⟩ := Option.isSome_iff_exists.mp
      (ExtTreeMap.mem_iff_isSome_getElem?.mp present)
    refine .removed found ?_
    rw [found] at finished
    simpa using finished
  · obtain ⟨-, rfl⟩ := Prod.mk.inj (Except.ok.inj done)
    exact .refused

end Lifecycle

/-- Every operation, carried out or refused, is one of the transitions. -/
theorem perform_transition (N : Library) (capacity : Nat) (s : WriteState) (action : Action) :
    Transition N capacity s action (perform N capacity s action) := by
  cases action with
  | reserveActive => exact reserveActiveSlot_transition
  | releaseActive => exact releaseActiveSlot_transition
  | accept => exact accept_transition
  | acceptAppliedEdit => exact acceptSemanticInner_transition rfl
  | acceptReservedAppliedEdit => exact acceptSemanticInner_transition rfl
  | installRevision => exact installSemantic_transition
  | recordRevisionFailure => exact recordSemanticFailure_transition
  | installSigned => exact installSignedCurrent_transition
  | authorizeSigning => exact authorizeSigningCurrent_transition
  | recordSignerRetryable => exact recordSignerRetryableCurrent_transition
  | recordSignerRefusal => exact recordSignerRefusalCurrent_transition
  | applyRoute => exact applyRouteCurrent_transition
  | beginAttempt => exact beginAttemptCurrent_transition
  | recordOutcome => exact recordOutcomeCurrent_transition
  | cancel => exact cancel_transition
  | removeReceipt => exact removeReceipt_transition

section Receipts

/-- Every receipt in `s'` was there, is a change of one that was there, or is new. -/
def ReceiptsFrom (N : Library) (action : Action) (s s' : WriteState) : Prop :=
  ∀ (r : ReceiptId) (updated : Receipt), s'.writes[r]? = some updated →
    s.writes[r]? = some updated ∨
    (∃ receipt : Receipt, s.writes[r]? = some receipt ∧ Changes N r receipt action updated) ∨
    r = s.nextIdentity ∧ Enters N r updated

theorem ReceiptsFrom.same (writes : s'.writes = s.writes) : ReceiptsFrom N action s s' := by
  intro q found present
  rw [writes] at present
  exact .inl present

theorem ReceiptsFrom.change (found : s.writes[r]? = some receipt)
    (writes : s'.writes = s.writes.insert r updated) (changes : Changes N r receipt action updated) :
    ReceiptsFrom N action s s' := by
  intro q other present
  rw [writes, BTreeMap.find_insert] at present
  split at present
  · rename_i same
    subst same
    cases present
    exact .inr (.inl ⟨receipt, found, changes⟩)
  · exact .inl present

theorem ReceiptsFrom.enter (writes : s'.writes = s.writes.insert s.nextIdentity updated)
    (enters : Enters N s.nextIdentity updated) : ReceiptsFrom N action s s' := by
  intro q other present
  rw [writes, BTreeMap.find_insert] at present
  split at present
  · rename_i same
    cases present
    subst same
    exact .inr (.inr ⟨rfl, enters⟩)
  · exact .inl present

theorem ReceiptsFrom.erase (writes : s'.writes = s.writes.erase r) : ReceiptsFrom N action s s' := by
  intro q other present
  rw [writes] at present
  exact .inl (BTreeMap.find_of_erase present)

theorem writes_released : (released s r receipt).writes = s.writes := by
  unfold released
  split <;> rfl

theorem receipts_of_takeReservation {reservation : Option Nat} {c : EventCoordinate}
    (took : takeReservation reservation c s = .ok t) :
    t.writes = s.writes ∧ t.nextIdentity = s.nextIdentity := by
  obtain ⟨-, rfl⟩ | ⟨_, -, -, rfl⟩ := takeReservation_eq_ok took <;> exact ⟨rfl, rfl⟩

/-- What one operation can do to the receipts of the ledger. -/
theorem Transition.receipts (transition : Transition N capacity s action s') :
    ReceiptsFrom N action s s' := by
  cases transition with
  | refused | reserved | freed | deferred | abandoned => exact .same rfl
  | consumed _ took => exact .same (receipts_of_takeReservation took).1
  | queued _ took => exact .same (receipts_of_takeReservation took).1
  | accepted _ enters => exact .enter rfl enters
  | @opened _ o _ _ _ _ _ took _ _ _ counted made applied =>
    obtain ⟨writes, identity⟩ := receipts_of_takeReservation took
    rw [identity] at counted made
    refine .enter ?_ (.accepted _ _ _ o.routing o.access counted (.inl ⟨⟨_, rfl⟩, rfl⟩) made applied)
    show ExtTreeMap.insert _ _ _ = _
    rw [writes, identity]
  | @composed _ o _ _ _ _ _ _ _ took _ found _ composes unauthorized generated applied =>
    obtain ⟨writes, -⟩ := receipts_of_takeReservation took
    rw [writes] at found
    refine .change found ?_ (.restart o.event _ _ (.inl unauthorized)
      (.inl (by rw [composes.routing])) generated applied)
    show ExtTreeMap.insert _ _ _ = _
    rw [writes]
  | corrected found _ _ _ corrects unauthorized bounded generated applied =>
    exact .change found rfl (.correct _ _ corrects.isOpen unauthorized bounded generated applied)
  | failed found _ changes _ => exact .change found rfl changes
  | @promoted _ _ _ _ _ successor _ _ found _ _ due takes =>
    refine .change found rfl (.restart successor.event _ _ (.inr due) ?_ takes.generated takes.applied)
    unfold successorLanes
    split
    · exact .inr rfl
    · exact .inl rfl
  | recorded found changes _ _ => exact .change found writes_released changes
  | removed => exact .erase rfl

/-- A property of receipts holds throughout a run if receipts enter with it and no
operation takes it from them. -/
theorem run_receipts {G : WriteState → Action → Prop} {actions : List Action}
    (P : ReceiptId → Receipt → Prop) (enters : ∀ r receipt, Enters N r receipt → P r receipt)
    (changes : ∀ s action (r : ReceiptId) receipt updated, G s action →
      s.writes[r]? = some receipt → P r receipt → Changes N r receipt action updated → P r updated)
    (run : Run (step N capacity) G .default actions s) :
    ∀ (r : ReceiptId) (receipt : Receipt), s.writes[r]? = some receipt → P r receipt := by
  refine run.invariant (fun s => ∀ (r : ReceiptId) (receipt : Receipt),
    s.writes[r]? = some receipt → P r receipt) ?_ ?_
  · intro r receipt found
    simp only [WriteState.default, ExtTreeMap.getElem?_empty] at found
    cases found
  · intro t action u holds meets stepped r updated found
    obtain rfl := Option.some.inj stepped
    obtain kept | ⟨receipt, present, changed⟩ | ⟨-, new⟩ :=
      (perform_transition N capacity t action).receipts r updated found
    · exact holds r updated kept
    · exact changes t action r receipt updated meets present (holds r receipt present) changed
    · exact enters r updated new

end Receipts

end Fava.WriteStore.Memory
