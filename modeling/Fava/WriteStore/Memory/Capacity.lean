import Fava.WriteStore.Outcome
import Fava.WriteStore.Memory.Coherence
import Fava.WriteStore.Memory.Lanes

namespace Fava.WriteStore.Memory

open Std Fava.Lib Fava.Nostr Fava.Relay Fava.Routing Fava.Write

/-- How many reservations are of coordinates that nothing owns. -/
def reservedCount (s : WriteState) : Nat :=
  BTreeMap.count (fun coordinate => !s.coordinates.contains coordinate) s.reservations

/-- The revision replaces the current generation of a head at once, with a route that ends it. -/
def endsHead (N : Library) (now : Timestamp) (receipt : Receipt) (cell : SemanticCell)
    (event : UnsignedEvent) (source : Option EventValue) (route : Option RoutePlan) : Bool :=
  receipt.current.publication.signature ≠ .authorized && receipt.routing = .automatic &&
  (cell.edits.getLast?.any fun edit =>
    match validateRevision N now edit cell.author event source receipt.routing with
    | .error _ => false
    | .ok selected => qualified cell.source selected && event.id.any fun id =>
      eventIsNewer (event.createdAt, id) (receipt.current.event.createdAt, receipt.current.id)) &&
  route.any fun plan => settlesNowhere plan && receipt.routeRevision < plan.revision

/-- What waits behind the head has a route that ends it. -/
def waitsNowhere (s : WriteState) (r : ReceiptId) : Bool :=
  (s.successors[r]?).any fun successor => successor.route.any settlesNowhere

/-- The operation ends a head and leaves it its coordinate. -/
def strandsHead (N : Library) (s : WriteState) : Action → Bool
  | .installRevision now writeId r expected expectedSource appliedEdits event source route =>
    (s.writes[r]?).any fun receipt => (s.edits[r]?).any fun cell =>
      (requireCurrent receipt writeId expected expectedSource cell.source).isOk &&
      cell.edits = appliedEdits && endsHead N now receipt cell event source route
  | .installSigned writeId r revisionId eventId event =>
    waitsNowhere s r && (N.verify event).isOk && (s.writes[r]?).any fun receipt =>
      (validateCurrentRevision receipt writeId revisionId eventId).isOk &&
      match receipt.current.event with
      | .unsigned unsigned => signs event unsigned
      | .signed _ => false
  | .recordSignerRetryable writeId r revisionId eventId reason
  | .recordSignerRefusal writeId r revisionId eventId reason =>
    waitsNowhere s r && (validateReceiptText reason).isOk && (s.writes[r]?).any fun receipt =>
      (validateCurrentRevision receipt writeId revisionId eventId).isOk
  | _ => false

/-- A head that ends gives its coordinate up. -/
def Housed (N : Library) (s : WriteState) (action : Action) : Prop := strandsHead N s action = false

instance (N : Library) (s : WriteState) (action : Action) : Decidable (Housed N s action) :=
  inferInstanceAs (Decidable (_ = _))

/-- There is room for everything active or reserved, no coordinate is reserved twice, and
only open heads own coordinates. -/
structure Fitting (capacity : Nat) (s : WriteState) : Prop where
  fits : activeCount s + reservedCount s ≤ capacity
  apart : ∀ (i j : Nat) (c : EventCoordinate), s.reservations[i]? = some c →
    s.reservations[j]? = some c → i = j
  numbered : ∀ i ∈ s.reservations, i < s.nextReservation
  owners : ∀ (c : EventCoordinate) (r : ReceiptId), s.coordinates[c]? = some r →
    ∃ receipt : Receipt, s.writes[r]? = some receipt ∧ receipt.isTerminal = false

variable {N : Library} {capacity : Nat} {action : Action} {s s' t : WriteState} {r : ReceiptId}
  {receipt updated : Receipt} {cell : SemanticCell} {c : EventCoordinate}

section Counting

theorem capacityReached_eq_false : capacityReached s capacity = false ↔
    activeCount s + reservedCount s < capacity := by
  rw [capacityReached, decide_eq_false_iff_not, ge_iff_le, Nat.not_le]
  rfl

/-- The active writes once one receipt is put in its place. -/
theorem activeCount_insert (writes : s'.writes = s.writes.insert r updated)
    (found : s.writes[r]? = some receipt) :
    activeCount s' + (!receipt.isTerminal).toNat = activeCount s + (!updated.isTerminal).toNat := by
  change BTreeMap.count (fun receipt => !receipt.isTerminal) s'.writes + _ =
    BTreeMap.count (fun receipt => !receipt.isTerminal) s.writes + _
  rw [writes]
  exact BTreeMap.count_insert_of_find found

theorem activeCount_enter (writes : s'.writes = s.writes.insert r updated)
    (absent : s.writes[r]? = none) :
    activeCount s' = activeCount s + (!updated.isTerminal).toNat := by
  change BTreeMap.count (fun receipt => !receipt.isTerminal) s'.writes =
    BTreeMap.count (fun receipt => !receipt.isTerminal) s.writes + _
  rw [writes]
  exact BTreeMap.count_insert_of_none absent

/-- Coordinates that are given up leave the reservations of them without an owner. -/
theorem reservedCount_le (reservations : s'.reservations = s.reservations)
    (given : ∀ c ∈ s.coordinates, c ∈ s'.coordinates) : reservedCount s' ≤ reservedCount s := by
  unfold reservedCount
  rw [reservations]
  refine BTreeMap.count_mono fun c _ vacant => ?_
  rw [Bool.not_eq_true', ← Bool.not_eq_true, ExtTreeMap.contains_iff_mem] at vacant ⊢
  exact fun owned => vacant (given c owned)

/-- A receipt without a cell before or after owns no coordinate, so that nothing but the
coordinate of its cell can become vacant. -/
theorem owner_of_vacant (before : Coherent N s) (after : Coherent N s')
    (elsewhere : ∀ q, r ≠ q → s'.edits[q]? = s.edits[q]?) (owned : c ∈ s.coordinates)
    (vacant : c ∉ s'.coordinates) : s.coordinates[c]? = some r := by
  obtain ⟨q, owner⟩ := Option.isSome_iff_exists.mp (ExtTreeMap.mem_iff_isSome_getElem?.mp owned)
  by_cases same : r = q
  · rw [owner, same]
  · have still := (before.heads c q).mp owner
    rw [← elsewhere q same] at still
    have owner := (after.heads c q).mpr still
    exact (vacant (ExtTreeMap.mem_iff_isSome_getElem?.mpr (by rw [owner]; rfl))).elim

end Counting

section Steps

theorem Fitting.of_same (h : Fitting capacity s) (writes : s'.writes = s.writes)
    (coordinates : s'.coordinates = s.coordinates) (reservations : s'.reservations = s.reservations)
    (next : s'.nextReservation = s.nextReservation) : Fitting capacity s' where
  fits := by
    rw [activeCount, writes]
    exact (Nat.add_le_add_left (reservedCount_le reservations (by rw [coordinates]; exact fun _ h => h))
      _).trans h.fits
  apart := by
    rw [reservations]
    exact h.apart
  numbered := by
    rw [reservations, next]
    exact h.numbered
  owners := by
    rw [writes, coordinates]
    exact h.owners

theorem Fitting.erase {reservation : Nat} (h : Fitting capacity s) :
    Fitting capacity { s with reservations := s.reservations.erase reservation } where
  fits := (Nat.add_le_add_left BTreeMap.count_erase_le _).trans h.fits
  apart i j d first second := by
    have kept : ∀ (k : Nat) (e : EventCoordinate),
        (s.reservations.erase reservation)[k]? = some e → s.reservations[k]? = some e :=
      fun _ _ => BTreeMap.find_of_erase
    exact h.apart i j d (kept i d first) (kept j d second)
  numbered i member := h.numbered i (ExtTreeMap.mem_of_mem_erase member)
  owners := h.owners

theorem Fitting.take {reservation : Option Nat} (h : Fitting capacity s)
    (took : takeReservation reservation c s = .ok t) : Fitting capacity t := by
  obtain ⟨-, rfl⟩ | ⟨id, -, -, rfl⟩ := takeReservation_eq_ok took
  · exact h
  · exact h.erase

/-- A vacant coordinate is reserved while there is room for its head. -/
theorem Fitting.reserve (h : Fitting capacity s) (unreserved : isReserved s c = false)
    (room : c ∈ s.coordinates ∨ capacityReached s capacity = false) :
    Fitting capacity { s with
      nextReservation := s.nextReservation + 1
      reservations := s.reservations.insert s.nextReservation c } := by
  have fresh : s.nextReservation ∉ s.reservations := fun member =>
    Nat.lt_irrefl _ (h.numbered _ member)
  have elsewhere : ∀ i : Nat, s.reservations[i]? ≠ some c := by
    intro i found
    rw [isReserved, List.any_eq_false] at unreserved
    exact unreserved c (BTreeMap.mem_values.mpr ⟨i, found⟩) (decide_eq_true rfl)
  refine ⟨?_, ?_, ?_, h.owners⟩
  · have counted : reservedCount { s with
        nextReservation := s.nextReservation + 1
        reservations := s.reservations.insert s.nextReservation c } =
        reservedCount s + (!s.coordinates.contains c).toNat := by
      unfold reservedCount
      rw [BTreeMap.count_insert, BTreeMap.erase_of_not_mem fresh]
    rw [counted]
    obtain owned | room := room
    · rw [ExtTreeMap.contains_iff_mem.mpr owned]
      exact h.fits
    · rw [capacityReached_eq_false] at room
      exact Nat.le_trans (Nat.add_le_add_left (Nat.add_le_add_left (Bool.toNat_le _) _) _) room
  · intro i j d first second
    rw [BTreeMap.find_insert] at first second
    split at first <;> split at second
    · rename_i here there
      exact here.symm.trans there
    · cases first
      exact (elsewhere j second).elim
    · cases second
      exact (elsewhere i first).elim
    · exact h.apart i j d first second
  · intro i member
    obtain here | before := ExtTreeMap.mem_insert.mp member
    · rw [← LawfulEqCmp.compare_eq_iff_eq.mp here]
      exact Nat.lt_succ_self _
    · exact Nat.lt_succ_of_lt (h.numbered i before)

/-- What takes a reservation, or finds room without one, may open a head. -/
theorem Fitting.room {reservation : Option Nat} (h : Fitting capacity s)
    (took : takeReservation reservation c s = .ok t) (vacant : t.coordinates[c]? = none)
    (room : reservation.isSome = true ∨ capacityReached t capacity = false) :
    activeCount t + reservedCount t < capacity := by
  obtain ⟨rfl, rfl⟩ | ⟨id, rfl, reserved, rfl⟩ := takeReservation_eq_ok took
  · exact capacityReached_eq_false.mp (room.resolve_left Bool.false_ne_true)
  · have unowned : s.coordinates.contains c = false := by
      rw [← Bool.not_eq_true, ExtTreeMap.contains_iff_mem, ExtTreeMap.mem_iff_isSome_getElem?]
      rw [show s.coordinates[c]? = none from vacant]
      exact Bool.false_ne_true
    have counted : reservedCount s =
        reservedCount { s with reservations := s.reservations.erase id } + 1 := by
      unfold reservedCount
      rw [BTreeMap.count_of_find reserved, unowned]
      rfl
    have fits := h.fits
    rw [counted] at fits
    exact fits

/-- A receipt enters where there is room for it. -/
theorem Fitting.enter (h : Fitting capacity s) (room : activeCount s + reservedCount s < capacity)
    (absent : s.writes[r]? = none) (writes : s'.writes = s.writes.insert r updated)
    (owned : ∀ (c : EventCoordinate) (q : ReceiptId), s'.coordinates[c]? = some q →
      s.coordinates[c]? = some q ∨ q = r ∧ updated.isTerminal = false)
    (given : ∀ c ∈ s.coordinates, c ∈ s'.coordinates)
    (reservations : s'.reservations = s.reservations)
    (next : s'.nextReservation = s.nextReservation) : Fitting capacity s' where
  fits := by
    rw [activeCount_enter writes absent]
    have entered := Bool.toNat_le (!updated.isTerminal)
    have reserved := reservedCount_le reservations given
    omega
  apart := by
    rw [reservations]
    exact h.apart
  numbered := by
    rw [reservations, next]
    exact h.numbered
  owners d q owner := by
    rw [writes]
    obtain before | ⟨rfl, isOpen⟩ := owned d q owner
    · obtain ⟨other, found, isOpen⟩ := h.owners d q before
      have apart : r ≠ q := by
        rintro rfl
        rw [absent] at found
        cases found
      exact ⟨other, (BTreeMap.find_insert_of_ne apart).trans found, isOpen⟩
    · exact ⟨updated, BTreeMap.find_insert_self, isOpen⟩

/-- An open receipt that stays open keeps its place. -/
theorem Fitting.replace (h : Fitting capacity s) (found : s.writes[r]? = some receipt)
    (writes : s'.writes = s.writes.insert r updated)
    (same : updated.isTerminal = receipt.isTerminal) (coordinates : s'.coordinates = s.coordinates)
    (reservations : s'.reservations = s.reservations)
    (next : s'.nextReservation = s.nextReservation) : Fitting capacity s' where
  fits := by
    have active := activeCount_insert writes found
    rw [same] at active
    have reserved := reservedCount_le reservations (by rw [coordinates]; exact fun _ h => h)
    have fits := h.fits
    omega
  apart := by
    rw [reservations]
    exact h.apart
  numbered := by
    rw [reservations, next]
    exact h.numbered
  owners d q owner := by
    rw [coordinates] at owner
    obtain ⟨other, present, isOpen⟩ := h.owners d q owner
    rw [writes, BTreeMap.find_insert]
    split
    · rename_i here
      subst here
      rw [found] at present
      cases present
      exact ⟨updated, rfl, same.trans isOpen⟩
    · exact ⟨other, present, isOpen⟩

/-- What is kept under one receipt decides about one coordinate at most, and that is
reserved once at most. -/
theorem Fitting.reservedCount_le_succ (h : Fitting capacity s) (before : Coherent N s)
    (after : Coherent N s') (elsewhere : ∀ q, r ≠ q → s'.edits[q]? = s.edits[q]?)
    (reservations : s'.reservations = s.reservations) : reservedCount s' ≤ reservedCount s + 1 := by
  by_cases owns : ∃ c : EventCoordinate, s.coordinates[c]? = some r
  · obtain ⟨c, owner⟩ := owns
    unfold reservedCount
    rw [reservations]
    refine BTreeMap.count_le_succ (v := c) (fun i j => h.apart i j c) fun d vacant => ?_
    rw [Bool.not_eq_true', ← Bool.not_eq_true, ExtTreeMap.contains_iff_mem] at vacant ⊢
    by_cases owned : d ∈ s.coordinates
    · have ownerToo := owner_of_vacant before after elsewhere owned vacant
      have same := ((before.heads d r).mp ownerToo).symm.trans ((before.heads c r).mp owner)
      exact .inr (Option.some.inj same)
    · exact .inl owned
  · refine Nat.le_succ_of_le (reservedCount_le reservations fun c owned => ?_)
    by_contra vacant
    exact owns ⟨c, owner_of_vacant before after elsewhere owned vacant⟩

theorem Fitting.owners_of_release (h : Fitting capacity s) (before : Coherent N s)
    (after : Coherent N s') (elsewhere : ∀ q, r ≠ q → s'.edits[q]? = s.edits[q]?)
    (gone : s'.edits[r]? = none) (writes : ∀ q, r ≠ q → s'.writes[q]? = s.writes[q]?) :
    ∀ (c : EventCoordinate) (q : ReceiptId), s'.coordinates[c]? = some q →
      ∃ receipt : Receipt, s'.writes[q]? = some receipt ∧ receipt.isTerminal = false := by
  intro c q owner
  have held := (after.heads c q).mp owner
  have other : r ≠ q := by
    rintro rfl
    rw [gone] at held
    cases held
  rw [elsewhere q other] at held
  rw [writes q other]
  exact h.owners c q ((before.heads c q).mpr held)

/-- A receipt that ends makes room for one reservation of the coordinate it gives up. -/
theorem Fitting.release (h : Fitting capacity s) (before : Coherent N s) (after : Coherent N s')
    (found : s.writes[r]? = some receipt) (isOpen : receipt.isTerminal = false)
    (terminal : updated.isTerminal = true) (writes : s'.writes = s.writes.insert r updated)
    (edits : s'.edits = s.edits.erase r) (reservations : s'.reservations = s.reservations)
    (next : s'.nextReservation = s.nextReservation) : Fitting capacity s' := by
  have elsewhere : ∀ q, r ≠ q → s'.edits[q]? = s.edits[q]? := by
    intro q other
    rw [edits]
    exact BTreeMap.find_erase_of_ne other
  refine ⟨?_, ?_, ?_, ?_⟩
  · have active := activeCount_insert writes found
    rw [isOpen, terminal] at active
    have reserved := h.reservedCount_le_succ before after elsewhere reservations
    have fits := h.fits
    change _ + 1 = _ + 0 at active
    omega
  · rw [reservations]
    exact h.apart
  · rw [reservations, next]
    exact h.numbered
  · refine h.owners_of_release before after elsewhere (by rw [edits]; exact BTreeMap.find_erase_self)
      fun q other => ?_
    rw [writes]
    exact BTreeMap.find_insert_of_ne other

/-- A receipt that is removed had ended before, and owned nothing. -/
theorem Fitting.remove {revision : Nat} (h : Fitting capacity s) (before : Coherent N s)
    (found : s.writes[r]? = some receipt) (terminal : receipt.isTerminal = true) :
    Fitting capacity { releaseSemantic s r with revision := revision, writes := s.writes.erase r } := by
  have elsewhere : ∀ q, r ≠ q → (s.edits.erase r)[q]? = s.edits[q]? := fun q other =>
    BTreeMap.find_erase_of_ne other
  have after : Coherent N { releaseSemantic s r with
      revision := revision, writes := s.writes.erase r } := before.remove found
  have unowned : ∀ (d : EventCoordinate) (q : ReceiptId), s.coordinates[d]? = some q → r ≠ q := by
    rintro d _ owner rfl
    obtain ⟨other, present, isOpen⟩ := h.owners d r owner
    rw [found] at present
    cases present
    rw [terminal] at isOpen
    cases isOpen
  refine ⟨?_, h.apart, h.numbered, ?_⟩
  · have active : BTreeMap.count (fun receipt => !receipt.isTerminal) (s.writes.erase r) =
        activeCount s := by
      have counted := BTreeMap.count_of_find (p := fun receipt => !receipt.isTerminal) found
      rw [terminal] at counted
      exact counted.symm
    have reserved : reservedCount { releaseSemantic s r with
        revision := revision, writes := s.writes.erase r } ≤ reservedCount s := by
      refine reservedCount_le rfl fun c owned => ?_
      by_contra vacant
      exact unowned c r (owner_of_vacant before after elsewhere owned vacant) rfl
    exact (Nat.add_le_add (Nat.le_of_eq active) reserved).trans h.fits
  · exact h.owners_of_release before after elsewhere BTreeMap.find_erase_self
      fun q other => BTreeMap.find_erase_of_ne other

end Steps

section Endings

variable {now : Timestamp} {writeId : WriteId} {expected : RevisionId}
  {expectedSource : Option EventId} {appliedEdits : List EventEdit} {event : UnsignedEvent}
  {source : Option EventValue} {selected : Option Source} {route : Option RoutePlan}
  {current : LocalWriteEvent} {successor : Successor}

theorem endsHead_of_corrects (corrects : Corrects N now receipt cell event source selected route)
    (unauthorized : receipt.current.publication.signature ≠ .authorized)
    (automatic : receipt.routing = .automatic)
    (ends : ∃ plan ∈ route, settlesNowhere plan = true ∧ receipt.routeRevision < plan.revision) :
    endsHead N now receipt cell event source route = true := by
  obtain ⟨edit, last, valid⟩ := corrects.valid
  obtain ⟨id, known, newer⟩ := corrects.newer
  obtain ⟨plan, given, nowhere, later⟩ := ends
  simp only [endsHead, Bool.and_eq_true, decide_eq_true_eq, Option.any_eq_true]
  refine ⟨⟨⟨unauthorized, automatic⟩, edit, last, ?_⟩, plan, given, nowhere, later⟩
  rw [valid]
  simp only [corrects.qualified, Bool.true_and, Option.any_eq_true]
  exact ⟨id, known, newer⟩

/-- A head that takes a correction stays open. -/
theorem open_of_corrected (housed : Housed N s
      (.installRevision now writeId r expected expectedSource appliedEdits event source route))
    (found : s.writes[r]? = some receipt) (held : s.edits[r]? = some cell)
    (stands : requireCurrent receipt writeId expected expectedSource cell.source = .ok ())
    (complete : cell.edits = appliedEdits)
    (corrects : Corrects N now receipt cell event source selected route)
    (unauthorized : receipt.current.publication.signature ≠ .authorized)
    (generated : nextGeneration r receipt event (selected.map Prod.fst)
      (BTreeMap.constant (correctionDestinations receipt).toList .pending) = .ok current)
    (applied : applyInitialRoute N
      { receipt with
        current := current
        outcome := .isOpen
        desiredDestinations := correctionDestinations receipt
        attempts := ∅ } route = .ok updated) : updated.isTerminal = false := by
  obtain ⟨id, -, rfl⟩ := nextGeneration_eq_ok generated
  by_contra terminal
  obtain ⟨plan, given, nowhere, automatic, later⟩ := settlesNowhere_of_terminal (by rfl)
    (fun _ _ lane => pending_of_constant lane) applied (by simpa using terminal)
  have strands : strandsHead N s
      (.installRevision now writeId r expected expectedSource appliedEdits event source route) =
        true := by
    simp only [strandsHead, Option.any_eq_true, Bool.and_eq_true, decide_eq_true_eq, isOk_iff]
    exact ⟨receipt, found, cell, held, ⟨⟨(), stands⟩, complete⟩,
      endsHead_of_corrects corrects unauthorized automatic ⟨plan, given, nowhere, later⟩⟩
  rw [show strandsHead N s _ = false from housed] at strands
  cases strands

/-- A waiting generation ends its head only with a route that leads nowhere. -/
theorem waitsNowhere_of_takesOver (waiting : s.successors[r]? = some successor)
    (takes : TakesOver N r receipt successor current updated) (terminal : updated.isTerminal = true) :
    waitsNowhere s r = true := by
  obtain ⟨id, -, rfl⟩ := nextGeneration_eq_ok takes.generated
  have untried : ∀ (session : RelayUrl) (outcome : RelayDeliveryOutcome),
      (successorLanes receipt successor)[session]? = some outcome → outcome = .pending := by
    intro session outcome lane
    unfold successorLanes at lane
    split at lane
    · exact pending_of_constant lane
    · exact pending_of_destinations lane
  obtain ⟨plan, given, nowhere, -⟩ := settlesNowhere_of_terminal (by rfl)
    (fun _ _ lane => untried _ _ lane) takes.applied terminal
  simp only [waitsNowhere, Option.any_eq_true]
  exact ⟨successor, waiting, plan, given, nowhere⟩

/-- A head that a waiting generation takes over stays open. -/
theorem open_of_promoted (housed : Housed N s action) (found : s.writes[r]? = some receipt)
    (waiting : s.successors[r]? = some successor) (due : Concludes N r receipt action)
    (takes : TakesOver N r receipt successor current updated) : updated.isTerminal = false := by
  by_contra terminal
  have waits := waitsNowhere_of_takesOver waiting takes (by simpa using terminal)
  have strands : strandsHead N s action = true := by
    cases action with
    | installSigned =>
      obtain ⟨rfl, stands, verified, unsigned, holding, signed⟩ := due
      simp only [strandsHead, waits, Bool.true_and, Bool.and_eq_true, Option.any_eq_true, isOk_iff]
      refine ⟨⟨(), verified⟩, receipt, found, ⟨(), stands⟩, ?_⟩
      rw [holding]
      exact decide_eq_true signed
    | recordSignerRetryable | recordSignerRefusal =>
      obtain ⟨rfl, bounded, stands⟩ := due
      simp only [strandsHead, waits, Bool.true_and, Bool.and_eq_true, Option.any_eq_true, isOk_iff]
      exact ⟨⟨(), bounded⟩, receipt, found, (), stands⟩
    | _ => cases due
  rw [show strandsHead N s action = false from housed] at strands
  cases strands

theorem open_of_concludes (due : Concludes N r receipt action) : receipt.isTerminal = false := by
  cases action with
  | installSigned => exact open_of_validateCurrentRevision due.2.1
  | recordSignerRetryable | recordSignerRefusal => exact open_of_validateCurrentRevision due.2.2
  | _ => cases due

end Endings

/-- Every transition in which no head keeps its coordinate beyond its end leaves everything
within the capacity. -/
theorem Fitting.transition (h : Fitting capacity s) (coherent : Coherent N s)
    (housed : Housed N s action) (transition : Transition N capacity s action s') :
    Fitting capacity s' := by
  have after := coherent.transition transition
  cases transition with
  | refused => exact h
  | reserved unreserved _ room => exact h.reserve unreserved room
  | freed => exact h.erase
  | accepted room =>
    exact h.enter (capacityReached_eq_false.mp room) coherent.unused.1 rfl
      (fun _ _ owner => .inl owner) (fun _ owned => owned) rfl rfl
  | consumed _ took => exact h.take took
  | @opened _ o t _ _ receipt _ took vacant room =>
    refine (h.take took).enter (h.room took vacant room) (coherent.take took).unused.1 rfl ?_ ?_ rfl rfl
    · intro d q owner
      dsimp only at owner
      split at owner
      · exact .inl owner
      · rename_i isOpen
        rw [BTreeMap.find_insert] at owner
        split at owner
        · cases owner
          exact .inr ⟨rfl, by simpa using isOpen⟩
        · exact .inl owner
    · intro d owned
      dsimp only
      split
      · exact owned
      · exact ExtTreeMap.mem_insert.mpr (.inr owned)
  | queued _ took => exact (h.take took).of_same rfl rfl rfl rfl
  | @composed _ o t r receipt updated _ _ _ took owner found =>
    obtain ⟨other, present, isOpen⟩ := (h.take took).owners _ r owner
    rw [found] at present
    cases present
    by_cases terminal : updated.isTerminal = true
    · simp only [if_pos terminal] at after ⊢
      exact (h.take took).release (coherent.take took) after found isOpen terminal rfl rfl rfl rfl
    · simp only [if_neg terminal]
      exact (h.take took).replace found rfl (by rw [isOpen]; simpa using terminal) rfl rfl rfl
  | deferred => exact h.of_same rfl rfl rfl rfl
  | corrected found held stands complete corrects unauthorized _ generated applied =>
    have stays := open_of_corrected housed found held stands complete corrects unauthorized generated
      applied
    exact h.replace found rfl (stays.trans corrects.isOpen.symm) rfl rfl rfl
  | failed found _ _ kept =>
    obtain ⟨failure, rfl⟩ := kept
    exact h.replace found rfl rfl rfl rfl rfl
  | promoted found _ waiting due takes =>
    have stays := open_of_promoted housed found waiting due takes
    exact h.replace found rfl (stays.trans (open_of_concludes due).symm) rfl rfl rfl
  | abandoned => exact h.of_same rfl rfl rfl rfl
  | @recorded _ r _ updated _ found changes kept =>
    obtain ⟨isOpen, -⟩ := changes.continues kept
    unfold released at after ⊢
    by_cases terminal : updated.isTerminal = true
    · rw [if_pos terminal] at after ⊢
      exact h.release coherent after found isOpen terminal rfl rfl rfl rfl
    · rw [if_neg terminal]
      exact h.replace found rfl (by rw [isOpen]; simpa using terminal) rfl rfl rfl
  | removed found terminal => exact h.remove coherent found terminal

/-- While heads give their coordinates up when they end, active writes and reservations of
coordinates that are not active stay within the capacity together. -/
theorem capacity_kept_of_housed {actions : List Action}
    (run : Run (step N capacity) (Housed N) .default actions s) :
    activeCount s + reservedCount s ≤ capacity := by
  suffices Fitting capacity s ∧ Coherent N s from this.1.fits
  refine run.invariant (fun s => Fitting capacity s ∧ Coherent N s) ⟨?_, default_coherent⟩ ?_
  · refine ⟨Nat.zero_le _, ?_, ?_, ?_⟩
    · intro i j c found
      simp only [WriteState.default, ExtTreeMap.getElem?_empty] at found
      cases found
    · intro i member
      simp only [WriteState.default, ExtTreeMap.not_mem_empty] at member
    · intro c r owner
      simp only [WriteState.default, ExtTreeMap.getElem?_empty] at owner
      cases owner
  · rintro t action u ⟨fitting, coherent⟩ housed stepped
    obtain rfl := Option.some.inj stepped
    have transition := perform_transition N capacity t action
    exact ⟨fitting.transition coherent housed transition, coherent.transition transition⟩

section Sample

def nowhere : RoutePlan := ⟨1, ∅, ∅, ∅, []⟩

def listBefore : Event := ⟨19, 7, 9, 3, [], "", 0⟩

def thirdList : UnsignedEvent := ⟨some 22, 7, 12, 3, [], ""⟩

/-- A correction of the first list that comes with a route. -/
def correctedList (route : RoutePlan) : List Action :=
  [.acceptAppliedEdit 10 (listEdit []) firstList none,
    .installRevision 11 1 1 1 none [⟨3, none, []⟩] secondList (some (.signed listBefore)) (some route)]

/-- The place of a head that ended goes to a note before the next edit reopens the head. -/
def reopenedHead : List Action :=
  correctedList nowhere ++ [.accept ⟨.presigned note, .automatic, .unauthenticated⟩,
    .acceptAppliedEdit 12 (listEdit [1]) thirdList (some (.unsigned secondList))]

/-- A head that ended keeps its coordinate, and is opened again without asking for room. -/
theorem reopened_head_passes_capacity : ∃ s,
    Run (step plainLibrary 1) Free .default reopenedHead s ∧
      ¬activeCount s + reservedCount s ≤ 1 := by
  obtain ⟨s, run, checked⟩ := Run.of_any (show (exec (step plainLibrary 1) Free .default
    reopenedHead).any (fun s => !decide (activeCount s + reservedCount s ≤ 1)) = true by
      decide +kernel)
  rw [Bool.not_eq_true', decide_eq_false_iff_not] at checked
  exact ⟨s, run, checked⟩

/-- A correction that leads to a relay keeps the place its head has. -/
theorem capacity_kept_after_correction : ∃ s,
    Run (step plainLibrary 1) (Housed plainLibrary) .default
      (correctedList (planTo 1 "wss://a.example")) s ∧
      activeCount s = 1 ∧ activeCount s + reservedCount s ≤ 1 := by
  obtain ⟨s, run, checked⟩ := Run.of_any (show (exec (step plainLibrary 1) (Housed plainLibrary)
    .default (correctedList (planTo 1 "wss://a.example"))).any (fun s => activeCount s = 1 &&
      (s.writes[1]?).any fun receipt => receipt.current.id = 21) = true by decide +kernel)
  rw [Bool.and_eq_true, decide_eq_true_eq] at checked
  exact ⟨s, run, checked.1, capacity_kept_of_housed run⟩

end Sample

end Fava.WriteStore.Memory
