import Fava.WriteStore.Memory.Lifecycle

namespace Fava.WriteStore.Memory

open Std Fava.Lib Fava.Nostr Fava.Relay Fava.Routing Fava.Write

/-- The edits a receipt took, in the order they were accepted in. -/
def WriteState.accepted (state : WriteState) (receiptId : ReceiptId) : List EventEdit :=
  state.taken.filterMap fun (id, edit) => if id = receiptId then some edit else none

/-- The coordinate whose ownership goes with a cell. -/
def SemanticCell.coordinate (cell : SemanticCell) : Option EventCoordinate :=
  cell.edits.getLast?.map (editCoordinate · cell.author)

/-- A receipt holds the revision a cell describes. -/
structure Holds (N : Library) (receipt : Receipt) (cell : SemanticCell) (c : EventCoordinate) :
    Prop where
  author : receipt.current.event.author = cell.author
  coordinate : receipt.current.event.coordinate N = .ok c
  last : cell.coordinate = some c
  edits : ∀ edit ∈ cell.edits, editCoordinate edit cell.author = c
  source : receipt.current.publication.revisionSource = cell.source.map Prod.fst

/-- A successor that can take over as soon as the signing of the head is decided. -/
structure Waits (N : Library) (receipt : Receipt) (cell : SemanticCell) (successor : Successor)
    (c : EventCoordinate) : Prop where
  authorized : receipt.current.publication.signature = .authorized
  bounded : receipt.current.publication.retiredRevisions.length < destinationEvidenceCapacity
  author : successor.event.pubkey = cell.author
  coordinate : (EventValue.unsigned successor.event).coordinate N = .ok c
  edit : ∀ edit ∈ successor.edit, editCoordinate edit cell.author = c
  route : ∀ plan ∈ successor.route, PlanFits N receipt.routing plan

/-- Generations are numbered from one without a gap. -/
def Counted (receipt : Receipt) : Prop :=
  receipt.current.publication.revisionId = receipt.current.publication.retiredRevisions.length + 1

/-- What a ledger may keep under one identity: nothing, a receipt without custody, the
head of a coordinate, or a head with the successor that waits for it. -/
inductive Kept (N : Library) : Option Receipt → Option SemanticCell → Option Successor →
    List EventEdit → Prop
  | absent {accepted : List EventEdit} : Kept N none none none accepted
  | plain {receipt : Receipt} {accepted : List EventEdit} (counted : Counted receipt)
      (idle : receipt.isTerminal = true ∨ accepted = []) : Kept N (some receipt) none none accepted
  | head {receipt : Receipt} {cell : SemanticCell} {accepted : List EventEdit}
      (c : EventCoordinate) (counted : Counted receipt) (holds : Holds N receipt cell c)
      (taken : accepted = cell.edits) : Kept N (some receipt) (some cell) none accepted
  | waiting {receipt : Receipt} {cell : SemanticCell} {successor : Successor}
      {accepted : List EventEdit} (c : EventCoordinate) (counted : Counted receipt)
      (holds : Holds N receipt cell c) (waits : Waits N receipt cell successor c)
      (taken : accepted = cell.edits ++ successor.edit.toList) :
      Kept N (some receipt) (some cell) (some successor) accepted

/-- Everything kept is coherent, coordinates name exactly the cells at them, and
identities are not used twice. -/
structure Coherent (N : Library) (s : WriteState) : Prop where
  kept : ∀ r, Kept N s.writes[r]? s.edits[r]? s.successors[r]? (s.accepted r)
  heads : ∀ c r, s.coordinates[c]? = some r ↔ s.edits[r]?.bind SemanticCell.coordinate = some c
  fresh : ∀ r, s.nextIdentity ≤ r → s.writes[r]? = none ∧ s.accepted r = []

variable {N : Library} {s s' : WriteState} {r : ReceiptId} {receipt updated : Receipt}
  {cell : SemanticCell} {successor : Successor} {c : EventCoordinate} {edit : EventEdit}

theorem accepted_append_self : ({ s with taken := s.taken ++ [(r, edit)] } : WriteState).accepted r =
    s.accepted r ++ [edit] := by
  simp [WriteState.accepted, List.filterMap_append]

theorem accepted_append_of_ne {q : ReceiptId} (h : r ≠ q) :
    ({ s with taken := s.taken ++ [(r, edit)] } : WriteState).accepted q = s.accepted q := by
  simp [WriteState.accepted, List.filterMap_append, h]

/-- Only what is kept under `r` may differ. -/
structure Elsewhere (r : ReceiptId) (s s' : WriteState) : Prop where
  writes : ∀ q, r ≠ q → s'.writes[q]? = s.writes[q]?
  edits : ∀ q, r ≠ q → s'.edits[q]? = s.edits[q]?
  successors : ∀ q, r ≠ q → s'.successors[q]? = s.successors[q]?
  accepted : ∀ q, r ≠ q → s'.accepted q = s.accepted q

/-- A change of what one identity keeps leaves the ledger coherent if what it keeps is
coherent and the coordinates follow. -/
theorem Coherent.change (h : Coherent N s) (elsewhere : Elsewhere r s s')
    (kept : Kept N s'.writes[r]? s'.edits[r]? s'.successors[r]? (s'.accepted r))
    (own : ∀ c : EventCoordinate,
      s'.coordinates[c]? = some r ↔ s'.edits[r]?.bind SemanticCell.coordinate = some c)
    (others : ∀ (c : EventCoordinate) q, r ≠ q →
      (s'.coordinates[c]? = some q ↔ s.coordinates[c]? = some q))
    (counts : s.nextIdentity ≤ s'.nextIdentity) (used : r < s'.nextIdentity) : Coherent N s' where
  kept q := by
    by_cases same : r = q
    · subst same
      exact kept
    · rw [elsewhere.writes q same, elsewhere.edits q same, elsewhere.successors q same,
        elsewhere.accepted q same]
      exact h.kept q
  heads c q := by
    by_cases same : r = q
    · subst same
      exact own c
    · rw [others c q same, elsewhere.edits q same]
      exact h.heads c q
  fresh q new := by
    have same : r ≠ q := by
      rintro rfl
      exact absurd used (Nat.not_lt.mpr new)
    rw [elsewhere.writes q same, elsewhere.accepted q same]
    exact h.fresh q (Nat.le_trans counts new)

theorem Coherent.used (h : Coherent N s) (found : s.writes[r]? = some receipt) :
    r < s.nextIdentity := by
  by_contra new
  rw [(h.fresh r (Nat.not_lt.mp new)).1] at found
  cases found

/-- The coordinates need no change when the cell stays at its coordinate. -/
theorem Coherent.keep (h : Coherent N s) (found : s.writes[r]? = some receipt)
    (elsewhere : Elsewhere r s s')
    (kept : Kept N s'.writes[r]? s'.edits[r]? s'.successors[r]? (s'.accepted r))
    (coordinate : s'.edits[r]?.bind SemanticCell.coordinate =
      s.edits[r]?.bind SemanticCell.coordinate)
    (coordinates : s'.coordinates = s.coordinates) (identity : s'.nextIdentity = s.nextIdentity) :
    Coherent N s' := by
  refine h.change elsewhere kept ?_ ?_ (Nat.le_of_eq identity.symm) (identity ▸ h.used found)
  · intro c
    rw [coordinates, h.heads c r, coordinate]
  · intro c q _
    rw [coordinates]

/-- A cell that is given up takes its coordinate along. -/
theorem Coherent.giveUp (h : Coherent N s) (found : s.writes[r]? = some receipt)
    (held : s.edits[r]?.bind SemanticCell.coordinate = some c) (elsewhere : Elsewhere r s s')
    (kept : Kept N s'.writes[r]? s'.edits[r]? s'.successors[r]? (s'.accepted r))
    (gone : s'.edits[r]? = none) (coordinates : s'.coordinates = s.coordinates.erase c)
    (identity : s'.nextIdentity = s.nextIdentity) : Coherent N s' := by
  have owner : s.coordinates[c]? = some r := (h.heads c r).mpr held
  refine h.change elsewhere kept ?_ ?_ (Nat.le_of_eq identity.symm) (identity ▸ h.used found)
  · intro d
    rw [coordinates, gone, BTreeMap.find_erase]
    refine iff_of_false ?_ nofun
    split
    · exact nofun
    · rename_i differs
      intro owned
      exact differs (Option.some.inj (held.symm.trans ((h.heads d r).mp owned)))
  · intro d q other
    rw [coordinates, BTreeMap.find_erase]
    split
    · rename_i same
      subst same
      rw [owner]
      exact iff_of_false nofun (fun same => other (Option.some.inj same))
    · exact Iff.rfl

/-- A receipt that still holds the same revision. -/
structure Continues (N : Library) (receipt updated : Receipt) : Prop where
  author : updated.current.event.author = receipt.current.event.author
  coordinate : updated.current.event.coordinate N = receipt.current.event.coordinate N
  source : updated.current.publication.revisionSource = receipt.current.publication.revisionSource
  revision : updated.current.publication.revisionId = receipt.current.publication.revisionId
  retired :
    updated.current.publication.retiredRevisions = receipt.current.publication.retiredRevisions
  routing : updated.routing = receipt.routing
  named : updated.current.id = receipt.current.id
  dated : updated.current.event.createdAt = receipt.current.event.createdAt

theorem Continues.of_unrouted (h : unrouted updated = unrouted receipt) :
    Continues N receipt updated where
  author := congrArg (·.current.event.author) h
  coordinate := congrArg (·.current.event.coordinate N) h
  source := congrArg (·.current.publication.revisionSource) h
  revision := congrArg (·.current.publication.revisionId) h
  retired := congrArg (·.current.publication.retiredRevisions) h
  routing := congrArg (·.routing) h
  named := congrArg (·.current.id) h
  dated := congrArg (·.current.event.createdAt) h

theorem Continues.withSignature (signature : SignatureState) :
    Continues N receipt (receipt.withSignature signature) :=
  ⟨rfl, rfl, rfl, rfl, rfl, rfl, rfl, rfl⟩

theorem Counted.continue (counted : Counted receipt) (continues : Continues N receipt updated) :
    Counted updated := by
  rw [Counted, continues.revision, continues.retired]
  exact counted

theorem Holds.continue (holds : Holds N receipt cell c) (continues : Continues N receipt updated) :
    Holds N updated cell c where
  author := continues.author.trans holds.author
  coordinate := continues.coordinate.trans holds.coordinate
  last := holds.last
  edits := holds.edits
  source := continues.source.trans holds.source

theorem Waits.continue (waits : Waits N receipt cell successor c)
    (continues : Continues N receipt updated)
    (authorized : updated.current.publication.signature = .authorized) :
    Waits N updated cell successor c where
  authorized := authorized
  bounded := by rw [continues.retired]; exact waits.bounded
  author := waits.author
  coordinate := waits.coordinate
  edit := waits.edit
  route := by rw [continues.routing]; exact waits.route

theorem Kept.continue {cell? : Option SemanticCell} {successor? : Option Successor}
    {accepted : List EventEdit} (kept : Kept N (some receipt) cell? successor? accepted)
    (isOpen : receipt.isTerminal = false) (continues : Continues N receipt updated)
    (signature : successor?.isSome = true →
      updated.current.publication.signature = .authorized) :
    Kept N (some updated) cell? successor? accepted := by
  cases kept with
  | plain counted idle =>
    refine .plain (counted.continue continues) (.inr ?_)
    obtain terminal | none := idle
    · rw [isOpen] at terminal
      cases terminal
    · exact none
  | head c counted holds taken =>
    exact .head c (counted.continue continues) (holds.continue continues) taken
  | waiting c counted holds waits taken =>
    exact .waiting c (counted.continue continues) (holds.continue continues)
      (waits.continue continues (signature rfl)) taken

theorem Kept.counted {cell? : Option SemanticCell} {successor? : Option Successor}
    {accepted : List EventEdit} (kept : Kept N (some receipt) cell? successor? accepted) :
    Counted receipt := by
  cases kept with
  | plain counted _ => exact counted
  | head _ counted _ _ => exact counted
  | waiting _ counted _ _ _ => exact counted

theorem Kept.holds {successor? : Option Successor} {accepted : List EventEdit}
    (kept : Kept N (some receipt) (some cell) successor? accepted) :
    ∃ c, Holds N receipt cell c := by
  cases kept with
  | head c _ holds _ => exact ⟨c, holds⟩
  | waiting c _ holds _ _ => exact ⟨c, holds⟩

theorem Coherent.keptAt (h : Coherent N s) (found : s.writes[r]? = some receipt) :
    Kept N (some receipt) s.edits[r]? s.successors[r]? (s.accepted r) :=
  found ▸ h.kept r

/-- Giving up the custody of a receipt together with a change of the receipt. -/
theorem Coherent.free (h : Coherent N s) (found : s.writes[r]? = some receipt)
    (writes : ∀ q, r ≠ q → s'.writes[q]? = s.writes[q]?)
    (edits : s'.edits = s.edits.erase r) (successors : s'.successors = s.successors.erase r)
    (coordinates : s'.coordinates = (releaseSemantic s r).coordinates)
    (taken : s'.taken = s.taken) (identity : s'.nextIdentity = s.nextIdentity)
    (kept : Kept N s'.writes[r]? none none (s.accepted r)) : Coherent N s' := by
  have accepted : ∀ q, s'.accepted q = s.accepted q := by
    intro q
    rw [WriteState.accepted, taken, WriteState.accepted]
  have gone : s'.edits[r]? = none := by rw [edits, BTreeMap.find_erase, if_pos rfl]
  have alone : s'.successors[r]? = none := by rw [successors, BTreeMap.find_erase, if_pos rfl]
  have elsewhere : Elsewhere r s s' := by
    refine ⟨writes, ?_, ?_, fun q _ => accepted q⟩
    · intro q other
      rw [edits, BTreeMap.find_erase, if_neg other]
    · intro q other
      rw [successors, BTreeMap.find_erase, if_neg other]
  have kept' : Kept N s'.writes[r]? s'.edits[r]? s'.successors[r]? (s'.accepted r) := by
    rw [gone, alone, accepted r]
    exact kept
  have held := h.keptAt found
  cases custody : s.edits[r]? with
  | none =>
    refine h.keep found elsewhere kept' ?_ ?_ identity
    · rw [gone, custody]
    · rw [coordinates, releaseSemantic, custody]
  | some cell =>
    rw [custody] at held
    obtain ⟨c, holds⟩ := held.holds
    have last := holds.last
    refine h.giveUp (c := c) found ?_ elsewhere kept' gone ?_ identity
    · rw [custody]
      exact last
    · obtain ⟨edit, final, rfl⟩ := Option.map_eq_some_iff.mp last
      rw [coordinates, releaseSemantic, custody]
      simp only [final]

end Fava.WriteStore.Memory
