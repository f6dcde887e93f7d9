import Mathlib.Algebra.GroupWithZero.Nat
import Mathlib.Data.List.Range
import Mathlib.Data.Nat.Pairing
import Fava.WriteStore.Memory.Coherence

namespace Fava.WriteStore.Memory

open Std Fava.Lib Fava.Nostr Fava.Relay Fava.Routing Fava.Write

/-- The order in which relays replace the events of one coordinate. -/
def follows (later earlier : Source) : Prop :=
  eventIsNewer (later.2, later.1) (earlier.2, earlier.1) = true

/-- What orders the current event of a receipt. -/
def markOf (receipt : Receipt) : Source := (receipt.current.id, receipt.current.event.createdAt)

/-- A verified event with this identifier has this time. -/
def Genuine (N : Library) (mark : Source) : Prop :=
  ∃ value : EventValue, value.verify N = .ok () ∧ value.id = some mark.1 ∧ value.createdAt = mark.2

/-- One revision of a semantic write, and the source it was made from. -/
structure Generation where
  mark : Source
  source : Option Source

/-- The revisions of a receipt from the first to the current one: those the receipt has on
record, numbered from one, each newer than those before it and than its source. -/
structure Lineage (N : Library) (receipt : Receipt) (line : List Generation) : Prop where
  marks : line.map (fun g => (g.mark.1, g.source.map Prod.fst)) =
    receipt.current.publication.retiredRevisions.map (fun old => (old.eventId, old.source)) ++
      [(receipt.current.id, receipt.current.publication.revisionSource)]
  last : line.getLast?.map Generation.mark = some (markOf receipt)
  genuine : ∀ g ∈ line, Genuine N g.mark
  sources : ∀ g ∈ line, ∀ source ∈ g.source, Genuine N source ∧ follows g.mark source
  newer : line.Pairwise fun earlier later => follows later.mark earlier.mark
  numbers : receipt.current.publication.retiredRevisions.map (·.revisionId) =
    List.range' 1 receipt.current.publication.retiredRevisions.length
  bounded : receipt.current.publication.retiredRevisions.length ≤ destinationEvidenceCapacity

/-- An event that may become the next revision of a receipt. -/
structure Improves (N : Library) (receipt : Receipt) (event : UnsignedEvent)
    (selected : Option Source) (mark : Source) : Prop where
  named : event.id = some mark.1
  dated : event.createdAt = mark.2
  genuine : Genuine N mark
  newer : follows mark (markOf receipt)
  sources : ∀ source ∈ selected, Genuine N source ∧ follows mark source

/-- Every receipt that took edits has its lineage, which ends with the source in custody,
and what waits improves on it. -/
structure Traced (N : Library) (s : WriteState) : Prop where
  line : ∀ (r : ReceiptId) (receipt : Receipt), s.writes[r]? = some receipt → s.accepted r ≠ [] →
    ∃ line, Lineage N receipt line ∧ ∀ cell : SemanticCell, s.edits[r]? = some cell →
      line.getLast?.map Generation.source = some cell.source
  waits : ∀ (r : ReceiptId) (receipt : Receipt) (successor : Successor),
    s.writes[r]? = some receipt → s.successors[r]? = some successor →
    ∃ mark, Improves N receipt successor.event successor.source mark

variable {N : Library} {capacity : Nat} {s s' : WriteState} {r : ReceiptId}
  {receipt updated : Receipt} {cell : SemanticCell} {event : UnsignedEvent}
  {selected : Option Source} {line : List Generation} {mark a b c : Source}

theorem follows_trans (first : follows a b) (second : follows b c) : follows a c :=
  eventIsNewer_trans first second

section Validation

variable {now : Timestamp} {edit : EventEdit} {author : PublicKey} {source : Option EventValue}
  {routing : WriteRouting} {route : Option RoutePlan} {o : Offer}

/-- A validated revision carries its own identifier. -/
theorem genuine_of_validateRevision
    (h : validateRevision N now edit author event source routing = .ok selected) :
    ∃ id, event.id = some id ∧ Genuine N (id, event.createdAt) := by
  obtain ⟨_, valid, h⟩ := bind_eq_ok.mp h
  obtain ⟨-, h⟩ := require_bind_eq_ok.mp h
  obtain ⟨_, located, -⟩ := bind_eq_ok.mp h
  obtain ⟨id, known, -⟩ := demand_bind_eq_ok.mp located
  refine ⟨id, known, .unsigned event, ?_, known, rfl⟩
  obtain ⟨_, verified, -⟩ := bind_eq_ok.mp (mapError_eq_ok.mp valid)
  have same : ensureId N event = event := by
    unfold ensureId
    rw [known, Option.getD_some, ← known]
  rw [same] at verified
  exact verified

theorem genuine_of_validateSource (h : validateSource N edit author source = .ok selected) :
    ∀ chosen ∈ selected, Genuine N chosen := by
  rintro chosen ⟨⟩
  cases source with
  | none => cases h
  | some value =>
    obtain ⟨_, verified, -⟩ := bind_eq_ok.mp h
    obtain ⟨id, known, same⟩ := validateSource_some h
    cases same
    refine ⟨value, ?_, known, rfl⟩
    cases value with
    | unsigned event => exact mapError_eq_ok.mpr (mapError_eq_ok.mp verified)
    | signed event => exact mapError_eq_ok.mpr (mapError_eq_ok.mp verified)

/-- A revision made from another source improves on the one it corrects. -/
theorem Corrects.improves (corrects : Corrects N now receipt cell event source selected route) :
    ∃ mark, Improves N receipt event selected mark := by
  obtain ⟨edit, -, valid⟩ := corrects.valid
  obtain ⟨id, known, genuine⟩ := genuine_of_validateRevision valid
  obtain ⟨sourced, newer⟩ := validateSource_of_validateRevision valid
  refine ⟨(id, event.createdAt), known, rfl, genuine, ?_, fun chosen member => ⟨?_, ?_⟩⟩
  · obtain ⟨other, same, later⟩ := corrects.newer
    rw [known] at same
    cases same
    exact later
  · exact genuine_of_validateSource sourced chosen member
  · obtain ⟨other, same, later⟩ := newer chosen member
    rw [known] at same
    cases same
    exact later

/-- The source in custody is older than the current revision. -/
theorem Lineage.source_older (lineage : Lineage N receipt line)
    (last : line.getLast?.map Generation.source = some selected) :
    ∀ source ∈ selected, Genuine N source ∧ follows (markOf receipt) source := by
  intro source member
  obtain ⟨g, final, rfl⟩ := Option.map_eq_some_iff.mp last
  have here := lineage.last
  rw [final] at here
  rw [← Option.some.inj here]
  exact lineage.sources g (List.mem_of_getLast? final) source member

/-- An edit applied to the current revision improves on it. -/
theorem Composes.improves (composes : Composes N o receipt cell) (lineage : Lineage N receipt line)
    (last : line.getLast?.map Generation.source = some cell.source) :
    ∃ mark, Improves N receipt o.event cell.source mark := by
  obtain ⟨id, known, genuine⟩ := genuine_of_validateRevision composes.valid
  have newer : follows (id, o.event.createdAt) (markOf receipt) := by
    obtain ⟨other, same, later⟩ := (validateSource_of_validateRevision composes.valid).2 _ rfl
    rw [known] at same
    cases same
    exact later
  refine ⟨(id, o.event.createdAt), known, rfl, genuine, newer, fun source member => ?_⟩
  obtain ⟨real, earlier⟩ := lineage.source_older last source member
  exact ⟨real, follows_trans newer earlier⟩

end Validation

/-- What comes after the last of a line comes after all of it. -/
theorem Lineage.follows_all (lineage : Lineage N receipt line) (newer : follows mark (markOf receipt)) :
    ∀ g ∈ line, follows mark g.mark := by
  intro g member
  obtain ⟨last, final, here⟩ := Option.map_eq_some_iff.mp lineage.last
  obtain ⟨before, rfl⟩ := List.getLast?_eq_some_iff.mp final
  rw [← here] at newer
  obtain earlier | only := List.mem_append.mp member
  · exact follows_trans newer
      ((List.pairwise_append.mp lineage.newer).2.2 g earlier last (List.mem_singleton_self last))
  · rw [List.mem_singleton.mp only]
    exact newer

/-- The next revision continues the line. -/
theorem Lineage.extend (lineage : Lineage N receipt line)
    (improves : Improves N receipt event selected mark)
    (advances : Advances receipt updated event (selected.map Prod.fst)) (counted : Counted receipt)
    (few : receipt.current.publication.retiredRevisions.length < destinationEvidenceCapacity) :
    Lineage N updated (line ++ [⟨mark, selected⟩]) where
  marks := by
    have named := Option.some.inj (improves.named.symm.trans advances.named)
    rw [List.map_append, lineage.marks, advances.retired, List.map_append, advances.source, ← named]
    rfl
  last := by
    have named := Option.some.inj (improves.named.symm.trans advances.named)
    rw [List.getLast?_concat, markOf, ← named, advances.event]
    exact congrArg some (Prod.ext rfl improves.dated.symm)
  genuine := by
    intro g member
    obtain old | new := List.mem_append.mp member
    · exact lineage.genuine g old
    · rw [List.mem_singleton.mp new]
      exact improves.genuine
  sources := by
    intro g member
    obtain old | new := List.mem_append.mp member
    · exact lineage.sources g old
    · rw [List.mem_singleton.mp new]
      exact improves.sources
  newer := by
    refine List.pairwise_append.mpr ⟨lineage.newer, List.pairwise_singleton _ _, ?_⟩
    intro g member next new
    rw [List.mem_singleton.mp new]
    exact lineage.follows_all improves.newer g member
  numbers := by
    rw [advances.retired, List.map_append, lineage.numbers, List.length_append]
    show _ ++ [receipt.current.publication.revisionId] = List.range' 1 (_ + 1)
    rw [counted, List.range'_concat, Nat.one_mul, Nat.add_comm 1]
  bounded := by
    rw [advances.retired, List.length_append]
    exact few

/-- A receipt that goes on in the same revision keeps its lineage. -/
theorem Lineage.continue (lineage : Lineage N receipt line)
    (continues : Continues N receipt updated) : Lineage N updated line where
  marks := by rw [continues.retired, continues.named, continues.source]; exact lineage.marks
  last := by rw [markOf, continues.named, continues.dated]; exact lineage.last
  genuine := lineage.genuine
  sources := lineage.sources
  newer := lineage.newer
  numbers := by rw [continues.retired]; exact lineage.numbers
  bounded := by rw [continues.retired]; exact lineage.bounded

theorem Improves.continue (improves : Improves N receipt event selected mark)
    (continues : Continues N receipt updated) : Improves N updated event selected mark where
  named := improves.named
  dated := improves.dated
  genuine := improves.genuine
  newer := by rw [markOf, continues.named, continues.dated]; exact improves.newer
  sources := improves.sources

/-- The line of a newly accepted edit. -/
theorem Lineage.first {now : Timestamp} {edit : EventEdit} {author : PublicKey}
    {source : Option EventValue} {routing : WriteRouting} {access : Authority} {identity : Nat}
    (valid : validateRevision N now edit author event source routing = .ok selected)
    (made : acceptedReceipt identity (.unsigned event) .unsigned (selected.map Prod.fst) routing
      access = .ok receipt) : ∃ mark, Lineage N receipt [⟨mark, selected⟩] := by
  obtain ⟨id, known, genuine⟩ := genuine_of_validateRevision valid
  obtain ⟨sourced, newer⟩ := validateSource_of_validateRevision valid
  obtain ⟨current, new, made⟩ := bind_eq_ok.mp made
  obtain rfl := Except.ok.inj made
  rw [mapError_eq_ok, LocalWriteEvent.new, show (EventValue.unsigned event).id = some id from known]
    at new
  obtain rfl := Except.ok.inj new
  refine ⟨(id, event.createdAt), rfl, rfl, ?_, ?_, List.pairwise_singleton _ _, rfl, Nat.zero_le _⟩
  · intro g member
    rw [List.mem_singleton.mp member]
    exact genuine
  · intro g member chosen selecting
    rw [List.mem_singleton.mp member] at selecting ⊢
    refine ⟨genuine_of_validateSource sourced chosen selecting, ?_⟩
    obtain ⟨other, same, later⟩ := newer chosen selecting
    rw [known] at same
    cases same
    exact later

section Steps

variable {successor : Successor} {t : WriteState}

theorem Kept.accepted_ne_nil {successor? : Option Successor} {accepted : List EventEdit}
    (kept : Kept N (some receipt) (some cell) successor? accepted) : accepted ≠ [] := by
  have some_edit : ∀ c, Holds N receipt cell c → cell.edits ≠ [] := by
    intro c holds none
    have last := holds.last
    rw [SemanticCell.coordinate, none] at last
    cases last
  cases kept with
  | head c _ holds taken => exact taken ▸ some_edit c holds
  | waiting c _ holds _ taken =>
    rw [taken]
    exact List.append_ne_nil_of_left_ne_nil (some_edit c holds) _

/-- The line of a head ends with the source in its custody. -/
theorem Traced.head (traced : Traced N s) (h : Coherent N s) (found : s.writes[r]? = some receipt)
    (held : s.edits[r]? = some cell) : ∃ line, Lineage N receipt line ∧
      line.getLast?.map Generation.source = some cell.source := by
  have kept := h.keptAt found
  rw [held] at kept
  obtain ⟨line, lineage, cells⟩ := traced.line r receipt found kept.accepted_ne_nil
  exact ⟨line, lineage, cells cell held⟩

/-- Only what is kept under one identity has to be traced again. -/
theorem Traced.change (traced : Traced N s) (elsewhere : Elsewhere r s s')
    (line : ∀ receipt : Receipt, s'.writes[r]? = some receipt → s'.accepted r ≠ [] →
      ∃ line, Lineage N receipt line ∧ ∀ cell : SemanticCell, s'.edits[r]? = some cell →
        line.getLast?.map Generation.source = some cell.source)
    (waits : ∀ (receipt : Receipt) (successor : Successor), s'.writes[r]? = some receipt →
      s'.successors[r]? = some successor →
      ∃ mark, Improves N receipt successor.event successor.source mark) : Traced N s' where
  line q receipt found taken := by
    by_cases same : r = q
    · subst same
      exact line receipt found taken
    · rw [elsewhere.writes q same] at found
      rw [elsewhere.accepted q same] at taken
      rw [elsewhere.edits q same]
      exact traced.line q receipt found taken
  waits q receipt successor found waiting := by
    by_cases same : r = q
    · subst same
      exact waits receipt successor found waiting
    · rw [elsewhere.writes q same] at found
      rw [elsewhere.successors q same] at waiting
      exact traced.waits q receipt successor found waiting

/-- A head that moves to its next revision. -/
theorem Traced.advance (traced : Traced N s) (h : Coherent N s)
    (found : s.writes[r]? = some receipt) (held : s.edits[r]? = some cell)
    (elsewhere : Elsewhere r s s') (recorded : s'.writes[r]? = some updated)
    (improves : Improves N receipt event selected mark)
    (advances : Advances receipt updated event (selected.map Prod.fst))
    (few : receipt.current.publication.retiredRevisions.length < destinationEvidenceCapacity)
    (cells : ∀ next : SemanticCell, s'.edits[r]? = some next → next.source = selected)
    (alone : s'.successors[r]? = none) : Traced N s' := by
  obtain ⟨line, lineage, -⟩ := traced.head h found held
  refine traced.change elsewhere (fun other present _ => ?_) fun _ _ _ waiting => ?_
  · rw [recorded] at present
    cases present
    refine ⟨_, lineage.extend improves advances (h.keptAt found).counted few, fun next here => ?_⟩
    rw [List.getLast?_concat, cells next here]
    rfl
  · rw [alone] at waiting
    cases waiting

/-- A receipt that goes on in the same revision. -/
theorem Traced.goOn (traced : Traced N s) (found : s.writes[r]? = some receipt)
    (continues : Continues N receipt updated) (elsewhere : Elsewhere r s s')
    (recorded : s'.writes[r]? = some updated) (accepted : s'.accepted r = s.accepted r)
    (cells : ∀ next : SemanticCell, s'.edits[r]? = some next →
      ∃ cell : SemanticCell, s.edits[r]? = some cell ∧ next.source = cell.source)
    (waits : ∀ successor : Successor, s'.successors[r]? = some successor →
      s.successors[r]? = some successor) : Traced N s' := by
  refine traced.change elsewhere (fun other present taken => ?_) fun other successor present waiting => ?_
  · rw [recorded] at present
    cases present
    rw [accepted] at taken
    obtain ⟨line, lineage, last⟩ := traced.line r receipt found taken
    refine ⟨line, lineage.continue continues, fun next here => ?_⟩
    obtain ⟨cell, held, same⟩ := cells next here
    rw [same]
    exact last cell held
  · rw [recorded] at present
    cases present
    obtain ⟨mark, improves⟩ := traced.waits r receipt successor found (waits successor waiting)
    exact ⟨mark, improves.continue continues⟩

/-- A revision starts to wait behind its head. -/
theorem Traced.wait (traced : Traced N s) (h : Coherent N s) (found : s.writes[r]? = some receipt)
    (held : s.edits[r]? = some cell) (elsewhere : Elsewhere r s s')
    (writes : s'.writes = s.writes) (edits : s'.edits = s.edits)
    (waiting : s'.successors[r]? = some successor)
    (improves : Improves N receipt successor.event successor.source mark) : Traced N s' := by
  obtain ⟨line, lineage, last⟩ := traced.head h found held
  refine traced.change elsewhere (fun other present _ => ?_) fun other next present here => ?_
  · rw [writes, found] at present
    cases present
    refine ⟨line, lineage, fun next here => ?_⟩
    rw [edits, held] at here
    cases here
    exact last
  · rw [writes, found] at present
    cases present
    rw [waiting] at here
    cases here
    exact ⟨mark, improves⟩

theorem Traced.take {reservation : Option Nat} {c : EventCoordinate} (traced : Traced N s)
    (took : takeReservation reservation c s = .ok t) : Traced N t := by
  obtain ⟨-, rfl⟩ | ⟨id, -, -, rfl⟩ := takeReservation_eq_ok took
  · exact traced
  · exact ⟨traced.line, traced.waits⟩

theorem Elsewhere.released {revision : Nat} (receipt : Receipt) : Elsewhere r s
    (released { s with revision := revision, writes := s.writes.insert r updated } r receipt) := by
  unfold Memory.released
  split
  · exact ⟨fun _ => BTreeMap.find_insert_of_ne, fun _ => BTreeMap.find_erase_of_ne,
      fun _ => BTreeMap.find_erase_of_ne, fun _ _ => rfl⟩
  · exact ⟨fun _ => BTreeMap.find_insert_of_ne, fun _ _ => rfl, fun _ _ => rfl, fun _ _ => rfl⟩

/-- Every transition keeps the revisions in line. -/
theorem Traced.transition {action : Action} (traced : Traced N s) (h : Coherent N s)
    (transition : Transition N capacity s action s') : Traced N s' := by
  cases transition with
  | refused => exact traced
  | reserved | freed => exact ⟨traced.line, traced.waits⟩
  | accepted =>
    obtain ⟨-, -, alone, untaken, -⟩ := h.unused
    refine traced.change (r := s.nextIdentity)
      ⟨fun _ => BTreeMap.find_insert_of_ne, fun _ _ => rfl, fun _ _ => rfl, fun _ _ => rfl⟩
      (fun _ _ taken => (taken untaken).elim) fun _ _ _ waiting => ?_
    rw [alone] at waiting
    cases waiting
  | consumed _ took => exact traced.take took
  | @opened _ o t selected fresh receipt _ took vacant _ valid _ made applied =>
    have coherent := h.take took
    obtain ⟨-, -, alone, -, -⟩ := coherent.unused
    obtain ⟨mark, lineage⟩ := Lineage.first valid made
    have continues : Continues N fresh receipt := .of_unrouted (applyInitialRoute_eq_ok applied).1
    refine (traced.take took).change (r := t.nextIdentity) ⟨fun _ => BTreeMap.find_insert_of_ne,
      fun q other => ?_, fun _ _ => rfl, fun _ other => accepted_append_of_ne other⟩
      (fun other present _ => ?_) fun _ _ _ waiting => ?_
    · dsimp only
      split
      · rfl
      · exact BTreeMap.find_insert_of_ne other
    · cases BTreeMap.find_insert_self.symm.trans present
      refine ⟨_, lineage.continue continues, fun cell held => ?_⟩
      dsimp only at held
      split at held
      · rw [coherent.unused.2.1] at held
        cases held
      · cases BTreeMap.find_insert_self.symm.trans held
        rfl
    · rw [alone] at waiting
      cases waiting
  | queued _ took owner found held composes =>
    obtain ⟨line, lineage, last⟩ := (traced.take took).head (h.take took) found held
    obtain ⟨mark, improves⟩ := composes.improves lineage last
    exact (traced.take took).wait (h.take took) found held ⟨fun _ _ => rfl, fun _ _ => rfl,
      fun _ => BTreeMap.find_insert_of_ne, fun _ other => accepted_append_of_ne other⟩ rfl rfl
      BTreeMap.find_insert_self improves
  | @composed _ o t r receipt updated cell _ _ took owner found held composes unauthorized generated
      applied =>
    have coherent := h.take took
    obtain ⟨line, lineage, last⟩ := (traced.take took).head coherent found held
    obtain ⟨mark, improves⟩ := composes.improves lineage last
    refine (traced.take took).advance coherent found held ⟨fun _ => BTreeMap.find_insert_of_ne,
      fun q other => ?_, fun _ _ => rfl, fun _ other => accepted_append_of_ne other⟩
      BTreeMap.find_insert_self improves
      (.of_unrouted generated (applyInitialRoute_eq_ok applied).1) composes.bounded
      (fun next here => ?_) (coherent.alone found held unauthorized).2
    · dsimp only
      split
      · exact BTreeMap.find_erase_of_ne other
      · exact BTreeMap.find_insert_of_ne other
    · dsimp only at here
      split at here
      · cases BTreeMap.find_erase_self.symm.trans here
      · cases BTreeMap.find_insert_self.symm.trans here
        rfl
  | deferred found held corrects =>
    obtain ⟨mark, improves⟩ := corrects.improves
    exact traced.wait h found held ⟨fun _ _ => rfl, fun _ _ => rfl,
      fun _ => BTreeMap.find_insert_of_ne, fun _ _ => rfl⟩ rfl rfl BTreeMap.find_insert_self improves
  | corrected found held _ _ corrects unauthorized _ generated applied =>
    obtain ⟨mark, improves⟩ := corrects.improves
    refine traced.advance h found held ⟨fun _ => BTreeMap.find_insert_of_ne,
      fun _ => BTreeMap.find_insert_of_ne, fun _ _ => rfl, fun _ _ => rfl⟩
      BTreeMap.find_insert_self improves
      (.of_unrouted generated (applyInitialRoute_eq_ok applied).1) corrects.bounded
      (fun next here => ?_) (h.alone found held unauthorized).2
    cases BTreeMap.find_insert_self.symm.trans here
    rfl
  | @failed _ _ receipt _ _ _ _ found held _ kept =>
    obtain ⟨failure, rfl⟩ := kept
    have continues : Continues N receipt (receipt.withPublication
        { receipt.current.publication with revisionFailure := failure }) :=
      ⟨rfl, rfl, rfl, rfl, rfl, rfl, rfl, rfl⟩
    refine traced.goOn found continues
      ⟨fun _ => BTreeMap.find_insert_of_ne, fun _ => BTreeMap.find_insert_of_ne, fun _ _ => rfl,
        fun _ _ => rfl⟩ BTreeMap.find_insert_self rfl (fun next here => ?_) fun _ waiting => waiting
    cases BTreeMap.find_insert_self.symm.trans here
    exact ⟨_, held, rfl⟩
  | promoted found held waiting _ takes =>
    obtain ⟨mark, improves⟩ := traced.waits _ _ _ found waiting
    have kept := h.keptAt found
    rw [held, waiting] at kept
    obtain ⟨c, waits⟩ := kept.waits
    refine traced.advance h found held ⟨fun _ => BTreeMap.find_insert_of_ne,
      fun _ => BTreeMap.find_insert_of_ne, fun _ => BTreeMap.find_erase_of_ne, fun _ _ => rfl⟩
      BTreeMap.find_insert_self improves
      (.of_unrouted takes.generated (applyInitialRoute_eq_ok takes.applied).1) waits.bounded
      (fun next here => ?_) BTreeMap.find_erase_self
    cases BTreeMap.find_insert_self.symm.trans here
    rfl
  | abandoned waiting stuck =>
    obtain ⟨receipt, cell, current, updated, found, held, takes⟩ := h.takesOver waiting
    exact (stuck receipt cell current updated found held takes).elim
  | @recorded _ r receipt updated _ found changes kept _ =>
    obtain ⟨-, continues⟩ := changes.continues kept
    refine traced.goOn found continues (.released updated) ?_ ?_ (fun next here => ?_)
      fun successor waiting => ?_
    · rw [writes_released]
      exact BTreeMap.find_insert_self
    · unfold released
      split <;> rfl
    · unfold released at here
      split at here
      · cases BTreeMap.find_erase_self.symm.trans here
      · exact ⟨next, here, rfl⟩
    · unfold released at waiting
      split at waiting
      · cases BTreeMap.find_erase_self.symm.trans waiting
      · exact waiting
  | @removed r =>
    have gone : ∀ receipt : Receipt, ¬(s.writes.erase r)[r]? = some receipt := by
      intro receipt present
      cases BTreeMap.find_erase_self.symm.trans present
    exact traced.change ⟨fun _ => BTreeMap.find_erase_of_ne, fun _ => BTreeMap.find_erase_of_ne,
      fun _ => BTreeMap.find_erase_of_ne, fun _ _ => rfl⟩
      (fun receipt present => (gone receipt present).elim)
      fun receipt _ present => (gone receipt present).elim

end Steps

theorem run_traced {actions : List Action} (run : Run (step N capacity) Free .default actions s) :
    Coherent N s ∧ Traced N s := by
  refine run.invariant (fun s => Coherent N s ∧ Traced N s) ⟨default_coherent, ?_⟩ ?_
  · constructor
    · intro r receipt found
      simp only [WriteState.default, ExtTreeMap.getElem?_empty] at found
      cases found
    · intro r receipt successor found
      simp only [WriteState.default, ExtTreeMap.getElem?_empty] at found
      cases found
  · intro t action u invariant _ stepped
    obtain rfl := Option.some.inj stepped
    obtain ⟨coherent, traced⟩ := invariant
    have transition := perform_transition N capacity t action
    exact ⟨coherent.transition transition, traced.transition coherent transition⟩

/-- An identifier is the digest of its event: verified values with one identifier have one
time. -/
def Binding (N : Library) : Prop :=
  ∀ a b : EventValue, a.verify N = .ok () → b.verify N = .ok () → a.id ≠ none → a.id = b.id →
    a.createdAt = b.createdAt

theorem Lineage.nodup (lineage : Lineage N receipt line) (binding : Binding N) :
    (line.map fun g => g.mark.1).Nodup := by
  rw [List.Nodup, List.pairwise_map]
  refine List.Pairwise.imp_of_mem (fun {a b} first second later same => ?_) lineage.newer
  obtain ⟨x, verified, named, dated⟩ := lineage.genuine a first
  obtain ⟨y, verified', named', dated'⟩ := lineage.genuine b second
  have time := binding x y verified verified' (by rw [named]; exact nofun)
    (by rw [named, named', same])
  have equal : a.mark = b.mark := Prod.ext same (by rw [← dated, ← dated', time])
  rw [equal, follows, eventIsNewer_irrefl] at later
  cases later

/-- In every reachable ledger the revisions of a semantic write are numbered without a gap up
to the bound, their events are distinct, and each is newer than those before it and than its
source. -/
theorem revision_generations {actions : List Action} (binding : Binding N)
    (run : Run (step N capacity) Free .default actions s) (found : s.writes[r]? = some receipt)
    (semantic : s.accepted r ≠ []) :
    receipt.current.publication.revisionId =
        receipt.current.publication.retiredRevisions.length + 1 ∧
      receipt.current.publication.revisionId ≤ 257 ∧
      (receipt.current.publication.retiredRevisions.map (·.revisionId)).Pairwise (· < ·) ∧
      (receipt.current.publication.retiredRevisions.map (·.eventId) ++ [receipt.current.id]).Nodup ∧
      ∃ line, Lineage N receipt line := by
  obtain ⟨coherent, traced⟩ := run_traced run
  obtain ⟨line, lineage, -⟩ := traced.line r receipt found semantic
  have counted := (coherent.keptAt found).counted
  refine ⟨counted, ?_, ?_, ?_, line, lineage⟩
  · rw [counted]
    exact Nat.succ_le_succ lineage.bounded
  · rw [lineage.numbers]
    exact List.pairwise_lt_range'
  · have ids := congrArg (List.map Prod.fst) lineage.marks
    rw [List.map_append, List.map_map, List.map_map] at ids
    have nodup := lineage.nodup binding
    rw [show line.map (fun g => g.mark.1) = _ from ids] at nodup
    exact nodup

section Sample

/-- An identifier that is the digest of an event and can be taken apart. -/
def datedId (author : PublicKey) (createdAt : Timestamp) (kind : Kind) (tags : List Tag)
    (content : String) : EventId :=
  Nat.pair createdAt (author + kind + (tags.flatten.map String.length).sum + content.length)

def datedLibrary : Library :=
  { plainLibrary with
    computeId := datedId
    verify := fun event =>
      if event.id = datedId event.pubkey event.createdAt event.kind event.tags event.content then
        .ok ()
      else .error "invalid event id"
    verifyId := fun event =>
      if event.id.all (· = datedId event.pubkey event.createdAt event.kind event.tags event.content)
        then .ok ()
      else .error "invalid event id"
    verifyId_ok := fun event own => by simp [own] }

theorem datedLibrary_id {value : EventValue} {id : EventId} (named : value.id = some id)
    (verified : value.verify datedLibrary = .ok ()) : (Nat.unpair id).1 = value.createdAt := by
  cases value with
  | unsigned event =>
    change event.id = some id at named
    have own := mapError_eq_ok.mp verified
    change (if event.id.all (· = datedId event.pubkey event.createdAt event.kind event.tags
      event.content) then Except.ok () else .error "invalid event id") = .ok () at own
    rw [named] at own
    split at own
    · rename_i same
      rw [of_decide_eq_true same, datedId, Nat.unpair_pair]
      rfl
    · cases own
  | signed event =>
    have same : event.id = id := Option.some.inj named
    have own := mapError_eq_ok.mp verified
    change (if event.id = datedId event.pubkey event.createdAt event.kind event.tags event.content
      then Except.ok () else .error "invalid event id") = .ok () at own
    split at own
    · rename_i digest
      rw [← same, digest, datedId, Nat.unpair_pair]
      rfl
    · cases own

theorem datedLibrary_binding : Binding datedLibrary := by
  intro a b first second some_id same
  obtain ⟨id, named⟩ := Option.ne_none_iff_exists'.mp some_id
  rw [← datedLibrary_id named first, ← datedLibrary_id (same ▸ named) second]

def datedList (createdAt : Timestamp) : UnsignedEvent :=
  ⟨some (datedId 7 createdAt 3 [] ""), 7, createdAt, 3, [], ""⟩

/-- A second edit is made while the first is being signed, and the signer then gives up. -/
def editTwice : List Action :=
  [.acceptAppliedEdit 10 (listEdit []) (datedList 10) none,
    .authorizeSigning 1 1 1 (datedId 7 10 3 [] ""),
    .acceptAppliedEdit 11 (listEdit [1]) (datedList 11) (some (.unsigned (datedList 10))),
    .recordSignerRetryable 1 1 1 (datedId 7 10 3 [] "") "offline"]

theorem revision_generations_after_signing : ∃ s receipt,
    Run (step datedLibrary 10) Free .default editTwice s ∧ s.writes[1]? = some receipt ∧
      receipt.current.publication.retiredRevisions.length = 1 ∧
      receipt.current.publication.revisionId =
        receipt.current.publication.retiredRevisions.length + 1 ∧
      ∃ line, Lineage datedLibrary receipt line := by
  obtain ⟨s, run, checked⟩ := Run.of_any (show (exec (step datedLibrary 10) Free .default
    editTwice).any (fun s => s.accepted 1 ≠ [] && (s.writes[1]?).any fun receipt =>
      receipt.current.publication.retiredRevisions.length = 1) = true by decide +kernel)
  rw [Bool.and_eq_true, decide_eq_true_eq] at checked
  obtain ⟨receipt, found, once⟩ := (Option.any_eq_true _ _).mp checked.2
  obtain ⟨numbered, -, -, -, line⟩ :=
    revision_generations datedLibrary_binding run found checked.1
  exact ⟨s, receipt, run, found, of_decide_eq_true once, numbered, line⟩

end Sample

end Fava.WriteStore.Memory
