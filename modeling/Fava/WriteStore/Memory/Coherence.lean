import Fava.WriteStore.Memory.Custody
import Fava.WriteStore.Memory.Transition

namespace Fava.WriteStore.Memory

open Std Fava.Lib Fava.Nostr Fava.Relay Fava.Routing Fava.Write

variable {N : Library} {s s' : WriteState} {r : ReceiptId} {receipt updated : Receipt}
  {cell : SemanticCell} {c : EventCoordinate}

section Generations

variable {event : UnsignedEvent} {source : Option EventId} {current : LocalWriteEvent}
  {lanes : BTreeMap RelayUrl RelayDeliveryOutcome}

/-- The next generation of a receipt. -/
structure Advances (receipt updated : Receipt) (event : UnsignedEvent) (source : Option EventId) :
    Prop where
  named : event.id = some updated.current.id
  event : updated.current.event = .unsigned event
  source : updated.current.publication.revisionSource = source
  revision :
    updated.current.publication.revisionId = receipt.current.publication.revisionId + 1
  retired : updated.current.publication.retiredRevisions =
    receipt.current.publication.retiredRevisions ++ [receipt.retirement]

theorem Advances.of_unrouted (next : nextGeneration r receipt event source lanes = .ok current)
    (h : unrouted updated = unrouted { receipt with current := current }) :
    Advances receipt updated event source := by
  obtain ⟨id, known, rfl⟩ := nextGeneration_eq_ok next
  refine ⟨?_, congrArg (·.current.event) h, congrArg (·.current.publication.revisionSource) h,
    congrArg (·.current.publication.revisionId) h,
    congrArg (·.current.publication.retiredRevisions) h⟩
  rw [known, show updated.current.id = id from congrArg (·.current.id) h]

theorem Advances.counted (advances : Advances receipt updated event source)
    (counted : Counted receipt) : Counted updated := by
  rw [Counted, advances.revision, advances.retired, counted, List.length_append]
  rfl

/-- The next generation is the head with the edits of the cell and those it adds. -/
theorem Advances.holds {next : SemanticCell} {more : List EventEdit}
    (advances : Advances receipt updated event source) (holds : Holds N receipt cell c)
    (author : event.pubkey = cell.author)
    (coordinate : (EventValue.unsigned event).coordinate N = .ok c)
    (added : ∀ edit ∈ more, editCoordinate edit cell.author = c)
    (same : next.author = cell.author) (edits : next.edits = cell.edits ++ more)
    (from_ : source = next.source.map Prod.fst) : Holds N updated next c where
  author := by
    rw [advances.event, same]
    exact author
  coordinate := by
    rw [advances.event]
    exact coordinate
  last := by
    have last := holds.last
    unfold SemanticCell.coordinate at last ⊢
    rw [edits, same, List.getLast?_append]
    cases final : more.getLast? with
    | none => exact last
    | some edit =>
      rw [Option.some_or, Option.map_some, added edit (List.mem_of_getLast? final)]
  edits := by
    intro edit member
    rw [edits, List.mem_append] at member
    rw [same]
    obtain old | new := member
    · exact holds.edits edit old
    · exact added edit new
  source := advances.source.trans from_

end Generations

/-- A receipt's next generation may be recorded with the cell that describes it. -/
theorem Coherent.advance {next : SemanticCell} (h : Coherent N s)
    (found : s.writes[r]? = some receipt) (held : s.edits[r]? = some cell)
    (sameCoordinate : next.coordinate = cell.coordinate)
    (writes : s'.writes = s.writes.insert r updated) (edits : s'.edits = s.edits.insert r next)
    (successors : ∀ q, r ≠ q → s'.successors[q]? = s.successors[q]?)
    (accepted : ∀ q, r ≠ q → s'.accepted q = s.accepted q)
    (coordinates : s'.coordinates = s.coordinates) (identity : s'.nextIdentity = s.nextIdentity)
    (kept : Kept N (some updated) (some next) s'.successors[r]? (s'.accepted r)) :
    Coherent N s' := by
  have cellAt : s'.edits[r]? = some next := by rw [edits, BTreeMap.find_insert, if_pos rfl]
  refine h.keep found ⟨?_, ?_, successors, accepted⟩ ?_ ?_ coordinates identity
  · intro q other
    rw [writes, BTreeMap.find_insert, if_neg other]
  · intro q other
    rw [edits, BTreeMap.find_insert, if_neg other]
  · rw [writes, BTreeMap.find_insert, if_pos rfl, cellAt]
    exact kept
  · rw [cellAt, held]
    exact sameCoordinate

/-- A receipt that has come to its end gives its custody up. -/
theorem Coherent.release {revision : Nat} (h : Coherent N s)
    (found : s.writes[r]? = some receipt) (continues : Continues N receipt updated)
    (terminal : updated.isTerminal = true) :
    Coherent N (releaseSemantic
      { s with revision := revision, writes := s.writes.insert r updated } r) := by
  refine h.free found ?_ rfl rfl rfl rfl rfl ?_
  · intro q other
    show (s.writes.insert r updated)[q]? = _
    rw [BTreeMap.find_insert, if_neg other]
  · show Kept N (s.writes.insert r updated)[r]? none none _
    rw [BTreeMap.find_insert, if_pos rfl]
    exact .plain ((h.keptAt found).counted.continue continues) (.inl terminal)

/-- Reservations are no part of custody. -/
theorem Coherent.reserve {reservations : BTreeMap Nat EventCoordinate} {next : Nat}
    (h : Coherent N s) :
    Coherent N { s with reservations := reservations, nextReservation := next } :=
  ⟨h.kept, h.heads, h.fresh⟩

section Acceptance

variable {edit : EventEdit} {author : PublicKey} {routing : WriteRouting} {access : Authority}

theorem Kept.nothing {cell? : Option SemanticCell} {successor? : Option Successor}
    {accepted : List EventEdit} (kept : Kept N none cell? successor? accepted) :
    cell? = none ∧ successor? = none := by
  cases kept
  exact ⟨rfl, rfl⟩

/-- Nothing is kept under the next identity, and no coordinate names it. -/
theorem Coherent.unused (h : Coherent N s) :
    s.writes[s.nextIdentity]? = none ∧ s.edits[s.nextIdentity]? = none ∧
      s.successors[s.nextIdentity]? = none ∧ s.accepted s.nextIdentity = [] ∧
      ∀ c : EventCoordinate, s.coordinates[c]? ≠ some s.nextIdentity := by
  obtain ⟨unwritten, untaken⟩ := h.fresh s.nextIdentity (Nat.le_refl _)
  have kept := h.kept s.nextIdentity
  rw [unwritten] at kept
  obtain ⟨unheld, alone⟩ := kept.nothing
  refine ⟨unwritten, unheld, alone, untaken, ?_⟩
  intro c owned
  have held := (h.heads c s.nextIdentity).mp owned
  rw [unheld] at held
  cases held

theorem acceptedReceipt_eq_ok {identity : Nat} {value : EventValue} {signature : SignatureState}
    {selected : Option EventId}
    (h : acceptedReceipt identity value signature selected routing access = .ok receipt) :
    receipt.current.event = value ∧
      receipt.current.publication.revisionSource = selected ∧ Counted receipt := by
  obtain ⟨current, made, h⟩ := bind_eq_ok.mp h
  rw [mapError_eq_ok, LocalWriteEvent.new] at made
  split at made
  · cases made
  · obtain rfl := Except.ok.inj made
    obtain rfl := Except.ok.inj h
    exact ⟨rfl, rfl, rfl⟩

/-- A receipt without custody enters under the next identity. -/
theorem Coherent.enter {taken : List (ReceiptId × EventEdit)} {next revision : Nat}
    (h : Coherent N s) (counts : next = s.nextIdentity + 1) (counted : Counted receipt)
    (others : ∀ q, s.nextIdentity ≠ q →
      ({ s with taken := taken } : WriteState).accepted q = s.accepted q)
    (idle : receipt.isTerminal = true ∨
      ({ s with taken := taken } : WriteState).accepted s.nextIdentity = []) :
    Coherent N { s with
      revision := revision
      writes := s.writes.insert s.nextIdentity receipt
      nextIdentity := next
      taken := taken } := by
  obtain ⟨-, unheld, alone, -, unowned⟩ := h.unused
  refine h.change (r := s.nextIdentity) ⟨?_, fun _ _ => rfl, fun _ _ => rfl, others⟩ ?_ ?_
    (fun _ _ _ => Iff.rfl) (by simp [counts]) (by simp [counts])
  · exact fun q other => BTreeMap.find_insert_of_ne other
  · rw [BTreeMap.find_insert, if_pos rfl, unheld, alone]
    exact .plain counted idle
  · intro c
    rw [unheld]
    exact iff_of_false (unowned c) nofun

/-- The head of a vacant coordinate enters under the next identity. -/
theorem Coherent.enterHead {next revision : Nat} (h : Coherent N s)
    (counts : next = s.nextIdentity + 1) (counted : Counted receipt)
    (holds : Holds N receipt cell c) (first : cell.edits = [edit])
    (vacant : s.coordinates[c]? = none) :
    Coherent N { s with
      revision := revision
      writes := s.writes.insert s.nextIdentity receipt
      coordinates := s.coordinates.insert c s.nextIdentity
      edits := s.edits.insert s.nextIdentity cell
      nextIdentity := next
      taken := s.taken ++ [(s.nextIdentity, edit)] } := by
  obtain ⟨-, unheld, alone, untaken, unowned⟩ := h.unused
  refine h.change (r := s.nextIdentity) ⟨?_, ?_, fun _ _ => rfl, ?_⟩ ?_ ?_ ?_ (by simp [counts])
    (by simp [counts])
  · exact fun q other => BTreeMap.find_insert_of_ne other
  · exact fun q other => BTreeMap.find_insert_of_ne other
  · exact fun q other => accepted_append_of_ne other
  · rw [BTreeMap.find_insert, BTreeMap.find_insert, if_pos rfl, if_pos rfl, alone]
    refine .head c counted holds ?_
    rw [first]
    exact accepted_append_self.trans (congrArg (· ++ [edit]) untaken)
  · intro d
    rw [BTreeMap.find_insert, BTreeMap.find_insert, if_pos rfl, Option.bind_some, holds.last]
    split
    · rename_i same
      rw [same]
      exact iff_of_true rfl rfl
    · rename_i differs
      exact iff_of_false (unowned d) (fun same => differs (Option.some.inj same))
  · intro d q other
    rw [BTreeMap.find_insert]
    split
    · rename_i same
      subst same
      rw [vacant]
      exact iff_of_false (fun same => other (Option.some.inj same)) nofun
    · exact Iff.rfl

theorem Coherent.take {t : WriteState} {reservation : Option Nat} (h : Coherent N s)
    (took : takeReservation reservation c s = .ok t) : Coherent N t := by
  obtain ⟨-, rfl⟩ | ⟨id, -, -, rfl⟩ := takeReservation_eq_ok took
  · exact h
  · exact h.reserve

theorem counted_of_enters (enters : Enters N r receipt) : Counted receipt := by
  obtain ⟨event, signature, source, routing, access, -, -, made, applied⟩ := enters
  have continues : Continues N _ receipt := .of_unrouted (applyInitialRoute_eq_ok applied).1
  exact (acceptedReceipt_eq_ok made).2.2.continue continues

/-- The first revision of a vacant coordinate becomes its head, unless it has nowhere to go. -/
theorem Coherent.openHead {o : Offer} {selected : Option Source} {fresh : Receipt} {revision : Nat}
    (h : Coherent N s) (vacant : s.coordinates[o.coordinate]? = none)
    (valid : validateRevision N o.now o.edit o.author o.event o.source o.routing = .ok selected)
    (made : acceptedReceipt s.nextIdentity (.unsigned o.event) .unsigned (selected.map Prod.fst)
      o.routing o.access = .ok fresh)
    (applied : applyInitialRoute N fresh o.route = .ok receipt) :
    Coherent N { s with
      revision := revision
      writes := s.writes.insert s.nextIdentity receipt
      coordinates :=
        if receipt.isTerminal then s.coordinates else s.coordinates.insert o.coordinate s.nextIdentity
      edits :=
        if receipt.isTerminal then s.edits
        else s.edits.insert s.nextIdentity ⟨[o.edit], o.author, selected, none⟩
      nextIdentity := s.nextIdentity + 1
      taken := s.taken ++ [(s.nextIdentity, o.edit)] } := by
  obtain ⟨written, located⟩ := validateRevision_eq_ok valid
  obtain ⟨holding, sourced, counted⟩ := acceptedReceipt_eq_ok made
  have continues : Continues N fresh receipt := .of_unrouted (applyInitialRoute_eq_ok applied).1
  by_cases terminal : receipt.isTerminal = true
  · simp only [if_pos terminal]
    exact h.enter rfl (counted.continue continues) (fun q other => accepted_append_of_ne other)
      (.inl terminal)
  · simp only [if_neg terminal]
    have holds : Holds N fresh ⟨[o.edit], o.author, selected, none⟩ o.coordinate := by
      refine ⟨?_, ?_, rfl, ?_, sourced⟩
      · rw [holding]
        exact written
      · rw [holding]
        exact located
      · intro edit member
        rw [List.mem_singleton.mp member]
        rfl
    exact h.enterHead rfl (counted.continue continues) (holds.continue continues) rfl vacant

/-- A head that can be composed with an offer stands at the offer's coordinate. -/
theorem Coherent.head_of_owner {o : Offer} (h : Coherent N s)
    (owner : s.coordinates[o.coordinate]? = some r) (found : s.writes[r]? = some receipt)
    (held : s.edits[r]? = some cell) : Holds N receipt cell o.coordinate := by
  have kept := h.keptAt found
  rw [held] at kept
  obtain ⟨c, holds⟩ := kept.holds
  have last := (h.heads _ _).mp owner
  rw [held, Option.bind_some, holds.last] at last
  rw [← Option.some.inj last]
  exact holds

/-- Nothing waits behind a head that is not being signed. -/
theorem Coherent.alone (h : Coherent N s) (found : s.writes[r]? = some receipt)
    (held : s.edits[r]? = some cell)
    (unauthorized : receipt.current.publication.signature ≠ .authorized) :
    s.accepted r = cell.edits ∧ s.successors[r]? = none := by
  have kept := h.keptAt found
  rw [held] at kept
  generalize s.successors[r]? = successor? at kept
  cases kept with
  | head _ _ _ taken => exact ⟨taken, rfl⟩
  | waiting _ _ _ waits _ => exact absurd waits.authorized unauthorized

/-- An edit that arrives during signing waits. -/
theorem Coherent.queue {o : Offer} {route : Option RoutePlan} (h : Coherent N s)
    (owner : s.coordinates[o.coordinate]? = some r) (found : s.writes[r]? = some receipt)
    (held : s.edits[r]? = some cell) (composes : Composes N o receipt cell)
    (fits : ∀ plan ∈ route, PlanFits N receipt.routing plan)
    (authorized : receipt.current.publication.signature = .authorized)
    (unqueued : r ∉ s.successors) :
    Coherent N { s with
      successors := s.successors.insert r ⟨some o.edit, o.event, cell.source, route⟩
      taken := s.taken ++ [(r, o.edit)] } := by
  have holds := h.head_of_owner owner found held
  obtain ⟨written, located⟩ := validateRevision_eq_ok composes.valid
  have kept := h.keptAt found
  rw [held, ExtTreeMap.getElem?_eq_none unqueued] at kept
  refine h.keep found ⟨fun _ _ => rfl, fun _ _ => rfl, ?_, ?_⟩ ?_ rfl rfl rfl
  · exact fun q other => BTreeMap.find_insert_of_ne other
  · exact fun q other => accepted_append_of_ne other
  · rw [found, held, BTreeMap.find_insert, if_pos rfl]
    cases kept with
    | head _ counted _ taken =>
      refine .waiting o.coordinate counted holds
        ⟨authorized, composes.bounded, written.trans composes.author.symm, located, ?_, fits⟩ ?_
      · rintro edit ⟨⟩
        rw [composes.author]
        rfl
      · exact accepted_append_self.trans (congrArg (· ++ [o.edit]) taken)

/-- An edit is appended to its head, which ends if its new generation has nowhere to go. -/
theorem Coherent.compose {o : Offer} {current : LocalWriteEvent} {revision : Nat}
    {route : Option RoutePlan} (h : Coherent N s)
    (owner : s.coordinates[o.coordinate]? = some r) (found : s.writes[r]? = some receipt)
    (held : s.edits[r]? = some cell) (composes : Composes N o receipt cell)
    (unauthorized : receipt.current.publication.signature ≠ .authorized)
    (generated : nextGeneration r receipt o.event (cell.source.map Prod.fst)
      (destinations o.routing) = .ok current)
    (applied : applyInitialRoute N (restarted receipt current) route = .ok updated) :
    Coherent N { s with
      revision := revision
      writes := s.writes.insert r updated
      coordinates :=
        if updated.isTerminal then s.coordinates.erase o.coordinate else s.coordinates
      edits :=
        if updated.isTerminal then s.edits.erase r
        else s.edits.insert r ⟨cell.edits ++ [o.edit], o.author, cell.source, none⟩
      taken := s.taken ++ [(r, o.edit)] } := by
  have holds := h.head_of_owner owner found held
  obtain ⟨written, located⟩ := validateRevision_eq_ok composes.valid
  obtain ⟨taken, none_⟩ := h.alone found held unauthorized
  have counted := (h.keptAt found).counted
  have advances : Advances receipt updated o.event (cell.source.map Prod.fst) :=
    .of_unrouted generated (applyInitialRoute_eq_ok applied).1
  by_cases terminal : updated.isTerminal = true
  · simp only [if_pos terminal]
    refine h.giveUp (c := o.coordinate) found ?_ ⟨?_, ?_, fun _ _ => rfl, ?_⟩ ?_ ?_ rfl rfl
    · rw [held]
      exact holds.last
    · exact fun q other => BTreeMap.find_insert_of_ne other
    · exact fun q other => BTreeMap.find_erase_of_ne other
    · exact fun q other => accepted_append_of_ne other
    · rw [BTreeMap.find_insert, BTreeMap.find_erase, if_pos rfl, if_pos rfl, none_]
      exact .plain (advances.counted counted) (.inl terminal)
    · rw [BTreeMap.find_erase, if_pos rfl]
  · simp only [if_neg terminal]
    have added : ∀ edit ∈ [o.edit], editCoordinate edit cell.author = o.coordinate := by
      intro edit member
      rw [List.mem_singleton.mp member, composes.author]
      rfl
    have holds' : Holds N updated ⟨cell.edits ++ [o.edit], o.author, cell.source, none⟩
        o.coordinate :=
      advances.holds holds (written.trans composes.author.symm) located added composes.author.symm rfl
        rfl
    refine h.advance found held (holds'.last.trans holds.last.symm) rfl rfl (fun _ _ => rfl) ?_
      rfl rfl ?_
    · exact fun q other => accepted_append_of_ne other
    · rw [none_]
      exact .head o.coordinate (advances.counted counted) holds'
        (accepted_append_self.trans (congrArg (· ++ [o.edit]) taken))

end Acceptance

section Revision

variable {now : Timestamp} {event : UnsignedEvent} {source : Option EventValue}
  {selected : Option Source} {route : Option RoutePlan}

/-- A correction is made for the coordinate its head stands at. -/
theorem Corrects.located (corrects : Corrects N now receipt cell event source selected route)
    (holds : Holds N receipt cell c) :
    event.pubkey = cell.author ∧ (EventValue.unsigned event).coordinate N = .ok c := by
  obtain ⟨edit, last, valid⟩ := corrects.valid
  obtain ⟨written, located⟩ := validateRevision_eq_ok valid
  rw [holds.edits edit (List.mem_of_getLast? last)] at located
  exact ⟨written, located⟩

theorem Coherent.defer (h : Coherent N s) (found : s.writes[r]? = some receipt)
    (held : s.edits[r]? = some cell)
    (corrects : Corrects N now receipt cell event source selected route)
    (authorized : receipt.current.publication.signature = .authorized)
    (unqueued : r ∉ s.successors) :
    Coherent N { s with successors := s.successors.insert r ⟨none, event, selected, route⟩ } := by
  have kept := h.keptAt found
  rw [held, ExtTreeMap.getElem?_eq_none unqueued] at kept
  refine h.keep found ⟨fun _ _ => rfl, fun _ _ => rfl, ?_, fun _ _ => rfl⟩ ?_ rfl rfl rfl
  · exact fun q other => BTreeMap.find_insert_of_ne other
  · rw [found, held, BTreeMap.find_insert, if_pos rfl]
    cases kept with
    | head c counted holds taken =>
      obtain ⟨written, located⟩ := corrects.located holds
      obtain ⟨routed, fits⟩ := corrects.fits
      exact .waiting c counted holds
        ⟨authorized, corrects.bounded, written, located, nofun, (applyInitialRoute_eq_ok fits).2⟩
        (taken.trans (List.append_nil _).symm)

theorem Coherent.correct {revision : Nat} (h : Coherent N s) (found : s.writes[r]? = some receipt)
    (held : s.edits[r]? = some cell)
    (corrects : Corrects N now receipt cell event source selected route)
    (unauthorized : receipt.current.publication.signature ≠ .authorized)
    (advances : Advances receipt updated event (selected.map Prod.fst)) :
    Coherent N { s with
      revision := revision
      writes := s.writes.insert r updated
      edits := s.edits.insert r ⟨cell.edits, cell.author, selected, none⟩ } := by
  have kept := h.keptAt found
  rw [held] at kept
  obtain ⟨c, holds⟩ := kept.holds
  obtain ⟨written, located⟩ := corrects.located holds
  obtain ⟨taken, none_⟩ := h.alone found held unauthorized
  have holds' : Holds N updated ⟨cell.edits, cell.author, selected, none⟩ c :=
    advances.holds holds written located (by simp) rfl (List.append_nil _).symm rfl
  refine h.advance found held (holds'.last.trans holds.last.symm) rfl rfl (fun _ _ => rfl)
    (fun _ _ => rfl) rfl rfl ?_
  rw [none_]
  exact .head c (advances.counted kept.counted) holds' taken

/-- A failed source is no part of what a receipt and its cell agree on. -/
theorem Coherent.fail {failedSource : Option EventId} {revision : Nat} (h : Coherent N s)
    (found : s.writes[r]? = some receipt) (held : s.edits[r]? = some cell)
    (continues : Continues N receipt updated)
    (signature : updated.current.publication.signature = receipt.current.publication.signature) :
    Coherent N { s with
      revision := revision
      writes := s.writes.insert r updated
      edits := s.edits.insert r { cell with failedSource := failedSource } } := by
  refine h.advance found held ?_ rfl rfl (fun _ _ => rfl) (fun _ _ => rfl) rfl rfl ?_
  · rfl
  · show Kept N _ _ s.successors[r]? (s.accepted r)
    have kept := h.keptAt found
    rw [held] at kept
    generalize s.successors[r]? = successor? at kept ⊢
    have same : ∀ c, Holds N receipt cell c →
        Holds N updated { cell with failedSource := failedSource } c := fun c holds =>
      have holds := holds.continue continues
      ⟨holds.author, holds.coordinate, holds.last, holds.edits, holds.source⟩
    cases kept with
    | head c counted holds taken => exact .head c (counted.continue continues) (same c holds) taken
    | waiting c counted holds waits taken =>
      have waits := waits.continue continues (signature.trans waits.authorized)
      exact .waiting c (counted.continue continues) (same c holds)
        ⟨waits.authorized, waits.bounded, waits.author, waits.coordinate, waits.edit, waits.route⟩
        taken

end Revision

section Signing

variable {event : UnsignedEvent} {source : Option EventId}
  {lanes : BTreeMap RelayUrl RelayDeliveryOutcome} {route : Option RoutePlan} {action : Action}
  {successor : Successor} {current : LocalWriteEvent}

theorem nextGeneration_total {id : EventId} (known : event.id = some id)
    (counts : receipt.current.publication.revisionId + 1 < counterBound) :
    ∃ current, nextGeneration r receipt event source lanes = .ok current := by
  unfold nextGeneration RevisionId.checkedNext LocalWriteEvent.new
  rw [if_pos counts]
  simp only [EventValue.id, known]
  exact ⟨_, rfl⟩

theorem applyInitialRoute_total (fits : ∀ plan ∈ route, PlanFits N receipt.routing plan)
    (fresh : receipt.routing = .automatic → receipt.routeRevision = 0) :
    ∃ updated, applyInitialRoute N receipt route = .ok updated := by
  cases route with
  | none => exact ⟨receipt, rfl⟩
  | some plan => exact (fits plan rfl).applyRoute (fresh (fits plan rfl).automatic)

/-- A waiting successor always takes over: nothing that could refuse it is left open
when it starts to wait. -/
theorem Waits.takesOver {cell : SemanticCell} {successor : Successor} {c : EventCoordinate}
    (waits : Waits N receipt cell successor c) (counted : Counted receipt) (r : ReceiptId)
    (source : Option EventId) (lanes : BTreeMap RelayUrl RelayDeliveryOutcome) :
    ∃ current updated,
      nextGeneration r receipt successor.event source lanes = .ok current ∧
      applyInitialRoute N (restarted receipt current) successor.route = .ok updated := by
  have counts : receipt.current.publication.revisionId + 1 < counterBound := by
    have bounded : receipt.current.publication.retiredRevisions.length < 256 := waits.bounded
    rw [counted]
    change receipt.current.publication.retiredRevisions.length + 1 + 1 < 2 ^ 64
    omega
  obtain ⟨id, known⟩ : ∃ id, successor.event.id = some id := by
    have located := waits.coordinate
    unfold EventValue.coordinate at located
    split at located
    · cases located
    · rename_i id known
      exact ⟨id, known⟩
  have generated : ∃ current, nextGeneration r receipt successor.event source lanes = .ok current :=
    nextGeneration_total known counts
  obtain ⟨current, generated⟩ := generated
  have applied : ∃ updated,
      applyInitialRoute N (restarted receipt current) successor.route = .ok updated := by
    have fits : ∀ plan ∈ successor.route, PlanFits N (restarted receipt current).routing plan :=
      waits.route
    apply applyInitialRoute_total fits
    intro automatic
    show receipt.routing.isExplicit.toNat = 0
    rw [show receipt.routing = .automatic from automatic]
    rfl
  obtain ⟨updated, applied⟩ := applied
  exact ⟨current, updated, generated, applied⟩

/-- In a coherent ledger the only thing that can stop a waiting successor is the
revision counter of the ledger. -/
theorem promoteAuthorizedSuccessor_eq {successor : Successor} {revision : Nat} (h : Coherent N s)
    (retained : s.successors[r]? = some successor) (later : nextRevision s.revision = .ok revision) :
    ∃ receipt cell updated c,
      s.writes[r]? = some receipt ∧ s.edits[r]? = some cell ∧
      s.accepted r = cell.edits ++ successor.edit.toList ∧
      Counted receipt ∧ Holds N receipt cell c ∧ Waits N receipt cell successor c ∧
      Advances receipt updated successor.event (successor.source.map Prod.fst) ∧
      updated.current.publication.signature = .unsigned ∧
      promoteAuthorizedSuccessor N r s = (.ok updated,
        { s with
          revision := revision
          writes := s.writes.insert r updated
          successors := s.successors.erase r
          edits := s.edits.insert r
            ⟨cell.edits ++ successor.edit.toList, cell.author, successor.source, none⟩ }) := by
  have kept := h.kept r
  rw [retained] at kept
  generalize found : s.writes[r]? = receipt?, held : s.edits[r]? = cell?,
    accepted : s.accepted r = edits at kept
  cases kept with
  | waiting c counted holds waits taken =>
    rename_i receipt cell
    obtain ⟨current, updated, generated, applied⟩ := waits.takesOver counted r
      (successor.source.map Prod.fst)
      (if successor.edit.isNone then
        BTreeMap.constant (correctionDestinations receipt).toList .pending
        else destinations receipt.routing)
    have same := (applyInitialRoute_eq_ok applied).1
    refine ⟨receipt, cell, updated, c, rfl, rfl, taken, counted, holds, waits,
      .of_unrouted generated same, ?_, ?_⟩
    · obtain ⟨id, -, rfl⟩ := nextGeneration_eq_ok generated
      exact congrArg (·.current.publication.signature) same
    · unfold promoteAuthorizedSuccessor
      simp only [later, retained, atomically, found, held, demand, bind, Except.bind, generated,
        applied, WriteState.record]


theorem Kept.waits {accepted : List EventEdit}
    (kept : Kept N (some receipt) (some cell) (some successor) accepted) :
    ∃ c, Waits N receipt cell successor c := by
  cases kept with
  | waiting c _ _ waits _ => exact ⟨c, waits⟩

theorem Coherent.promote {revision : Nat} (h : Coherent N s) (found : s.writes[r]? = some receipt)
    (held : s.edits[r]? = some cell) (waiting : s.successors[r]? = some successor)
    (takes : TakesOver N r receipt successor current updated) :
    Coherent N { s with
      revision := revision
      writes := s.writes.insert r updated
      successors := s.successors.erase r
      edits := s.edits.insert r
        ⟨cell.edits ++ successor.edit.toList, cell.author, successor.source, none⟩ } := by
  have kept := h.keptAt found
  rw [held, waiting] at kept
  have advances : Advances receipt updated successor.event (successor.source.map Prod.fst) :=
    .of_unrouted takes.generated (applyInitialRoute_eq_ok takes.applied).1
  generalize accepted : s.accepted r = edits at kept
  cases kept with
  | waiting c counted holds waits taken =>
    have holds' : Holds N updated
        ⟨cell.edits ++ successor.edit.toList, cell.author, successor.source, none⟩ c :=
      advances.holds holds waits.author waits.coordinate (by simpa using waits.edit) rfl rfl rfl
    refine h.advance found held (holds'.last.trans holds.last.symm) rfl rfl ?_
      (fun _ _ => rfl) rfl rfl ?_
    · exact fun q other => BTreeMap.find_erase_of_ne other
    · rw [BTreeMap.find_erase, if_pos rfl]
      exact .head c (advances.counted counted) holds' (accepted.trans taken)

/-- In a coherent ledger nothing waits that could not take over. -/
theorem Coherent.takesOver (h : Coherent N s) (waiting : s.successors[r]? = some successor) :
    ∃ receipt cell current updated, s.writes[r]? = some receipt ∧ s.edits[r]? = some cell ∧
      TakesOver N r receipt successor current updated := by
  have kept := h.kept r
  rw [waiting] at kept
  generalize found : s.writes[r]? = receipt?, held : s.edits[r]? = cell?,
    s.accepted r = edits at kept
  cases kept with
  | waiting c counted _ waits _ =>
    obtain ⟨current, updated, generated, applied⟩ := waits.takesOver counted r
      (successor.source.map Prod.fst) (successorLanes _ successor)
    exact ⟨_, _, current, updated, rfl, rfl, generated, applied⟩

theorem Kept.authorized {cell? : Option SemanticCell} {successor? : Option Successor}
    {accepted : List EventEdit} (kept : Kept N (some receipt) cell? successor? accepted)
    (retained : successor?.isSome = true) :
    receipt.current.publication.signature = .authorized := by
  cases kept with
  | plain => cases retained
  | head => cases retained
  | waiting _ _ _ waits _ => exact waits.authorized

theorem Continues.sign {event : Event} {unsigned : UnsignedEvent}
    (holding : receipt.current.event = .unsigned unsigned) (signed : signs event unsigned) :
    Continues N receipt { receipt.withSignature .signed with
      current := { (receipt.withSignature .signed).current with event := .signed event } } := by
  refine ⟨?_, ?_, rfl, rfl, rfl, rfl, rfl, ?_⟩
  · rw [holding, signed]
    rfl
  · rw [holding, signed]
    rfl
  · rw [holding, signed]
    rfl

/-- What is recorded of the current generation leaves it the current one. -/
theorem Changes.continues (changes : Changes N r receipt action updated)
    (kept : updated.current.publication.revisionId = receipt.current.publication.revisionId) :
    receipt.isTerminal = false ∧ Continues N receipt updated := by
  -- Another generation has another number.
  have another : ∀ {other : Receipt} {event source lanes current},
      nextGeneration r receipt event source lanes = .ok current → other.current = current →
      unrouted updated = unrouted other → False := by
    rintro other event source lanes current generated rfl same
    obtain ⟨id, -, made⟩ := nextGeneration_eq_ok generated
    have number := congrArg (·.current.publication.revisionId) same
    change updated.current.publication.revisionId = other.current.publication.revisionId at number
    rw [kept, made] at number
    exact absurd number (Nat.ne_of_lt (Nat.lt_succ_self _))
  cases changes with
  | sign unsigned isOpen _ holding signed _ => exact ⟨isOpen, .sign holding signed⟩
  | refuse isOpen | retry isOpen | authorize _ isOpen => exact ⟨isOpen, .withSignature _⟩
  | fail _ isOpen => exact ⟨isOpen, ⟨rfl, rfl, rfl, rfl, rfl, rfl, rfl, rfl⟩⟩
  | route isOpen _ applied => exact ⟨isOpen, .of_unrouted (unrouted_of_applyRoute applied)⟩
  | begin _ isOpen => exact ⟨isOpen, .of_unrouted rfl⟩
  | outcome _ isOpen => exact ⟨isOpen, .of_unrouted (unrouted_settle _)⟩
  | cancel isOpen => exact ⟨isOpen, .of_unrouted rfl⟩
  | restart _ _ _ _ _ generated applied =>
    exact (another generated rfl (applyInitialRoute_eq_ok applied).1).elim
  | correct _ _ _ _ _ generated applied =>
    exact (another generated rfl (applyInitialRoute_eq_ok applied).1).elim

end Signing

/-- A receipt that goes on in the same generation keeps its custody until it ends. -/
theorem Coherent.deliver {revision : Nat} (h : Coherent N s) (found : s.writes[r]? = some receipt)
    (isOpen : receipt.isTerminal = false) (continues : Continues N receipt updated)
    (awaited : r ∈ s.successors → receipt.current.publication.signature = .authorized →
      updated.isTerminal = true ∨ updated.current.publication.signature = .authorized) :
    Coherent N
      (released { s with revision := revision, writes := s.writes.insert r updated } r updated) := by
  unfold released
  split
  · rename_i terminal
    exact h.release found continues terminal
  · rename_i stays
    refine h.keep found ⟨?_, fun _ _ => rfl, fun _ _ => rfl, fun _ _ => rfl⟩ ?_ rfl rfl rfl
    · exact fun q other => BTreeMap.find_insert_of_ne other
    · rw [BTreeMap.find_insert, if_pos rfl]
      refine (h.keptAt found).continue isOpen continues fun retained => ?_
      exact (awaited (ExtTreeMap.mem_iff_isSome_getElem?.mpr retained)
        ((h.keptAt found).authorized retained)).resolve_left stays

theorem Coherent.remove {revision : Nat} (h : Coherent N s) (found : s.writes[r]? = some receipt) :
    Coherent N { releaseSemantic s r with revision := revision, writes := s.writes.erase r } := by
  refine h.free found ?_ rfl rfl rfl rfl rfl ?_
  · intro q other
    show (s.writes.erase r)[q]? = _
    rw [BTreeMap.find_erase, if_neg other]
  · show Kept N (s.writes.erase r)[r]? none none _
    rw [BTreeMap.find_erase, if_pos rfl]
    exact .absent

/-- Every transition leaves the ledger coherent. -/
theorem Coherent.transition {capacity : Nat} {action : Action} (h : Coherent N s)
    (transition : Transition N capacity s action s') : Coherent N s' := by
  cases transition with
  | refused => exact h
  | reserved | freed => exact h.reserve
  | accepted _ enters =>
    exact h.enter rfl (counted_of_enters enters) (fun _ _ => rfl) (.inr h.unused.2.2.2.1)
  | consumed _ took => exact h.take took
  | opened _ took vacant _ valid _ made applied => exact (h.take took).openHead vacant valid made applied
  | queued _ took owner found held composes authorized unqueued =>
    obtain ⟨routed, fits⟩ := composes.fits
    exact (h.take took).queue owner found held composes (applyInitialRoute_eq_ok fits).2 authorized
      unqueued
  | composed _ took owner found held composes unauthorized generated applied =>
    exact (h.take took).compose owner found held composes unauthorized generated applied
  | deferred found held corrects authorized unqueued =>
    exact h.defer found held corrects authorized unqueued
  | corrected found held _ _ corrects unauthorized _ generated applied =>
    exact h.correct found held corrects unauthorized
      (.of_unrouted generated (applyInitialRoute_eq_ok applied).1)
  | failed found held _ kept =>
    obtain ⟨failure, rfl⟩ := kept
    exact h.fail found held ⟨rfl, rfl, rfl, rfl, rfl, rfl, rfl, rfl⟩ rfl
  | promoted found held waiting _ takes => exact h.promote found held waiting takes
  | abandoned waiting stuck =>
    obtain ⟨receipt, cell, current, updated, found, held, takes⟩ := h.takesOver waiting
    exact (stuck receipt cell current updated found held takes).elim
  | recorded found changes kept awaited =>
    obtain ⟨isOpen, continues⟩ := changes.continues kept
    exact h.deliver found isOpen continues awaited
  | removed found _ => exact h.remove found

/-- Every operation, carried out or refused, leaves the ledger coherent. -/
theorem perform_coherent {capacity : Nat} (h : Coherent N s) (action : Action) :
    Coherent N (perform N capacity s action) :=
  h.transition (perform_transition N capacity s action)

theorem default_coherent : Coherent N .default where
  kept r := by
    simp only [WriteState.default, ExtTreeMap.getElem?_empty]
    exact .absent
  heads c r := by
    simp only [WriteState.default, ExtTreeMap.getElem?_empty]
    exact iff_of_false (fun absent => by cases absent) (fun absent => by cases absent)
  fresh r _ := ⟨ExtTreeMap.getElem?_empty, rfl⟩

theorem run_coherent {capacity : Nat} {actions : List Action}
    (run : Run (step N capacity) Free .default actions s) : Coherent N s := by
  refine run.invariant (Coherent N) default_coherent ?_
  intro t action u coherent _ stepped
  obtain rfl := Option.some.inj stepped
  exact perform_coherent coherent action

/-- An open head of a coordinate: a receipt that took edits, has work left, and whose
current event stands at the coordinate. -/
def WriteState.HeadAt (N : Library) (s : WriteState) (c : EventCoordinate) (r : ReceiptId) : Prop :=
  ∃ receipt : Receipt, s.writes[r]? = some receipt ∧ receipt.isTerminal = false ∧
    s.accepted r ≠ [] ∧ receipt.current.event.coordinate N = .ok c

/-- Cells, heads, successors, edits and sources agree with each other. -/
structure CustodyCoherent (N : Library) (s : WriteState) : Prop where
  owned : ∀ (r : ReceiptId) (cell : SemanticCell), s.edits[r]? = some cell →
    ∃ receipt : Receipt, s.writes[r]? = some receipt ∧
    receipt.current.event.author = cell.author ∧ cell.edits ≠ [] ∧
    ∀ edit ∈ cell.edits, receipt.current.event.coordinate N = .ok (editCoordinate edit cell.author)
  single : ∀ c r q, s.HeadAt N c r → s.HeadAt N c q → r = q
  held : ∀ c r, s.HeadAt N c r → r ∈ s.edits
  retained : ∀ (r : ReceiptId) (successor : Successor), s.successors[r]? = some successor →
    ∃ (receipt : Receipt) (cell : SemanticCell), s.writes[r]? = some receipt ∧ s.edits[r]? = some cell ∧
    receipt.current.publication.signature = .authorized ∧
    s.accepted r = cell.edits ++ successor.edit.toList
  applied : ∀ (r : ReceiptId) (cell : SemanticCell), s.edits[r]? = some cell →
    s.accepted r = cell.edits ++ (s.successors[r]?.bind Successor.edit).toList
  source : ∀ (r : ReceiptId) (cell : SemanticCell) (receipt : Receipt),
    s.edits[r]? = some cell → s.writes[r]? = some receipt →
    receipt.current.publication.revisionSource = cell.source.map Prod.fst

theorem Kept.ofCell {receipt? : Option Receipt} {successor? : Option Successor}
    {accepted : List EventEdit} (kept : Kept N receipt? (some cell) successor? accepted) :
    ∃ receipt c, receipt? = some receipt ∧ Holds N receipt cell c ∧
      accepted = cell.edits ++ (successor?.bind Successor.edit).toList := by
  cases kept with
  | head c _ holds taken => exact ⟨_, c, rfl, holds, taken.trans (List.append_nil _).symm⟩
  | waiting c _ holds _ taken => exact ⟨_, c, rfl, holds, taken⟩

theorem Kept.ofSuccessor {receipt? : Option Receipt} {cell? : Option SemanticCell}
    {successor : Successor} {accepted : List EventEdit}
    (kept : Kept N receipt? cell? (some successor) accepted) :
    ∃ receipt cell, receipt? = some receipt ∧ cell? = some cell ∧
      receipt.current.publication.signature = .authorized ∧
      accepted = cell.edits ++ successor.edit.toList := by
  cases kept with
  | waiting _ _ _ waits taken => exact ⟨_, _, rfl, rfl, waits.authorized, taken⟩

/-- An open head has its cell, at its own coordinate. -/
theorem Coherent.cellOfHead (h : Coherent N s) (head : s.HeadAt N c r) :
    ∃ cell, s.edits[r]? = some cell ∧ cell.coordinate = some c := by
  obtain ⟨receipt, found, isOpen, took, located⟩ := head
  have kept := h.keptAt found
  generalize held : s.edits[r]? = cell?, s.successors[r]? = successor?,
    s.accepted r = accepted at kept took
  cases kept with
  | plain _ idle =>
    rw [isOpen] at idle
    exact absurd (idle.resolve_left nofun) took
  | head d _ holds _ =>
    refine ⟨_, rfl, ?_⟩
    rw [holds.last, ← Except.ok.inj (holds.coordinate.symm.trans located)]
  | waiting d _ holds _ _ =>
    refine ⟨_, rfl, ?_⟩
    rw [holds.last, ← Except.ok.inj (holds.coordinate.symm.trans located)]

theorem Coherent.custody (h : Coherent N s) : CustodyCoherent N s where
  owned r cell held := by
    have kept := h.kept r
    rw [held] at kept
    obtain ⟨receipt, c, found, holds, -⟩ := kept.ofCell
    refine ⟨receipt, found, holds.author, ?_, ?_⟩
    · intro empty
      have last := holds.last
      rw [SemanticCell.coordinate, empty] at last
      cases last
    · intro edit member
      rw [holds.edits edit member]
      exact holds.coordinate
  single c r q first second := by
    obtain ⟨cell, held, last⟩ := h.cellOfHead first
    obtain ⟨other, heldToo, lastToo⟩ := h.cellOfHead second
    have owner := (h.heads c r).mpr (by rw [held]; exact last)
    have ownerToo := (h.heads c q).mpr (by rw [heldToo]; exact lastToo)
    exact Option.some.inj (owner.symm.trans ownerToo)
  held c r head := by
    obtain ⟨cell, held, -⟩ := h.cellOfHead head
    rw [ExtTreeMap.mem_iff_isSome_getElem?, held]
    rfl
  retained r successor waiting := by
    have kept := h.kept r
    rw [waiting] at kept
    exact kept.ofSuccessor
  applied r cell held := by
    have kept := h.kept r
    rw [held] at kept
    obtain ⟨_, _, -, -, taken⟩ := kept.ofCell
    exact taken
  source r cell receipt held found := by
    have kept := h.keptAt found
    rw [held] at kept
    obtain ⟨c, holds⟩ := kept.holds
    exact holds.source

/-- In every ledger the store can reach, semantic custody is coherent. -/
theorem custody_coherent {capacity : Nat} {actions : List Action}
    (run : Run (step N capacity) Free .default actions s) : CustodyCoherent N s :=
  (run_coherent run).custody

section Sample

/-- The first revision of a contact list, and one made from it. -/
def firstList : UnsignedEvent := ⟨some 20, 7, 10, 3, [], ""⟩

def secondList : UnsignedEvent := ⟨some 21, 7, 11, 3, [], ""⟩

def listEdit (change : List UInt8) : WriteIntent :=
  ⟨.edit ⟨3, none, change⟩ 7, .automatic, .unauthenticated⟩

/-- An edit that arrives while the head is being signed. -/
def editDuringSigning : List Action :=
  [.acceptAppliedEdit 10 (listEdit []) firstList none, .authorizeSigning 1 1 1 20,
    .acceptAppliedEdit 11 (listEdit [1]) secondList (some (.unsigned firstList))]

/-- The second edit waits behind the first. -/
theorem custody_coherent_during_signing : ∃ s,
    Run (step plainLibrary 10) Free .default editDuringSigning s ∧
      s.accepted 1 = [⟨3, none, []⟩, ⟨3, none, [1]⟩] ∧ 1 ∈ s.successors ∧
      CustodyCoherent plainLibrary s := by
  obtain ⟨s, run, checked⟩ := Run.of_any (show (exec (step plainLibrary 10) Free .default
    editDuringSigning).any (fun s => s.accepted 1 = [⟨3, none, []⟩, ⟨3, none, [1]⟩] &&
      s.successors.contains 1) = true by decide +kernel)
  rw [Bool.and_eq_true, decide_eq_true_eq] at checked
  exact ⟨s, run, checked.1, checked.2, custody_coherent run⟩

end Sample

end Fava.WriteStore.Memory
