import Fava.WriteStore.Memory.Transition
import Fava.WriteStore.Redb.Recovery

namespace Fava.WriteStore.Redb

open Std Fava.Lib Fava.Nostr Fava.Relay Fava.Routing Fava.Write
open Memory (Action Concludes Changes Enters Offer offered offer successorRoute Composes Corrects
  successorLanes TakesOver)

/-- The store after one transaction. -/
def Store.wrote (s : Store) (nextIdentity : Option Nat) (rows : List PersistedReceipt)
    (removals : List ReceiptId) (fault : Option Fault) (state : StoreState) : Store :=
  { s with
    state := state
    database := s.database.transact nextIdentity rows removals
    fault := fault }

/-- The ledger of the memory store with the same contents. -/
def StoreState.ledger (state : StoreState) : Memory.WriteState where
  revision := state.revision
  nextIdentity := state.nextIdentity
  nextReservation := state.nextReservation
  reservations := state.reservations
  writes := state.receipts
  coordinates := state.coordinates
  successors := state.semantics.filterMap fun _ custody => custody.successor
  edits := state.semantics.map fun _ custody => custody.cell
  taken := []

/-- The ledger after a receipt was recorded and the oldest terminal ones were given up. -/
def recordedState (s : Store) (r : ReceiptId) (updated : Receipt) (revision : Nat) : StoreState :=
  let pruned := (terminalEvictions s.state updated s.limits.terminal).foldl evict s.state
  let state := if updated.isTerminal then releaseSemanticCoordinate pruned r else pruned
  { state with
    receipts := state.receipts.insert r updated
    revision := revision }

/-- The ledger after the first revision of a vacant coordinate was accepted. -/
def openedState (s : Store) (t : StoreState) (o : Offer) (selected : Option Source)
    (receipt : Receipt) (revision : Nat) : StoreState :=
  let pruned := (terminalEvictions t receipt s.limits.terminal).foldl evict t
  { pruned with
    nextIdentity := t.nextIdentity + 1
    revision := revision
    semantics := pruned.semantics.insert t.nextIdentity ⟨[o.edit], o.author, selected, none, none⟩
    coordinates :=
      if receipt.isTerminal then pruned.coordinates
      else pruned.coordinates.insert o.coordinate t.nextIdentity
    receipts := pruned.receipts.insert t.nextIdentity receipt }

/-- What one operation can make of the store. -/
inductive Transition (N : Library) (W : Codec PersistedReceipt) (s : Store) : Action → Store → Prop
  | idle {action : Action} {reservations : BTreeMap Nat EventCoordinate} {next : Nat} :
      Transition N W s action { s with state := { s.state with
        reservations := reservations
        nextReservation := next } }
  | accepted {intent : WriteIntent} {receipt : Receipt} {revision : Nat} {fault : Option Fault}
      (room : capacityReached s.state s.limits.active = false)
      (enters : Enters N s.state.nextIdentity receipt) (isOpen : receipt.isTerminal = false)
      (encoded : W.Writes ⟨receipt, none⟩) (routed : receipt.routeRevision ≤ 1) :
      Transition N W s (.accept intent)
        (s.wrote (some (s.state.nextIdentity + 1)) [⟨receipt, none⟩] [] fault { s.state with
          nextIdentity := s.state.nextIdentity + 1
          revision := revision
          receipts := s.state.receipts.insert s.state.nextIdentity receipt })
  | opened {action : Action} {o : Offer} {t : StoreState} {selected : Option Source}
      {fresh receipt : Receipt} {revision : Nat} {fault : Option Fault}
      (offers : offered action = some o)
      (took : takeReservation o.reservation o.coordinate s.state = .ok t)
      (vacant : t.coordinates[o.coordinate]? = none)
      (valid : validateRevision N o.now o.edit o.author o.event o.source o.routing = .ok selected)
      (counted : t.nextIdentity + 1 < counterBound)
      (made : acceptedReceipt t.nextIdentity (.unsigned o.event) .unsigned
        (selected.map Prod.fst) o.routing o.access = .ok fresh)
      (applied : applyInitialRoute N fresh o.route = .ok receipt)
      (encoded : W.Writes
        ⟨receipt, some ⟨[o.edit], o.author, selected, none, none⟩⟩) :
      Transition N W s action
        (s.wrote (some (t.nextIdentity + 1))
          [⟨receipt, some ⟨[o.edit], o.author, selected, none, none⟩⟩]
          (terminalEvictions t receipt s.limits.terminal) fault
          (openedState s t o selected receipt revision))
  | queued {action : Action} {o : Offer} {t : StoreState} {r : ReceiptId} {receipt : Receipt}
      {custody waiting : SemanticCustody} {fault : Option Fault}
      (offers : offered action = some o)
      (took : takeReservation o.reservation o.coordinate s.state = .ok t)
      (owner : t.coordinates[o.coordinate]? = some r) (found : t.receipts[r]? = some receipt)
      (held : t.semantics[r]? = some custody) (composes : Composes N o receipt custody.cell)
      (authorized : receipt.current.publication.signature = .authorized)
      (unqueued : custody.successor = none)
      (waits : waiting = ⟨custody.edits, o.author, custody.currentSource, none,
        some ⟨some o.edit, o.event, custody.currentSource, successorRoute receipt o.route⟩⟩)
      (encoded : W.Writes ⟨receipt, some waiting⟩)
      (revised : ∀ plan ∈ successorRoute receipt o.route, plan.revision < counterBound) :
      Transition N W s action
        (s.wrote none [⟨receipt, some waiting⟩] [] fault { t with
          semantics := t.semantics.insert r waiting })
  | composed {action : Action} {o : Offer} {t : StoreState} {r : ReceiptId}
      {receipt updated : Receipt} {custody composed : SemanticCustody} {current : LocalWriteEvent}
      {revision : Nat} {fault : Option Fault} (offers : offered action = some o)
      (took : takeReservation o.reservation o.coordinate s.state = .ok t)
      (owner : t.coordinates[o.coordinate]? = some r) (found : t.receipts[r]? = some receipt)
      (held : t.semantics[r]? = some custody) (composes : Composes N o receipt custody.cell)
      (unauthorized : receipt.current.publication.signature ≠ .authorized)
      (generated : nextGeneration r receipt o.event (custody.currentSource.map Prod.fst)
        (destinations o.routing) = .ok current)
      (applied : applyInitialRoute N (restarted receipt current)
        (successorRoute receipt o.route) = .ok updated)
      (appends : composed =
        ⟨custody.edits ++ [o.edit], o.author, custody.currentSource, none, none⟩)
      (encoded : W.Writes
        ⟨updated, if updated.isTerminal then none else some composed⟩)
      (revised : ∀ plan ∈ successorRoute receipt o.route, plan.revision < counterBound) :
      Transition N W s action
        (s.wrote none [⟨updated, if updated.isTerminal then none else some composed⟩] [] fault
          (if updated.isTerminal then
            releaseSemantic { t with
              revision := revision
              receipts := t.receipts.insert r updated } r
          else { t with
            revision := revision
            receipts := t.receipts.insert r updated
            semantics := t.semantics.insert r composed }))
  | deferred {now : Timestamp} {writeId : WriteId} {r : ReceiptId} {expected : RevisionId}
      {expectedSource : Option EventId} {appliedEdits : List EventEdit} {event : UnsignedEvent}
      {source : Option EventValue} {route : Option RoutePlan} {receipt : Receipt}
      {custody waiting : SemanticCustody} {selected : Option Source} {fault : Option Fault}
      (found : s.state.receipts[r]? = some receipt) (held : s.state.semantics[r]? = some custody)
      (corrects : Corrects N now receipt custody.cell event source selected route)
      (authorized : receipt.current.publication.signature = .authorized)
      (unqueued : custody.successor = none)
      (waits : waiting = ⟨custody.edits, custody.author, custody.currentSource, none,
        some ⟨none, event, selected, route⟩⟩)
      (encoded : W.Writes ⟨receipt, some waiting⟩) :
      Transition N W s
        (.installRevision now writeId r expected expectedSource appliedEdits event source route)
        (s.wrote none [⟨receipt, some waiting⟩] [] fault { s.state with
          semantics := s.state.semantics.insert r waiting })
  | corrected {now : Timestamp} {writeId : WriteId} {r : ReceiptId} {expected : RevisionId}
      {expectedSource : Option EventId} {appliedEdits : List EventEdit} {event : UnsignedEvent}
      {source : Option EventValue} {route : Option RoutePlan} {receipt updated : Receipt}
      {custody corrected : SemanticCustody} {selected : Option Source} {current : LocalWriteEvent}
      {revision : Nat} {fault : Option Fault}
      (found : s.state.receipts[r]? = some receipt) (held : s.state.semantics[r]? = some custody)
      (stands : requireCurrent receipt writeId expected expectedSource custody.currentSource = .ok ())
      (complete : custody.edits = appliedEdits)
      (corrects : Corrects N now receipt custody.cell event source selected route)
      (unauthorized : receipt.current.publication.signature ≠ .authorized)
      (bounded : (correctionDestinations receipt).size ≤ destinationEvidenceCapacity)
      (generated : nextGeneration r receipt event (selected.map Prod.fst)
        (BTreeMap.constant (correctionDestinations receipt).toList .pending) = .ok current)
      (applied : applyInitialRoute N
        { receipt with
          current := current
          outcome := .isOpen
          desiredDestinations := correctionDestinations receipt
          attempts := ∅ } route = .ok updated)
      (renews : corrected = ⟨custody.edits, custody.author, selected, none, none⟩)
      (encoded : W.Writes ⟨updated, some corrected⟩) :
      Transition N W s
        (.installRevision now writeId r expected expectedSource appliedEdits event source route)
        (s.wrote none [⟨updated, some corrected⟩] [] fault { s.state with
          revision := revision
          receipts := s.state.receipts.insert r updated
          semantics := s.state.semantics.insert r corrected })
  | failed {action : Action} {r : ReceiptId} {receipt updated : Receipt} {custody : SemanticCustody}
      {failedSource : Option EventId} {revision : Nat} {fault : Option Fault}
      (found : s.state.receipts[r]? = some receipt) (held : s.state.semantics[r]? = some custody)
      (changes : Changes N r receipt action updated) (isOpen : receipt.isTerminal = false)
      (kept : ∃ failure, updated = receipt.withPublication
        { receipt.current.publication with revisionFailure := failure })
      (encoded : W.Writes
        ⟨updated, some { custody with failedSource := failedSource }⟩) :
      Transition N W s action
        (s.wrote none [⟨updated, some { custody with failedSource := failedSource }⟩] [] fault
          { s.state with
            revision := revision
            receipts := s.state.receipts.insert r updated
            semantics := s.state.semantics.insert r { custody with failedSource := failedSource } })
  | promoted {action : Action} {r : ReceiptId} {receipt updated : Receipt}
      {custody promoted : SemanticCustody} {successor : Successor} {current : LocalWriteEvent}
      {revision : Nat} {fault : Option Fault}
      (found : s.state.receipts[r]? = some receipt) (held : s.state.semantics[r]? = some custody)
      (waiting : custody.successor = some successor) (due : Concludes N r receipt action)
      (authorized : receipt.current.publication.signature = .authorized)
      (takes : TakesOver N r receipt successor current updated)
      (renews : promoted = ⟨custody.edits ++ successor.edit.toList, custody.author,
        successor.source, none, none⟩)
      (encoded : W.Writes ⟨updated, some promoted⟩) :
      Transition N W s action
        (s.wrote none [⟨updated, some promoted⟩] [] fault { s.state with
          revision := revision
          receipts := s.state.receipts.insert r updated
          semantics := s.state.semantics.insert r promoted })
  | signed {action : Action} {r : ReceiptId} {receipt updated : Receipt} {revision : Nat}
      {fault : Option Fault}
      (found : s.state.receipts[r]? = some receipt) (changes : Changes N r receipt action updated)
      (isOpen : receipt.isTerminal = false)
      (kept : { updated with current := receipt.current } = receipt)
      (unqueued : hasSuccessor s.state r = true →
        receipt.current.publication.signature ≠ .authorized)
      (encoded : W.Writes ⟨updated, s.state.semantics[r]?⟩) :
      Transition N W s action
        (s.wrote none [⟨updated, s.state.semantics[r]?⟩] [] fault { s.state with
          revision := revision
          receipts := s.state.receipts.insert r updated })
  | recorded {action : Action} {r : ReceiptId} {receipt updated : Receipt} {revision : Nat}
      {fault : Option Fault} (found : s.state.receipts[r]? = some receipt)
      (changes : Changes N r receipt action updated) (isOpen : receipt.isTerminal = false)
      (kept : unrouted updated = unrouted receipt)
      (encoded : W.Writes ⟨updated, s.state.semantics[r]?⟩) :
      Transition N W s action
        (s.wrote none [⟨updated, s.state.semantics[r]?⟩]
          (terminalEvictions s.state updated s.limits.terminal) fault
          (recordedState s r updated revision))
  | removed {r : ReceiptId} {receipt : Receipt} {revision : Nat} {fault : Option Fault}
      (found : s.state.receipts[r]? = some receipt) (terminal : receipt.isTerminal = true) :
      Transition N W s (.removeReceipt r)
        (s.wrote none [] [r] fault { evict s.state r with revision := revision })

variable {N : Library} {W : Codec PersistedReceipt} {s s' : Store} {action : Action} {r : ReceiptId}
  {receipt updated : Receipt}

/-- A transaction that was taken encoded all its rows. -/
theorem commit_eq_ok {nextIdentity : Option Nat} {rows : List PersistedReceipt}
    {removals : List ReceiptId} (done : s.commit W nextIdentity rows removals = .ok s') :
    (∀ row ∈ rows, W.Writes row) ∧
      ∃ fault, s' = s.wrote nextIdentity rows removals fault s.state := by
  obtain ⟨_, encoded, done⟩ := bind_eq_ok.mp done
  refine ⟨fun row member => ?_, ?_⟩
  · obtain ⟨json, written, -⟩ := bind_eq_ok.mp (forM_eq_ok.mp encoded row member)
    exact ⟨json, mapError_eq_ok.mp written⟩
  · dsimp only at done
    split at done
    · exact ⟨s.fault, (Except.ok.inj done).symm⟩
    · cases done
    · rename_i after error _
      exact ⟨some ⟨after, error⟩, (Except.ok.inj done).symm⟩

theorem put_eq_ok {semantic : Option SemanticCustody}
    (done : s.put W r updated semantic = .ok s') :
    W.Writes ⟨updated, semantic⟩ ∧ ∃ revision fault,
      s' = s.wrote none [⟨updated, semantic⟩] [] fault { s.state with
        revision := revision
        receipts := s.state.receipts.insert r updated } := by
  obtain ⟨revision, -, done⟩ := bind_eq_ok.mp done
  obtain ⟨t, committed, done⟩ := bind_eq_ok.mp done
  obtain ⟨encoded, fault, rfl⟩ := commit_eq_ok committed
  exact ⟨encoded _ List.mem_cons_self, revision, fault, (Except.ok.inj done).symm⟩

/-- Taking a reservation changes nothing else. -/
theorem takeReservation_eq_ok {reservation : Option Nat} {c : EventCoordinate} {state t : StoreState}
    (took : takeReservation reservation c state = .ok t) :
    ∃ reservations, t = { state with reservations := reservations } := by
  cases reservation with
  | none => exact ⟨state.reservations, (Except.ok.inj took).symm⟩
  | some id =>
    obtain ⟨reserved, present, took⟩ := demand_bind_eq_ok.mp took
    obtain ⟨rfl, emptied⟩ := require_bind_eq_ok.mp took
    exact ⟨_, (Except.ok.inj emptied).symm⟩

theorem atomically_cases {α : Type} {f : Store → Except WriteStoreError (α × Store)}
    {P : Store → Prop} (done : ∀ answer s', f s = .ok (answer, s') → P s')
    (failed : P s) : P (atomically f s).2 := by
  unfold Redb.atomically
  cases result : f s with
  | error error => exact failed
  | ok both => exact done both.1 both.2 result

theorem Transition.same : Transition N W s action s := .idle

theorem Transition.atomically {α : Type} {f : Store → Except WriteStoreError (α × Store)}
    (done : ∀ answer s', f s = .ok (answer, s') → Transition N W s action s') :
    Transition N W s action (atomically f s).2 :=
  atomically_cases done .same

theorem reserveActiveSlot_transition {edit : EventEdit} {author : PublicKey} :
    Transition N W s action (reserveActiveSlot edit author s).2 := by
  apply Transition.atomically
  intro answer s' done
  obtain ⟨-, done⟩ := require_bind_eq_ok.mp done
  obtain ⟨-, done⟩ := require_bind_eq_ok.mp done
  obtain ⟨-, done⟩ := require_bind_eq_ok.mp done
  obtain ⟨-, done⟩ := require_bind_eq_ok.mp done
  obtain ⟨-, rfl⟩ := Prod.mk.inj (Except.ok.inj done)
  exact .idle

theorem releaseActiveSlot_transition {reservation : Nat} :
    Transition N W s action (releaseActiveSlot reservation s).2 := by
  apply Transition.atomically
  intro answer s' done
  obtain ⟨-, done⟩ := require_bind_eq_ok.mp done
  obtain ⟨-, rfl⟩ := Prod.mk.inj (Except.ok.inj done)
  exact .idle

section Acceptance

theorem completePayload_eq_ok {payload : WritePayload} {value : EventValue}
    {signature : SignatureState} (h : Memory.completePayload payload = .ok (value, signature)) :
    (∃ unsigned, value = .unsigned unsigned) ∧ signature = .unsigned ∨
      (∃ signed, value = .signed signed) ∧ signature = .signed := by
  unfold Memory.completePayload at h
  split at h
  · cases h
    exact .inl ⟨⟨_, rfl⟩, rfl⟩
  · cases h
  · cases h
    exact .inr ⟨⟨_, rfl⟩, rfl⟩

theorem open_of_acceptedReceipt {identity : Nat} {value : EventValue} {signature : SignatureState}
    {selected : Option EventId} {routing : WriteRouting} {access : Authority}
    (h : acceptedReceipt identity value signature selected routing access = .ok receipt) :
    receipt.isTerminal = false := by
  obtain ⟨current, -, h⟩ := bind_eq_ok.mp h
  obtain rfl := Except.ok.inj h
  rfl

theorem routeRevision_of_acceptedReceipt {identity : Nat} {value : EventValue}
    {signature : SignatureState} {source : Option EventId} {routing : WriteRouting} {access : Authority}
    (made : acceptedReceipt identity value signature source routing access = .ok receipt) :
    receipt.routeRevision ≤ 1 := by
  obtain ⟨current, -, made⟩ := bind_eq_ok.mp made
  obtain rfl := Except.ok.inj made
  exact Bool.toNat_le _

theorem accept_transition {intent : WriteIntent} :
    Transition N W s (.accept intent) (accept W intent s).2 := by
  apply Transition.atomically
  intro answer s' done
  obtain ⟨room, done⟩ := require_bind_eq_ok.mp done
  obtain ⟨next, counts, done⟩ := bind_eq_ok.mp done
  obtain ⟨⟨value, signature⟩, completed, done⟩ := bind_eq_ok.mp done
  obtain ⟨receipt, made, done⟩ := bind_eq_ok.mp done
  obtain ⟨revision, -, done⟩ := bind_eq_ok.mp done
  obtain ⟨t, committed, done⟩ := bind_eq_ok.mp done
  obtain ⟨-, rfl⟩ := Prod.mk.inj (Except.ok.inj done)
  obtain ⟨encoded, fault, rfl⟩ := commit_eq_ok committed
  obtain ⟨counted, rfl⟩ := Memory.nextIdentity_eq_ok counts
  refine .accepted (Bool.eq_false_iff.mpr room) ?_ (open_of_acceptedReceipt made)
    (encoded _ List.mem_cons_self) (routeRevision_of_acceptedReceipt made)
  exact .accepted value signature none intent.routing intent.access counted
    (completePayload_eq_ok completed) made (show applyInitialRoute N receipt none = .ok receipt from rfl)

theorem composeSemantic_transition {o : Offer} {t : StoreState} {answer : AcceptedWrite}
    {selected : Option Source} (offers : offered action = some o)
    (took : takeReservation o.reservation o.coordinate s.state = .ok t)
    (owner : t.coordinates[o.coordinate]? = some r)
    (valid : validateRevision N o.now o.edit o.author o.event o.source o.routing = .ok selected)
    (done : composeSemantic N W r o.edit o.author o.routing o.event o.source o.route
      { s with state := t } = .ok (answer, s')) : Transition N W s action s' := by
  obtain ⟨receipt, found, done⟩ := demand_bind_eq_ok.mp done
  obtain ⟨custody, held, done⟩ := demand_bind_eq_ok.mp done
  obtain ⟨⟨author, routing⟩, done⟩ := require_bind_eq_ok.mp done
  obtain ⟨unsigned, done⟩ := require_bind_eq_ok.mp done
  obtain ⟨chosen, sourced, done⟩ := bind_eq_ok.mp done
  obtain ⟨⟨made, exact⟩, done⟩ := require_bind_eq_ok.mp done
  obtain ⟨bounded, done⟩ := require_bind_eq_ok.mp done
  obtain ⟨counts, done⟩ := require_bind_eq_ok.mp done
  obtain ⟨routed, fits, done⟩ := bind_eq_ok.mp done
  have revised : ∀ plan ∈ successorRoute receipt o.route, plan.revision < counterBound := by
    intro plan brought
    obtain ⟨first, brought, rfl⟩ := Option.map_eq_some_iff.mp brought
    refine counts.resolve_left fun none_ => ?_
    rw [Option.isNone_iff_eq_none.mp none_] at brought
    cases brought
  have composes : Composes N o receipt custody.cell := by
    refine ⟨author, routing, ?_, ?_, bounded, routed, fits⟩
    · cases event : receipt.current.event with
      | unsigned unsigned => exact ⟨unsigned, rfl⟩
      | signed signed =>
        rw [event] at unsigned
        cases unsigned
    · have same := (Memory.validateSource_of_validateRevision valid).1
      rw [same] at sourced
      cases sourced
      rw [made] at same
      obtain ⟨id, -, rfl⟩ := Memory.validateSource_some same
      rw [valid]
      obtain rfl := Option.some.inj exact
      rfl
  split at done
  · rename_i authorized
    obtain ⟨unqueued, done⟩ := require_bind_eq_ok.mp done
    obtain ⟨u, committed, done⟩ := bind_eq_ok.mp done
    obtain ⟨-, rfl⟩ := Prod.mk.inj (Except.ok.inj done)
    obtain ⟨encoded, fault, rfl⟩ := commit_eq_ok committed
    exact .queued offers took owner found held composes authorized (Option.isNone_iff_eq_none.mp unqueued)
      rfl (encoded _ List.mem_cons_self) revised
  · rename_i unauthorized
    obtain ⟨current, generated, done⟩ := bind_eq_ok.mp done
    obtain ⟨updated, applied, done⟩ := bind_eq_ok.mp done
    obtain ⟨u, stored, done⟩ := bind_eq_ok.mp done
    obtain ⟨-, rfl⟩ := Prod.mk.inj (Except.ok.inj done)
    obtain ⟨encoded, revision, fault, rfl⟩ := put_eq_ok stored
    exact .composed offers took owner found held composes unauthorized generated applied rfl encoded
      revised

theorem acceptEdit_transition {o : Offer} {t : StoreState} {answer : AcceptedWrite}
    (offers : offered action = some o)
    (took : takeReservation o.reservation o.coordinate s.state = .ok t)
    (done : acceptEdit N W o.now o.reservation.isSome o.edit o.author o.routing o.access o.event
      o.source o.route { s with state := t } = .ok (answer, s')) : Transition N W s action s' := by
  obtain ⟨selected, valid, done⟩ := bind_eq_ok.mp done
  split at done
  · rename_i r owner
    obtain ⟨receipt, -, done⟩ := demand_bind_eq_ok.mp done
    obtain ⟨custody, -, done⟩ := demand_bind_eq_ok.mp done
    split at done
    · obtain ⟨-, rfl⟩ := Prod.mk.inj (Except.ok.inj done)
      obtain ⟨reservations, rfl⟩ := takeReservation_eq_ok took
      exact .idle
    · exact composeSemantic_transition offers took owner valid done
  · rename_i vacant
    obtain ⟨-, done⟩ := require_bind_eq_ok.mp done
    obtain ⟨next, counts, done⟩ := bind_eq_ok.mp done
    obtain ⟨fresh, made, done⟩ := bind_eq_ok.mp done
    obtain ⟨receipt, applied, done⟩ := bind_eq_ok.mp done
    obtain ⟨revision, -, done⟩ := bind_eq_ok.mp done
    obtain ⟨u, committed, done⟩ := bind_eq_ok.mp done
    obtain ⟨-, rfl⟩ := Prod.mk.inj (Except.ok.inj done)
    obtain ⟨encoded, fault, rfl⟩ := commit_eq_ok committed
    obtain ⟨counted, rfl⟩ := Memory.nextIdentity_eq_ok counts
    exact .opened offers took vacant valid counted made applied (encoded _ List.mem_cons_self)

theorem acceptSemanticInner_transition {now : Timestamp} {reservation : Option Nat}
    {intent : WriteIntent} {event : UnsignedEvent} {source : Option EventValue}
    {route : Option RoutePlan}
    (offers : offered action = offer now reservation intent event source route) :
    Transition N W s action
      (acceptSemanticInner N W now reservation intent event source route s).2 := by
  unfold acceptSemanticInner
  unfold offer at offers
  split
  · rename_i edit author payload
    rw [payload] at offers
    split
    · exact .same
    · rename_i t took
      refine atomically_cases (fun _ _ done => acceptEdit_transition offers took done) ?_
      obtain ⟨reservations, rfl⟩ := takeReservation_eq_ok took
      exact .idle
  · exact .same

end Acceptance

section Lifecycle

variable {now : Timestamp} {writeId : WriteId} {expected revisionId : RevisionId}
  {expectedSource : Option EventId} {appliedEdits : List EventEdit} {event : UnsignedEvent}
  {source : Option EventValue} {initialRoute : Option RoutePlan} {reason : String}
  {eventId : EventId} {session : RelayUrl} {attempt : Nat}

theorem installSemantic_transition :
    Transition N W s
      (.installRevision now writeId r expected expectedSource appliedEdits event source initialRoute)
      (installSemantic N W now writeId r expected expectedSource appliedEdits event source
        initialRoute s).2 := by
  apply Transition.atomically
  intro answer s' done
  obtain ⟨receipt, found, done⟩ := demand_bind_eq_ok.mp done
  obtain ⟨custody, held, done⟩ := demand_bind_eq_ok.mp done
  obtain ⟨_, current, done⟩ := bind_eq_ok.mp done
  obtain ⟨complete, done⟩ := require_bind_eq_ok.mp done
  obtain ⟨edit, last, done⟩ := demand_bind_eq_ok.mp done
  obtain ⟨selected, valid, done⟩ := bind_eq_ok.mp done
  split at done
  · obtain ⟨-, rfl⟩ := Prod.mk.inj (Except.ok.inj done)
    exact .same
  · obtain ⟨_, qualifies, done⟩ := bind_eq_ok.mp done
    obtain ⟨id, known, done⟩ := demand_bind_eq_ok.mp done
    obtain ⟨newer, done⟩ := require_bind_eq_ok.mp done
    obtain ⟨bounded, done⟩ := require_bind_eq_ok.mp done
    obtain ⟨routed, fits, done⟩ := bind_eq_ok.mp done
    have qualified : qualified custody.currentSource selected = true := of_require qualifies
    have corrects : Corrects N now receipt custody.cell event source selected initialRoute :=
      ⟨open_of_requireCurrent current, ⟨edit, last, valid⟩, qualified, ⟨id, known, newer⟩, bounded,
        routed, fits⟩
    split at done
    · rename_i authorized
      obtain ⟨unqueued, done⟩ := require_bind_eq_ok.mp done
      obtain ⟨u, committed, done⟩ := bind_eq_ok.mp done
      obtain ⟨-, rfl⟩ := Prod.mk.inj (Except.ok.inj done)
      obtain ⟨encoded, fault, rfl⟩ := commit_eq_ok committed
      exact .deferred found held corrects authorized (Option.isNone_iff_eq_none.mp unqueued) rfl
        (encoded _ List.mem_cons_self)
    · rename_i unauthorized
      obtain ⟨few, done⟩ := require_bind_eq_ok.mp done
      obtain ⟨next, generated, done⟩ := bind_eq_ok.mp done
      obtain ⟨updated, applied, done⟩ := bind_eq_ok.mp done
      obtain ⟨u, stored, done⟩ := bind_eq_ok.mp done
      obtain ⟨-, rfl⟩ := Prod.mk.inj (Except.ok.inj done)
      obtain ⟨encoded, revision, fault, rfl⟩ := put_eq_ok stored
      exact .corrected found held current complete corrects unauthorized few generated applied rfl
        encoded

theorem recordSemanticFailure_transition :
    Transition N W s (.recordRevisionFailure writeId r expected expectedSource source reason)
      (recordSemanticFailure N W writeId r expected expectedSource source reason s).2 := by
  apply Transition.atomically
  intro answer s' done
  obtain ⟨receipt, found, done⟩ := demand_bind_eq_ok.mp done
  obtain ⟨custody, held, done⟩ := demand_bind_eq_ok.mp done
  obtain ⟨_, current, done⟩ := bind_eq_ok.mp done
  obtain ⟨_, -, done⟩ := demand_bind_eq_ok.mp done
  obtain ⟨failedSource, -, done⟩ := bind_eq_ok.mp done
  obtain ⟨_, -, done⟩ := bind_eq_ok.mp done
  dsimp only at done
  split at done
  · obtain ⟨-, rfl⟩ := Prod.mk.inj (Except.ok.inj done)
    exact .same
  · obtain ⟨u, stored, done⟩ := bind_eq_ok.mp done
    obtain ⟨-, rfl⟩ := Prod.mk.inj (Except.ok.inj done)
    obtain ⟨encoded, revision, fault, rfl⟩ := put_eq_ok stored
    have isOpen := open_of_requireCurrent current
    exact .failed found held (.fail failedSource isOpen) isOpen ⟨_, rfl⟩ encoded

theorem promoteAuthorizedSuccessor_transition {answer : Receipt}
    (found : s.state.receipts[r]? = some receipt) (due : Concludes N r receipt action)
    (done : promoteAuthorizedSuccessor N W r s = .ok (answer, s')) : Transition N W s action s' := by
  obtain ⟨custody, held, done⟩ := demand_bind_eq_ok.mp done
  obtain ⟨successor, waiting, done⟩ := demand_bind_eq_ok.mp done
  obtain ⟨other, present, done⟩ := demand_bind_eq_ok.mp done
  rw [found] at present
  cases present
  obtain ⟨authorized, done⟩ := require_bind_eq_ok.mp done
  obtain ⟨current, generated, done⟩ := bind_eq_ok.mp done
  obtain ⟨updated, applied, done⟩ := bind_eq_ok.mp done
  obtain ⟨u, stored, done⟩ := bind_eq_ok.mp done
  obtain ⟨-, rfl⟩ := Prod.mk.inj (Except.ok.inj done)
  obtain ⟨encoded, revision, fault, rfl⟩ := put_eq_ok stored
  exact .promoted found held waiting due authorized ⟨generated, applied⟩ rfl encoded

/-- Receipts stand under their own identities. -/
def Named (state : StoreState) : Prop :=
  ∀ (r : ReceiptId) (receipt : Receipt), state.receipts[r]? = some receipt → receipt.receiptId = r

theorem commitReceipt_transition {answer : Receipt}
    (done : commitReceipt W updated s = .ok (answer, s')) (named : Named s.state)
    (found : s.state.receipts[r]? = some receipt) (changes : Changes N r receipt action updated)
    (isOpen : receipt.isTerminal = false)
    (kept : { updated with current := receipt.current } = receipt)
    (unqueued : hasSuccessor s.state r = true → receipt.current.publication.signature ≠ .authorized) :
    Transition N W s action s' := by
  obtain ⟨t, stored, done⟩ := bind_eq_ok.mp done
  obtain ⟨-, rfl⟩ := Prod.mk.inj (Except.ok.inj done)
  have own := congrArg Receipt.receiptId kept
  change updated.receiptId = receipt.receiptId at own
  rw [named r receipt found] at own
  rw [own] at stored
  obtain ⟨encoded, revision, fault, rfl⟩ := put_eq_ok stored
  exact .signed found changes isOpen kept unqueued encoded

theorem recordSignerRetryableCurrent_transition (named : Named s.state) :
    Transition N W s (.recordSignerRetryable writeId r revisionId eventId reason)
      (recordSignerRetryableCurrent N W writeId r revisionId eventId reason s).2 := by
  apply Transition.atomically
  intro answer s' done
  obtain ⟨_, bounded, done⟩ := bind_eq_ok.mp done
  obtain ⟨receipt, found, done⟩ := demand_bind_eq_ok.mp done
  obtain ⟨_, current, done⟩ := bind_eq_ok.mp done
  have isOpen := open_of_validateCurrentRevision current
  split at done
  · cases done
  · cases done
  · rename_i state
    split at done
    · exact promoteAuthorizedSuccessor_transition found ⟨rfl, bounded, current⟩ done
    · rename_i alone
      exact commitReceipt_transition done named found
        (.retry isOpen bounded (by rw [state]; exact ⟨nofun, nofun⟩)) isOpen rfl
        fun waits => (alone waits).elim
  all_goals
    rename_i state
    exact commitReceipt_transition done named found
      (.retry isOpen bounded (by rw [state]; exact ⟨nofun, nofun⟩)) isOpen rfl
      fun _ authorized => by rw [state] at authorized; cases authorized

theorem installSignedCurrent_transition {event : Event} (named : Named s.state) :
    Transition N W s (.installSigned writeId r revisionId eventId event)
      (installSignedCurrent N W writeId r revisionId eventId event s).2 := by
  apply Transition.atomically
  intro answer s' done
  obtain ⟨_, verified, done⟩ := bind_eq_ok.mp done
  obtain ⟨receipt, found, done⟩ := demand_bind_eq_ok.mp done
  obtain ⟨_, current, done⟩ := bind_eq_ok.mp done
  have isOpen := open_of_validateCurrentRevision current
  have verified := mapError_eq_ok.mp verified
  split at done
  · split at done
    · obtain ⟨-, rfl⟩ := Prod.mk.inj (Except.ok.inj done)
      exact .same
    · cases done
  · rename_i unsigned holding
    obtain ⟨signed, done⟩ := require_bind_eq_ok.mp done
    obtain ⟨authorized, done⟩ := require_bind_eq_ok.mp done
    split at done
    · exact promoteAuthorizedSuccessor_transition found
        ⟨rfl, current, verified, unsigned, holding, signed⟩ done
    · rename_i alone
      exact commitReceipt_transition done named found
        (.sign unsigned isOpen verified holding signed (.inl authorized)) isOpen rfl
        fun waits => (alone waits).elim

theorem recordSignerRefusalCurrent_transition (named : Named s.state) :
    Transition N W s (.recordSignerRefusal writeId r revisionId eventId reason)
      (recordSignerRefusalCurrent N W writeId r revisionId eventId reason s).2 := by
  apply Transition.atomically
  intro answer s' done
  obtain ⟨_, bounded, done⟩ := bind_eq_ok.mp done
  obtain ⟨receipt, found, done⟩ := demand_bind_eq_ok.mp done
  obtain ⟨_, current, done⟩ := bind_eq_ok.mp done
  have isOpen := open_of_validateCurrentRevision current
  split at done
  · obtain ⟨-, rfl⟩ := Prod.mk.inj (Except.ok.inj done)
    exact .same
  · obtain ⟨authorized, done⟩ := require_bind_eq_ok.mp done
    split at done
    · exact promoteAuthorizedSuccessor_transition found ⟨rfl, bounded, current⟩ done
    · rename_i alone
      exact commitReceipt_transition done named found (.refuse isOpen bounded authorized) isOpen rfl
        fun waits => (alone waits).elim

/-- Both stores decide alike whether signing may begin. -/
theorem authorization_ledger : Memory.authorization N s.state.ledger writeId r revisionId eventId =
    if (s.state.semantics[r]?).any (fun custody => custody.edits.getLast?.any fun edit =>
        isReserved s.state (editCoordinate edit custody.author)) = true then
      .retryable (Memory.deferral N writeId r revisionId eventId)
    else .authorized := by
  have same : ((s.state.ledger.edits[r]?).any fun cell => cell.edits.getLast?.any fun edit =>
      Memory.isReserved s.state.ledger (editCoordinate edit cell.author)) =
      (s.state.semantics[r]?).any fun custody => custody.edits.getLast?.any fun edit =>
        isReserved s.state (editCoordinate edit custody.author) := by
    rw [StoreState.ledger, ExtTreeMap.getElem?_map]
    cases s.state.semantics[r]? <;> rfl
  rw [Memory.authorization, same]

theorem authorizeSigningCurrent_transition :
    Transition N W s (.authorizeSigning writeId r revisionId eventId)
      (authorizeSigningCurrent N W writeId r revisionId eventId s).2 := by
  apply Transition.atomically
  intro answer s' done
  obtain ⟨receipt, found, done⟩ := demand_bind_eq_ok.mp done
  obtain ⟨_, current, done⟩ := bind_eq_ok.mp done
  obtain ⟨unsigned, done⟩ := require_bind_eq_ok.mp done
  have isOpen := open_of_validateCurrentRevision current
  have holding : ∃ unsigned, receipt.current.event = .unsigned unsigned := by
    cases event : receipt.current.event with
    | unsigned unsigned => exact ⟨unsigned, rfl⟩
    | signed signed =>
      rw [event] at unsigned
      cases unsigned
  split at done
  · obtain ⟨-, rfl⟩ := Prod.mk.inj (Except.ok.inj done)
    exact .same
  · cases done
  · cases done
  all_goals
    rename_i state
    dsimp only at done
    rw [← authorization_ledger] at done
    split at done
    · obtain ⟨-, rfl⟩ := Prod.mk.inj (Except.ok.inj done)
      exact .same
    · obtain ⟨u, stored, done⟩ := bind_eq_ok.mp done
      obtain ⟨-, rfl⟩ := Prod.mk.inj (Except.ok.inj done)
      obtain ⟨encoded, revision, fault, rfl⟩ := put_eq_ok stored
      exact .signed found
        (.authorize s.state.ledger isOpen (by rw [state]; exact ⟨nofun, nofun⟩) holding) isOpen rfl
        (fun _ authorized => by rw [state] at authorized; cases authorized) encoded

/-- What a change of one receipt makes of the store. -/
theorem update_transition {mutation : Receipt → Except WriteStoreError Receipt}
    (mutates : ∀ receipt updated : Receipt, s.state.receipts[r]? = some receipt →
      mutation receipt = .ok updated → updated ≠ receipt → receipt.isTerminal = false ∧
        Changes N r receipt action updated ∧ unrouted updated = unrouted receipt) :
    Transition N W s action (update W r mutation s).2 := by
  apply Transition.atomically
  intro answer s' done
  obtain ⟨original, found, done⟩ := demand_bind_eq_ok.mp done
  obtain ⟨receipt, mutated, done⟩ := bind_eq_ok.mp done
  split at done
  · obtain ⟨-, rfl⟩ := Prod.mk.inj (Except.ok.inj done)
    exact .same
  · rename_i differs
    obtain ⟨revision, -, done⟩ := bind_eq_ok.mp done
    obtain ⟨u, committed, done⟩ := bind_eq_ok.mp done
    obtain ⟨-, rfl⟩ := Prod.mk.inj (Except.ok.inj done)
    obtain ⟨encoded, fault, rfl⟩ := commit_eq_ok committed
    obtain ⟨isOpen, changes, kept⟩ := mutates original receipt found mutated differs
    exact .recorded found changes isOpen kept (encoded _ List.mem_cons_self)

theorem applyRoute_transition {plan : RoutePlan} :
    Transition N W s (.applyRoute writeId r revisionId eventId plan)
      (update W r (applyRouteCurrent N writeId revisionId eventId plan) s).2 := by
  apply update_transition
  intro receipt updated found mutated _
  obtain ⟨_, current, applied⟩ := bind_eq_ok.mp mutated
  have isOpen := open_of_validateCurrentRevision current
  exact ⟨isOpen, .route isOpen current applied, unrouted_of_applyRoute applied⟩

theorem beginAttempt_transition :
    Transition N W s (.beginAttempt writeId r revisionId eventId session attempt)
      (update W r (beginAttemptCurrent writeId revisionId eventId session attempt) s).2 := by
  apply update_transition
  intro receipt updated found mutated differs
  obtain ⟨_, current, mutated⟩ := bind_eq_ok.mp mutated
  obtain ⟨-, mutated⟩ := require_bind_eq_ok.mp mutated
  dsimp only at mutated
  split at mutated
  · exact (differs (Except.ok.inj mutated).symm).elim
  · obtain ⟨-, mutated⟩ := require_bind_eq_ok.mp mutated
    obtain ⟨later, mutated⟩ := require_bind_eq_ok.mp mutated
    obtain ⟨outcome, lane, mutated⟩ := demand_bind_eq_ok.mp mutated
    obtain ⟨fresh, mutated⟩ := require_bind_eq_ok.mp mutated
    obtain rfl := Except.ok.inj mutated
    have isOpen := open_of_validateCurrentRevision current
    exact ⟨isOpen, .begin outcome isOpen later lane fresh, rfl⟩

theorem recordOutcome_transition {outcome : RelayDeliveryOutcome} :
    Transition N W s (.recordOutcome writeId r revisionId eventId session attempt outcome)
      (recordOutcome W writeId r revisionId eventId session attempt outcome s).2 := by
  unfold recordOutcome
  split
  · exact .same
  · rename_i bounded
    split
    · rename_i decided
      apply update_transition
      intro receipt updated found mutated differs
      obtain ⟨_, current, mutated⟩ := bind_eq_ok.mp mutated
      obtain ⟨tried, mutated⟩ := require_bind_eq_ok.mp mutated
      obtain ⟨previous, lane, mutated⟩ := demand_bind_eq_ok.mp mutated
      split at mutated
      · exact (differs (Except.ok.inj mutated).symm).elim
      · obtain ⟨moves, mutated⟩ := require_bind_eq_ok.mp mutated
        obtain rfl := Except.ok.inj mutated
        have isOpen := open_of_validateCurrentRevision current
        exact ⟨isOpen, .outcome previous isOpen bounded decided tried lane moves, unrouted_settle _⟩
    · exact .same

theorem cancel_transition : Transition N W s (.cancel r) (cancel W r s).2 := by
  unfold cancel
  split
  · exact .same
  · split
    · exact .same
    · apply update_transition
      intro receipt updated found mutated _
      obtain ⟨⟨isOpen, untouched⟩, mutated⟩ := require_bind_eq_ok.mp mutated
      obtain rfl := Except.ok.inj mutated
      have isOpen : receipt.isTerminal = false := by simpa using isOpen
      exact ⟨isOpen, .cancel isOpen untouched, rfl⟩

theorem removeReceipt_transition :
    Transition N W s (.removeReceipt r) (removeReceipt W r s).2 := by
  apply Transition.atomically
  intro answer s' done
  obtain ⟨finished, done⟩ := require_bind_eq_ok.mp done
  split at done
  · rename_i present
    obtain ⟨revision, -, done⟩ := bind_eq_ok.mp done
    obtain ⟨u, committed, done⟩ := bind_eq_ok.mp done
    obtain ⟨-, rfl⟩ := Prod.mk.inj (Except.ok.inj done)
    obtain ⟨-, fault, rfl⟩ := commit_eq_ok committed
    obtain ⟨receipt, found⟩ := Option.isSome_iff_exists.mp
      (ExtTreeMap.mem_iff_isSome_getElem?.mp present)
    have terminal : receipt.isTerminal = true := by
      rw [found] at finished
      simpa using finished
    exact .removed found terminal
  · obtain ⟨-, rfl⟩ := Prod.mk.inj (Except.ok.inj done)
    exact .same

end Lifecycle

/-- Every operation, carried out or refused, is one of the transitions. -/
theorem perform_transition (named : Named s.state) (action : Action) :
    Transition N W s action (perform N W action s).2 := by
  cases action with
  | reserveActive => exact reserveActiveSlot_transition
  | releaseActive => exact releaseActiveSlot_transition
  | accept => exact accept_transition
  | acceptAppliedEdit => exact acceptSemanticInner_transition rfl
  | acceptReservedAppliedEdit => exact acceptSemanticInner_transition rfl
  | installRevision => exact installSemantic_transition
  | recordRevisionFailure => exact recordSemanticFailure_transition
  | installSigned => exact installSignedCurrent_transition named
  | authorizeSigning => exact authorizeSigningCurrent_transition
  | recordSignerRetryable => exact recordSignerRetryableCurrent_transition named
  | recordSignerRefusal => exact recordSignerRefusalCurrent_transition named
  | applyRoute => exact applyRoute_transition
  | beginAttempt => exact beginAttempt_transition
  | recordOutcome => exact recordOutcome_transition
  | cancel => exact cancel_transition
  | removeReceipt => exact removeReceipt_transition

end Fava.WriteStore.Redb
