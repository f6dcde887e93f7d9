import Fava.WriteStore.Memory.Capacity
import Fava.WriteStore.Redb.Encoding
import Fava.WriteStore.Redb.Opening

namespace Fava.WriteStore.Redb

open Std Fava.Lib Fava.Nostr Fava.Relay Fava.Routing Fava.Write
open Memory (Action Offer offered Housed strandsHead waitsNowhere names_of_changes names_of_unrouted)

/-- How many rows are of terminal receipts. -/
def terminalRows (database : Database) : Nat :=
  BTreeMap.count (fun row : PersistedReceipt => row.receipt.isTerminal) database.rows

/-- The offered revision follows the current generation of a head at once, with a route that
ends it. -/
def composesNowhere (N : Library) (s : StoreState) (action : Action) : Bool :=
  (offered action).any fun o =>
    (takeReservation o.reservation o.coordinate s).isOk &&
    (s.coordinates[o.coordinate]?).any fun r => (s.receipts[r]?).any fun receipt =>
      (s.semantics[r]?).any fun custody =>
        custody.author = o.author && receipt.routing = o.routing && receipt.routing = .automatic &&
        receipt.current.publication.signature ≠ .authorized &&
        (match validateRevision N o.now o.edit o.author o.event o.source o.routing with
          | .ok (some source) => source = (receipt.current.id, receipt.current.event.createdAt)
          | _ => false) &&
        o.route.any settlesNowhere

/-- How many of the receipts have a generation waiting that ends them. -/
def endings (s : StoreState) (receipts : List Receipt) : Nat :=
  (receipts.filter fun receipt => waitsNowhere s.ledger receipt.receiptId).length

/-- A database that is read back has room for the heads that recovery ends. -/
def reopensRoomy (N : Library) (database : Database) (limits : StoreLimits) : Bool :=
  match load N database with
  | .error _ => true
  | .ok loaded =>
    let state := (recoverAmbiguousDelivery (loadedState database loaded)).1
    terminalCount state > limits.terminal ||
      terminalCount state + endings state (state.receipts.values.filter fun receipt =>
        receipt.current.publication.signature = .authorized) ≤ limits.terminal

/-- There is room for every terminal receipt that a new generation makes. -/
def roomy (N : Library) : System → Command → Bool
  | .running s, .perform _ action =>
    !(strandsHead N s.state.ledger action || composesNowhere N s.state action) ||
      terminalCount s.state < s.limits.terminal
  | .closed _, .perform _ _ => true
  | system, .reopen limits _ => reopensRoomy N system.database limits

def Roomy (N : Library) (system : System) (command : Command) : Prop := roomy N system command = true

instance (N : Library) (system : System) (command : Command) : Decidable (Roomy N system command) :=
  inferInstanceAs (Decidable (_ = _))

variable {N : Library} {s s' : Store} {action : Action} {r q : ReceiptId}
  {receipt updated : Receipt} {state : StoreState} {maximum : Nat}

section Counting

/-- Receipts under their own identities have different ones. -/
theorem nodup_receiptIds {receipts : BTreeMap ReceiptId Receipt}
    (named : ∀ (r : ReceiptId) (receipt : Receipt), receipts[r]? = some receipt → receipt.receiptId = r) :
    (receipts.values.map Receipt.receiptId).Nodup := by
  have keys : receipts.values.map Receipt.receiptId = receipts.keys := by
    rw [BTreeMap.values_eq, List.map_map, ← ExtTreeMap.map_fst_toList_eq_keys]
    apply List.map_congr_left
    rintro ⟨r, receipt⟩ member
    exact named r receipt (ExtTreeMap.mem_toList_iff_getElem?_eq_some.mp member)
  rw [keys]
  exact BTreeMap.nodup_keys

/-- Putting a receipt in its place and giving up what is beyond the bound for it leaves no
more terminal receipts than the bound. -/
theorem count_evicted_le (named : Named state) (own : updated.receiptId = r) (positive : 0 < maximum) :
    BTreeMap.count Receipt.isTerminal
      (((terminalEvictions state updated maximum).foldl ExtTreeMap.erase state.receipts).insert r
        updated) ≤ maximum := by
  let terminal := ((state.receipts.values.filter fun receipt =>
    receipt.isTerminal && receipt.receiptId ≠ updated.receiptId).map Receipt.receiptId).mergeSort
  let excess := terminal.length + updated.isTerminal.toNat - maximum
  let rest : BTreeMap ReceiptId Receipt :=
    ((terminal.take excess).foldl ExtTreeMap.erase state.receipts).erase r
  have find : ∀ (q : ReceiptId) (receipt : Receipt), rest[q]? = some receipt →
      state.receipts[q]? = some receipt ∧ q ≠ r ∧ q ∉ terminal.take excess := by
    intro q receipt found
    rw [BTreeMap.find_erase] at found
    split at found
    · cases found
    · rename_i other
      rw [BTreeMap.find_foldl_erase] at found
      split at found
      · cases found
      · rename_i kept
        exact ⟨found, Ne.symm other, kept⟩
  -- What remains of the terminal receipts was listed behind the ones that are given up.
  have inside : (rest.values.filter Receipt.isTerminal).map Receipt.receiptId ⊆ terminal.drop excess := by
    intro q listed
    obtain ⟨receipt, chosen, rfl⟩ := List.mem_map.mp listed
    obtain ⟨member, isTerminal⟩ := List.mem_filter.mp chosen
    obtain ⟨q, found⟩ := BTreeMap.mem_values.mp member
    obtain ⟨present, other, kept⟩ := find q receipt found
    obtain rfl := named q receipt present
    have among : receipt.receiptId ∈ terminal := by
      refine List.mem_mergeSort.mpr (List.mem_map.mpr ⟨receipt, List.mem_filter.mpr ⟨?_, ?_⟩, rfl⟩)
      · exact BTreeMap.mem_values.mpr ⟨_, present⟩
      · rw [own, isTerminal]
        simpa using other
    rw [← List.take_append_drop excess terminal, List.mem_append] at among
    exact among.resolve_left kept
  have nodup : ((rest.values.filter Receipt.isTerminal).map Receipt.receiptId).Nodup :=
    (nodup_receiptIds fun q receipt found => named q receipt (find q receipt found).1).sublist
      (List.filter_sublist.map _)
  have few := (List.subperm_of_subset nodup inside).length_le
  rw [List.length_map, List.length_drop] at few
  rw [BTreeMap.count_insert]
  change (rest.values.filter Receipt.isTerminal).length + _ ≤ maximum
  have one : updated.isTerminal.toNat ≤ 1 := Bool.toNat_le _
  omega

theorem terminalRows_eq (mirrors : Mirrors s) : terminalRows s.database = terminalCount s.state := by
  have rows : s.database.rows = ExtTreeMap.map
      (fun r receipt => (⟨receipt, s.state.semantics[r]?⟩ : PersistedReceipt)) s.state.receipts := by
    apply ExtTreeMap.ext_getElem?
    intro r
    rw [mirrors.rows, ExtTreeMap.getElem?_map]
  unfold terminalRows
  rw [rows]
  exact BTreeMap.count_map fun _ _ => rfl

end Counting

section Steps

variable {W : Codec PersistedReceipt}

theorem receiptId_of_acceptedReceipt {identity : Nat} {value : EventValue} {signature : SignatureState}
    {selected : Option EventId} {routing : WriteRouting} {access : Authority}
    (made : acceptedReceipt identity value signature selected routing access = .ok receipt) :
    receipt.receiptId = identity := by
  obtain ⟨current, -, made⟩ := bind_eq_ok.mp made
  obtain rfl := Except.ok.inj made
  rfl

theorem edits_ledger {custody : SemanticCustody} (held : state.semantics[r]? = some custody) :
    state.ledger.edits[r]? = some custody.cell := by
  rw [StoreState.ledger, ExtTreeMap.getElem?_map, held]
  rfl

theorem successors_ledger {custody : SemanticCustody} {successor : Successor}
    (held : state.semantics[r]? = some custody) (waiting : custody.successor = some successor) :
    state.ledger.successors[r]? = some successor := by
  rw [StoreState.ledger, ExtTreeMap.getElem?_filterMap, held]
  exact waiting

theorem composesNowhere_of_terminal {o : Offer} {t : StoreState} {custody : SemanticCustody}
    {current : LocalWriteEvent} (offers : offered action = some o)
    (took : takeReservation o.reservation o.coordinate s.state = .ok t)
    (owner : t.coordinates[o.coordinate]? = some r) (found : t.receipts[r]? = some receipt)
    (held : t.semantics[r]? = some custody) (composes : Memory.Composes N o receipt custody.cell)
    (unauthorized : receipt.current.publication.signature ≠ .authorized)
    (generated : nextGeneration r receipt o.event (custody.currentSource.map Prod.fst)
      (destinations o.routing) = .ok current)
    (applied : applyInitialRoute N (restarted receipt current)
      (Memory.successorRoute receipt o.route) = .ok updated)
    (terminal : updated.isTerminal = true) : composesNowhere N s.state action = true := by
  obtain ⟨id, -, rfl⟩ := nextGeneration_eq_ok generated
  obtain ⟨plan, given, nowhere, automatic, -⟩ := settlesNowhere_of_terminal rfl
    (fun _ _ => Memory.pending_of_destinations) applied terminal
  have taken : (takeReservation o.reservation o.coordinate s.state).isOk = true := by
    rw [took]
    rfl
  obtain ⟨reservations, rfl⟩ := takeReservation_eq_ok took
  obtain ⟨route, offeredRoute, rfl⟩ := Option.map_eq_some_iff.mp given
  have automatic : receipt.routing = .automatic := automatic
  have author : custody.author = o.author := composes.author
  have routing := composes.routing
  rw [composesNowhere, offers, Option.any_some, taken, owner, Option.any_some, found, Option.any_some,
    held, Option.any_some, composes.valid, offeredRoute, Option.any_some]
  rw [automatic] at routing
  simp only [author, automatic, ← routing, show settlesNowhere route = true from nowhere]
  simpa using unauthorized

/-- An operation that has room for what it ends leaves no more terminal receipts than the
bound. -/
theorem terminalCount_transition (named : Named s.state)
    (within : terminalCount s.state ≤ s.limits.terminal)
    (room : (strandsHead N s.state.ledger action || composesNowhere N s.state action) = true →
      terminalCount s.state < s.limits.terminal)
    (transition : Transition N W s action s') : terminalCount s'.state ≤ s'.limits.terminal := by
  have replace : ∀ {r : ReceiptId} {receipt updated : Receipt}, s.state.receipts[r]? = some receipt →
      (updated.isTerminal = true → receipt.isTerminal = false → terminalCount s.state < s.limits.terminal) →
      BTreeMap.count Receipt.isTerminal (s.state.receipts.insert r updated) ≤ s.limits.terminal := by
    intro r receipt updated found space
    have counts := BTreeMap.count_insert_of_find (p := Receipt.isTerminal) (v := updated) found
    change _ + _ = terminalCount s.state + _ at counts
    cases after : updated.isTerminal with
    | false => simp only [after, Bool.toNat_false] at counts; omega
    | true =>
      cases before : receipt.isTerminal with
      | false =>
        have space := space after before
        simp only [after, before, Bool.toNat_false, Bool.toNat_true] at counts
        omega
      | true => simp only [after, before, Bool.toNat_true] at counts; omega
  cases transition with
  | idle | deferred => exact within
  | queued _ took =>
    obtain ⟨reservations, rfl⟩ := takeReservation_eq_ok took
    exact within
  | @accepted _ receipt _ _ _ enters isOpen =>
    show BTreeMap.count Receipt.isTerminal (s.state.receipts.insert _ receipt) ≤ s.limits.terminal
    rw [BTreeMap.count_insert, isOpen]
    exact BTreeMap.count_erase_le.trans within
  | @opened _ o t _ _ receipt _ _ _ took _ _ _ made applied =>
    have own := (names_of_unrouted (applyInitialRoute_eq_ok applied).1).1
    rw [receiptId_of_acceptedReceipt made] at own
    obtain ⟨reservations, rfl⟩ := takeReservation_eq_ok took
    show BTreeMap.count Receipt.isTerminal (ExtTreeMap.insert _ _ _) ≤ s.limits.terminal
    rw [receipts_foldl_evict]
    exact count_evicted_le named own s.limits.terminal_pos
  | @composed _ o t r receipt updated custody _ _ _ _ offers took owner found held composes
      unauthorized generated applied =>
    have ends := composesNowhere_of_terminal offers took owner found held composes unauthorized
      generated applied
    obtain ⟨reservations, rfl⟩ := takeReservation_eq_ok took
    have counts := replace found fun terminal _ => room (by rw [ends terminal, Bool.or_true])
    by_cases terminal : updated.isTerminal = true
    · simp only [terminal, if_true]
      show BTreeMap.count Receipt.isTerminal (releaseSemantic _ r).receipts ≤ _
      rw [receipts_releaseSemantic]
      exact counts
    · simp only [terminal]
      exact counts
  | corrected found held stands complete corrects unauthorized bounded generated applied =>
    refine replace found fun terminal _ => room ?_
    rw [Bool.or_eq_true]
    left
    rw [← Bool.not_eq_false]
    intro housed
    have stays := Memory.open_of_corrected housed found (edits_ledger held) stands complete corrects
      unauthorized generated applied
    rw [stays] at terminal
    cases terminal
  | failed found _ _ isOpen kept =>
    obtain ⟨failure, rfl⟩ := kept
    exact replace found fun terminal _ => (Bool.eq_false_iff.mp isOpen terminal).elim
  | promoted found held waiting due _ takes =>
    refine replace found fun terminal _ => room ?_
    rw [Bool.or_eq_true]
    left
    rw [← Bool.not_eq_false]
    intro housed
    have stays := Memory.open_of_promoted housed found (successors_ledger held waiting) due takes
    rw [stays] at terminal
    cases terminal
  | @signed _ _ _ updated _ _ found _ isOpen kept =>
    refine replace found fun terminal _ => ?_
    rw [← kept] at isOpen
    rw [show updated.isTerminal = false from isOpen] at terminal
    cases terminal
  | @recorded _ r receipt updated revision _ found changes =>
    have own := (names_of_changes changes).1
    rw [named r receipt found] at own
    show BTreeMap.count Receipt.isTerminal (recordedState s r updated revision).receipts ≤ _
    rw [(recordedState_keeps r updated revision).1]
    exact count_evicted_le named own s.limits.terminal_pos
  | removed => exact BTreeMap.count_erase_le.trans within

/-- Only terminal receipts are ever given up. -/
theorem kept_of_transition (named : Named s.state) (transition : Transition N W s action s')
    (found : s.state.receipts[r]? = some receipt) (isOpen : receipt.isTerminal = false) :
    r ∈ s'.state.receipts := by
  have present : r ∈ s.state.receipts :=
    ExtTreeMap.mem_iff_isSome_getElem?.mpr (Option.isSome_of_eq_some found)
  have inserted : ∀ {k : ReceiptId} {v : Receipt}, r ∈ s.state.receipts.insert k v :=
    ExtTreeMap.mem_insert.mpr (.inr present)
  -- What a pruning step leaves still has every open receipt.
  have pruned : ∀ {updated : Receipt} {k : ReceiptId} {v : Receipt},
      r ∈ ((terminalEvictions s.state updated s.limits.terminal).foldl ExtTreeMap.erase
        s.state.receipts).insert k v := by
    intro updated k v
    refine ExtTreeMap.mem_insert.mpr (.inr ?_)
    rw [ExtTreeMap.mem_iff_isSome_getElem?, BTreeMap.find_foldl_erase]
    split
    · rename_i evicted
      obtain ⟨q, other, there, terminal, -, same⟩ := mem_terminalEvictions evicted
      have here := (named q other there).symm.trans same
      rw [here, found] at there
      obtain rfl := Option.some.inj there
      rw [isOpen] at terminal
      cases terminal
    · exact ExtTreeMap.mem_iff_isSome_getElem?.mp present
  cases transition with
  | idle | deferred => exact present
  | queued _ took =>
    obtain ⟨reservations, rfl⟩ := takeReservation_eq_ok took
    exact present
  | accepted | corrected | failed | promoted | signed => exact inserted
  | opened _ took =>
    obtain ⟨reservations, rfl⟩ := takeReservation_eq_ok took
    show r ∈ ExtTreeMap.insert _ _ _
    rw [receipts_foldl_evict]
    exact pruned
  | @composed _ _ _ k _ updated _ _ _ _ _ _ took =>
    obtain ⟨reservations, rfl⟩ := takeReservation_eq_ok took
    by_cases terminal : updated.isTerminal = true
    · simp only [terminal, if_true]
      show r ∈ (releaseSemantic _ k).receipts
      rw [receipts_releaseSemantic]
      exact inserted
    · simp only [terminal]
      exact inserted
  | @recorded _ k _ updated revision =>
    show r ∈ (recordedState s k updated revision).receipts
    rw [(recordedState_keeps k updated revision).1]
    exact pruned
  | @removed k other _ _ there terminal =>
    refine ExtTreeMap.mem_erase.mpr ⟨fun same => ?_, present⟩
    obtain rfl := LawfulEqCmp.compare_eq_iff_eq.mp same
    rw [found] at there
    obtain rfl := Option.some.inj there
    rw [isOpen] at terminal
    cases terminal

end Steps

section Reports

variable {W : Codec PersistedReceipt}

/-- A report that a signing failed puts one receipt in its place. -/
structure Reports (s : Store) (r : ReceiptId) (s' : Store) : Prop where
  limits : s'.limits = s.limits
  elsewhere : ∀ q : ReceiptId, r ≠ q → s'.state.semantics[q]? = s.state.semantics[q]?
  kept : ∀ q ∈ s.state.receipts, q ∈ s'.state.receipts
  counts : terminalCount s'.state ≤ terminalCount s.state + (waitsNowhere s.state.ledger r).toNat

theorem Reports.same : Reports s r s := ⟨rfl, fun _ _ => rfl, fun _ => id, Nat.le_add_right _ _⟩

theorem commitReceipt_reports {answer : Receipt}
    (done : commitReceipt W updated s = .ok (answer, s')) (found : s.state.receipts[r]? = some receipt)
    (own : updated.receiptId = r) (isOpen : updated.isTerminal = false) : Reports s r s' := by
  obtain ⟨t, stored, done⟩ := bind_eq_ok.mp done
  obtain ⟨-, rfl⟩ := Prod.mk.inj (Except.ok.inj done)
  rw [own] at stored
  obtain ⟨-, revision, fault, rfl⟩ := put_eq_ok stored
  refine ⟨rfl, fun _ _ => rfl, fun q present => ExtTreeMap.mem_insert.mpr (.inr present), ?_⟩
  have counts := BTreeMap.count_insert_of_find (p := Receipt.isTerminal) (v := updated) found
  rw [isOpen] at counts
  exact (Nat.le_add_right _ _).trans (counts.le.trans (Nat.add_le_add_left (Nat.zero_le _) _))

theorem promoteAuthorizedSuccessor_reports {answer : Receipt}
    (done : promoteAuthorizedSuccessor N W r s = .ok (answer, s')) : Reports s r s' := by
  obtain ⟨custody, held, done⟩ := demand_bind_eq_ok.mp done
  obtain ⟨successor, waiting, done⟩ := demand_bind_eq_ok.mp done
  obtain ⟨receipt, found, done⟩ := demand_bind_eq_ok.mp done
  obtain ⟨-, done⟩ := require_bind_eq_ok.mp done
  obtain ⟨current, generated, done⟩ := bind_eq_ok.mp done
  obtain ⟨updated, applied, done⟩ := bind_eq_ok.mp done
  obtain ⟨u, stored, done⟩ := bind_eq_ok.mp done
  obtain ⟨-, rfl⟩ := Prod.mk.inj (Except.ok.inj done)
  obtain ⟨-, revision, fault, rfl⟩ := put_eq_ok stored
  refine ⟨rfl, fun q other => BTreeMap.find_insert_of_ne other,
    fun q present => ExtTreeMap.mem_insert.mpr (.inr present), ?_⟩
  have counts := BTreeMap.count_insert_of_find (p := Receipt.isTerminal) (v := updated) found
  refine (Nat.le_add_right _ _).trans (counts.le.trans (Nat.add_le_add_left ?_ _))
  cases terminal : updated.isTerminal with
  | false => exact Nat.zero_le _
  | true =>
    have takes : Memory.TakesOver N r receipt successor current updated := ⟨generated, applied⟩
    rw [Memory.waitsNowhere_of_takesOver (successors_ledger held waiting) takes terminal]

theorem recordSignerRetryableCurrent_reports {writeId : WriteId} {revisionId : RevisionId}
    {eventId : EventId} {reason : String} (named : Named s.state) :
    Reports s r (recordSignerRetryableCurrent N W writeId r revisionId eventId reason s).2 := by
  refine atomically_cases (P := Reports s r) (fun answer s' done => ?_) .same
  obtain ⟨_, -, done⟩ := bind_eq_ok.mp done
  obtain ⟨receipt, found, done⟩ := demand_bind_eq_ok.mp done
  obtain ⟨_, current, done⟩ := bind_eq_ok.mp done
  have isOpen := open_of_validateCurrentRevision current
  have own := named r receipt found
  split at done
  · cases done
  · cases done
  · split at done
    · exact promoteAuthorizedSuccessor_reports done
    · exact commitReceipt_reports done found own isOpen
  all_goals exact commitReceipt_reports done found own isOpen

/-- Reporting a failed signing for each of some receipts ends those whose waiting generation
leads nowhere, and no others. -/
theorem recoverSigning_reports {receipts : List Receipt} (mirrors : Mirrors s)
    (apart : (receipts.map Receipt.receiptId).Nodup)
    (done : recoverSigning N W receipts s = (.ok (), s')) :
    s'.limits = s.limits ∧ (∀ q ∈ s.state.receipts, q ∈ s'.state.receipts) ∧
      terminalCount s'.state ≤ terminalCount s.state + endings s.state receipts := by
  induction receipts generalizing s with
  | nil =>
    obtain ⟨-, rfl⟩ := Prod.mk.inj done
    exact ⟨rfl, fun _ => id, Nat.le_add_right _ _⟩
  | cons receipt receipts ih =>
    have transition := interruption_transition N W mirrors.named_state receipt
    have reports : Reports s receipt.receiptId (recordSignerRetryableCurrent N W receipt.writeId
        receipt.receiptId receipt.current.publication.revisionId receipt.current.id
        (interruption N receipt) s).2 := recordSignerRetryableCurrent_reports mirrors.named_state
    unfold recoverSigning at done
    split at done
    · rename_i u answered
      rw [answered] at transition reports
      rw [List.map_cons, List.nodup_cons] at apart
      obtain ⟨limits, kept, counts⟩ := ih (mirrors.transition transition) apart.2 done
      refine ⟨limits.trans reports.limits, fun q present => kept q (reports.kept q present), ?_⟩
      have rest : endings u.state receipts = endings s.state receipts := by
        refine congrArg List.length (List.filter_congr fun other member => ?_)
        have elsewhere := reports.elsewhere other.receiptId fun same =>
          apart.1 (same ▸ List.mem_map.mpr ⟨other, member, rfl⟩)
        unfold waitsNowhere StoreState.ledger
        rw [ExtTreeMap.getElem?_filterMap, ExtTreeMap.getElem?_filterMap, elsewhere]
      have first := reports.counts
      dsimp only at first counts
      rw [rest] at counts
      have both : endings s.state (receipt :: receipts) =
          (waitsNowhere s.state.ledger receipt.receiptId).toNat + endings s.state receipts := by
        unfold endings
        rw [List.filter_cons]
        cases waitsNowhere s.state.ledger receipt.receiptId
        · exact (Nat.zero_add _).symm
        · exact Nat.add_comm _ _
      omega
    · cases (Prod.mk.inj done).1

end Reports

section Runs

variable {W : NostrJson} {system : System} {limits : StoreLimits} {fault : Option Fault} {database' : Database}

/-- A database that is opened keeps all its receipts, and holds the terminal ones it held and
those that end with their waiting generations. -/
theorem opened_reports (opened : openBounded N (persistedReceipt N W) limits fault system.database = (.ok s, database')) :
    Mirrors s ∧ (∀ q ∈ system.database.rows, q ∈ s.state.receipts) ∧
      (Roomy N system (.reopen limits fault) → terminalCount s.state ≤ s.limits.terminal) := by
  obtain ⟨loaded, t, read, recovered, signed⟩ := openBounded_eq_ok opened
  have mirrors := recovered.mirrors read
  have apart : ((t.state.receipts.values.filter fun receipt =>
      receipt.current.publication.signature = .authorized).map Receipt.receiptId).Nodup :=
    (nodup_receiptIds mirrors.named_state).sublist (List.filter_sublist.map _)
  obtain ⟨same, kept, counts⟩ := recoverSigning_reports mirrors apart signed
  have after : Mirrors s := by
    refine recoverSigning_induction (I := Mirrors) (fun u receipt _ mirrors => ?_) mirrors signed
    exact mirrors.transition (recordSignerRetryableCurrent_transition mirrors.named_state)
  refine ⟨after, fun q present => kept q ?_, fun roomy => ?_⟩
  · rw [ExtTreeMap.mem_iff_isSome_getElem?] at present ⊢
    rw [(recovered.find (load_eq_ok.mp read).2.1 q).1, Option.isSome_map]
    exact present
  · have fits : terminalCount t.state > limits.terminal ∨
        terminalCount t.state + endings t.state (t.state.receipts.values.filter fun receipt =>
          receipt.current.publication.signature = .authorized) ≤ limits.terminal := by
      have roomy : reopensRoomy N system.database limits = true := by cases system <;> exact roomy
      unfold reopensRoomy at roomy
      rw [read] at roomy
      simpa only [← recovered.state_eq, Bool.or_eq_true, decide_eq_true_eq] using roomy
    rw [same, recovered.limits_eq]
    have before := recovered.terminal
    omega

/-- While no revision ends a head beyond the room there is, the terminal receipts stay within
their bound, in memory and in the database. Whatever is done, no open receipt is given up. -/
theorem terminal_receipts_bounded {commands : List Command}
    (run : Run (step N W) (Roomy N) .initial commands (.running s)) :
    terminalCount s.state ≤ s.limits.terminal ∧ terminalRows s.database ≤ s.limits.terminal ∧
      ∀ command s', step N W (.running s) command = some (.running s') →
        ∀ (r : ReceiptId) (receipt : Receipt), s.state.receipts[r]? = some receipt →
          receipt.isTerminal = false → r ∈ s'.state.receipts ∧ r ∈ s'.database.rows := by
  have kept : Mirrors s ∧ terminalCount s.state ≤ s.limits.terminal := by
    refine running_invariant (I := fun s => Mirrors s ∧ terminalCount s.state ≤ s.limits.terminal)
      ?_ ?_ run
    · intro system limits fault s database' roomy opened
      obtain ⟨mirrors, -, bounded⟩ := opened_reports opened
      exact ⟨mirrors, bounded roomy⟩
    · rintro t fault action roomy ⟨mirrors, within⟩
      have mirrors := mirrors.with_fault fault
      have transition : Transition N (persistedReceipt N W) _ action _ := perform_transition mirrors.named_state action
      refine ⟨mirrors.transition transition,
        terminalCount_transition mirrors.named_state within (fun ends => ?_) transition⟩
      rw [Roomy, Redb.roomy, Bool.or_eq_true, Bool.not_eq_true', decide_eq_true_eq] at roomy
      refine roomy.resolve_left fun stays => ?_
      rw [show _ = true from ends] at stays
      cases stays
  obtain ⟨mirrors, within⟩ := kept
  refine ⟨within, by rw [terminalRows_eq mirrors]; exact within, fun command s' stepped r receipt found
    isOpen => ?_⟩
  suffices Mirrors s' ∧ r ∈ s'.state.receipts by
    refine ⟨this.2, ?_⟩
    rw [ExtTreeMap.mem_iff_isSome_getElem?, this.1.rows, Option.isSome_map,
      ← ExtTreeMap.mem_iff_isSome_getElem?]
    exact this.2
  obtain ⟨t, fault, action, same, rfl, rfl⟩ | ⟨limits, fault, database', rfl, opened⟩ :=
    step_eq_running stepped
  · cases same
    have mirrors := mirrors.with_fault fault
    have transition : Transition N (persistedReceipt N W) _ action _ := perform_transition mirrors.named_state action
    exact ⟨mirrors.transition transition, kept_of_transition mirrors.named_state transition found isOpen⟩
  · obtain ⟨after, present, -⟩ := opened_reports opened
    refine ⟨after, present r ?_⟩
    show r ∈ s.database.rows
    rw [ExtTreeMap.mem_iff_isSome_getElem?, mirrors.rows, found]
    rfl

end Runs

section Sample

def oneTerminal : StoreLimits := ⟨4, 1, four_active, Nat.one_pos⟩

/-- A cancelled note beside a list that is corrected with a route. -/
def correctedBesideCancelled (route : RoutePlan) : List Command :=
  .reopen oneTerminal none :: [Memory.Action.accept ⟨.presigned Memory.note, .automatic, .unauthenticated⟩,
    .cancel 1, .acceptAppliedEdit 10 (Memory.listEdit []) Memory.firstList none,
    .installRevision 11 2 2 1 none [⟨3, none, []⟩] Memory.secondList (some (.signed Memory.listBefore))
      (some route)].map (.perform none)

/-- A correction that ends its head gives up none of the terminal receipts there are. -/
theorem correction_passes_terminal_bound : ∃ s,
    Run (step plainLibrary plainJson) Free .initial (correctedBesideCancelled Memory.nowhere) (.running s) ∧
      ¬(terminalCount s.state ≤ s.limits.terminal ∧ terminalRows s.database ≤ s.limits.terminal) := by
  obtain ⟨system, run, checked⟩ := Run.of_any (show (exec (step plainLibrary plainJson) Free .initial
    (correctedBesideCancelled Memory.nowhere)).any (System.holds fun s =>
      !decide (terminalCount s.state ≤ s.limits.terminal)) = true by decide +kernel)
  obtain ⟨s, rfl, passes⟩ := holds_iff.mp checked
  rw [Bool.not_eq_true', decide_eq_false_iff_not] at passes
  exact ⟨s, run, fun both => passes both.1⟩

theorem terminal_bounded_after_correction : ∃ s,
    Run (step plainLibrary plainJson) (Roomy plainLibrary) .initial
      (correctedBesideCancelled (Memory.planTo 1 "wss://a.example")) (.running s) ∧
      terminalCount s.state = 1 ∧ terminalRows s.database ≤ s.limits.terminal := by
  obtain ⟨system, run, checked⟩ := Run.of_any (show (exec (step plainLibrary plainJson)
    (Roomy plainLibrary) .initial (correctedBesideCancelled (Memory.planTo 1 "wss://a.example"))).any
      (System.holds fun s => terminalCount s.state = 1) = true by decide +kernel)
  obtain ⟨s, rfl, one⟩ := holds_iff.mp checked
  exact ⟨s, run, of_decide_eq_true one, (terminal_receipts_bounded run).2.1⟩

end Sample

end Fava.WriteStore.Redb
