import Fava.WriteStore.Redb.Transition

namespace Fava.WriteStore.Redb

open Std Fava.Lib Fava.Nostr Fava.Relay Fava.Routing Fava.Write
open Memory (Action Changes Enters ReceiptsFrom successorLanes names_of_changes names_of_enters names_of_unrouted)

/-- The database holds the next identity, and for every receipt its row with the custody
there is in memory. -/
structure Mirrors (s : Store) : Prop where
  nextId : s.database.nextId = s.state.nextIdentity
  rows : ∀ r : ReceiptId, s.database.rows[r]? =
    s.state.receipts[r]?.map fun receipt => ⟨receipt, s.state.semantics[r]?⟩
  named : ∀ (r : ReceiptId) (receipt : Receipt), s.state.receipts[r]? = some receipt →
    receipt.receiptId = r ∧ receipt.writeId = r
  counted : ∀ r ∈ s.state.receipts, 0 < r ∧ r < s.state.nextIdentity
  held : ∀ r ∈ s.state.semantics, r ∈ s.state.receipts
  positive : 0 < s.state.nextIdentity

variable {N : Library} {W : Codec PersistedReceipt} {s s' : Store} {action : Action} {r q : ReceiptId}
  {receipt updated : Receipt} {state : StoreState} {removals : List ReceiptId}

section Pruning

theorem receipts_releaseSemantic : (releaseSemantic state r).receipts = state.receipts := by
  unfold releaseSemantic
  split <;> rfl

theorem semantics_releaseSemantic : (releaseSemantic state r).semantics = state.semantics.erase r := by
  unfold releaseSemantic
  split
  · rename_i none_
    symm
    apply BTreeMap.erase_of_not_mem
    rw [ExtTreeMap.mem_iff_isSome_getElem?, none_]
    exact Bool.false_ne_true
  · rfl

theorem receipts_foldl_evict :
    (removals.foldl evict state).receipts = removals.foldl ExtTreeMap.erase state.receipts := by
  induction removals generalizing state with
  | nil => rfl
  | cons r removals ih => exact ih

theorem semantics_foldl_evict :
    (removals.foldl evict state).semantics = removals.foldl ExtTreeMap.erase state.semantics := by
  induction removals generalizing state with
  | nil => rfl
  | cons r removals ih =>
    rw [List.foldl_cons, List.foldl_cons, ih]
    exact congrArg (removals.foldl ExtTreeMap.erase) semantics_releaseSemantic

theorem nextIdentity_releaseSemantic : (releaseSemantic state r).nextIdentity = state.nextIdentity := by
  unfold releaseSemantic
  split <;> rfl

theorem nextIdentity_foldl_evict :
    (removals.foldl evict state).nextIdentity = state.nextIdentity := by
  induction removals generalizing state with
  | nil => rfl
  | cons r removals ih =>
    rw [List.foldl_cons, ih]
    exact nextIdentity_releaseSemantic

theorem releaseSemanticCoordinate_keeps (state : StoreState) (r : ReceiptId) :
    (releaseSemanticCoordinate state r).receipts = state.receipts ∧
    (releaseSemanticCoordinate state r).semantics = state.semantics ∧
    (releaseSemanticCoordinate state r).nextIdentity = state.nextIdentity := by
  unfold releaseSemanticCoordinate
  split <;> exact ⟨rfl, rfl, rfl⟩

theorem recordedState_keeps (r : ReceiptId) (updated : Receipt) (revision : Nat) :
    (recordedState s r updated revision).receipts =
      ((terminalEvictions s.state updated s.limits.terminal).foldl ExtTreeMap.erase
        s.state.receipts).insert r updated ∧
    (recordedState s r updated revision).semantics =
      (terminalEvictions s.state updated s.limits.terminal).foldl ExtTreeMap.erase
        s.state.semantics ∧
    (recordedState s r updated revision).nextIdentity = s.state.nextIdentity := by
  have same : ((terminalEvictions s.state updated s.limits.terminal).foldl evict s.state).nextIdentity =
      s.state.nextIdentity := nextIdentity_foldl_evict
  rw [← receipts_foldl_evict, ← semantics_foldl_evict, ← same]
  unfold recordedState
  by_cases terminal : updated.isTerminal = true
  · simp only [terminal, if_true]
    obtain ⟨receipts, semantics, identity⟩ := releaseSemanticCoordinate_keeps
      ((terminalEvictions s.state updated s.limits.terminal).foldl evict s.state) r
    exact ⟨congrArg (ExtTreeMap.insert · r updated) receipts, semantics, identity⟩
  · simp only [terminal]
    exact ⟨rfl, rfl, rfl⟩

/-- Only terminal receipts are given up, and never the one that was updated. -/
theorem mem_terminalEvictions {maximum : Nat}
    (evicted : r ∈ terminalEvictions state updated maximum) :
    ∃ (q : ReceiptId) (receipt : Receipt), state.receipts[q]? = some receipt ∧
      receipt.isTerminal = true ∧ receipt.receiptId ≠ updated.receiptId ∧ receipt.receiptId = r := by
  have listed := List.mem_mergeSort.mp (List.mem_of_mem_take evicted)
  obtain ⟨receipt, chosen, rfl⟩ := List.mem_map.mp listed
  rw [List.mem_filter, Bool.and_eq_true, decide_eq_true_eq] at chosen
  obtain ⟨q, found⟩ := BTreeMap.mem_values.mp chosen.1
  exact ⟨q, receipt, found, chosen.2.1, chosen.2.2, rfl⟩

end Pruning

section Rows

variable {database : Database} {next : Option Nat} {row : PersistedReceipt}

theorem rows_foldl_removeRow : (removals.foldl Database.removeRow database).rows =
    removals.foldl ExtTreeMap.erase database.rows := by
  induction removals generalizing database with
  | nil => rfl
  | cons r removals ih => exact ih

theorem nextId_foldl_removeRow :
    (removals.foldl Database.removeRow database).nextId = database.nextId := by
  induction removals generalizing database with
  | nil => rfl
  | cons r removals ih => exact ih

/-- The rows after one row was written and others were removed. -/
theorem find_transact : (database.transact next [row] removals).rows[q]? =
    if q ∈ removals then none
    else if row.receipt.receiptId = q then some row else database.rows[q]? := by
  show (removals.foldl Database.removeRow (database.insertRow row)).rows[q]? = _
  rw [rows_foldl_removeRow, BTreeMap.find_foldl_erase]
  exact if_congr Iff.rfl rfl BTreeMap.find_insert

theorem nextId_transact :
    (database.transact next [row] removals).nextId = next.getD database.nextId := by
  show next.getD (removals.foldl Database.removeRow (database.insertRow row)).nextId = _
  rw [nextId_foldl_removeRow]
  rfl

end Rows

section Steps

variable {t : StoreState} {row : PersistedReceipt} {next : Option Nat} {fault : Option Fault}

/-- One receipt is written in its place, and others are given up, in memory and in the
database alike. -/
theorem Mirrors.put (h : Mirrors s) (own : row.receipt.receiptId = r ∧ row.receipt.writeId = r)
    (absent : r ∉ removals) (receipts : ∀ q : ReceiptId, t.receipts[q]? =
      if r = q then some row.receipt else if q ∈ removals then none else s.state.receipts[q]?)
    (semantics : ∀ q : ReceiptId, t.semantics[q]? =
      if r = q then row.semantic else if q ∈ removals then none else s.state.semantics[q]?)
    (identity : t.nextIdentity = next.getD s.state.nextIdentity)
    (later : s.state.nextIdentity ≤ t.nextIdentity) (used : 0 < r ∧ r < t.nextIdentity) :
    Mirrors (s.wrote next [row] removals fault t) where
  nextId := nextId_transact.trans ((congrArg next.getD h.nextId).trans identity.symm)
  rows q := by
    show (s.database.transact next [row] removals).rows[q]? =
      t.receipts[q]?.map fun receipt => ⟨receipt, t.semantics[q]?⟩
    rw [find_transact, receipts, semantics, own.1]
    by_cases here : r = q
    · subst here
      rw [if_neg absent, if_pos rfl, if_pos rfl, if_pos rfl]
      rfl
    · simp only [if_neg here]
      by_cases gone : q ∈ removals
      · simp only [if_pos gone, Option.map_none]
      · simp only [if_neg gone]
        exact h.rows q
  named q receipt found := by
    change t.receipts[q]? = _ at found
    rw [receipts] at found
    split at found
    · rename_i here
      cases found
      rw [← here]
      exact own
    · split at found
      · cases found
      · exact h.named q receipt found
  counted q present := by
    change q ∈ t.receipts at present
    rw [ExtTreeMap.mem_iff_isSome_getElem?, receipts] at present
    split at present
    · rename_i here
      rw [← here]
      exact used
    · split at present
      · cases present
      · obtain ⟨positive, small⟩ := h.counted q (ExtTreeMap.mem_iff_isSome_getElem?.mpr present)
        exact ⟨positive, Nat.lt_of_lt_of_le small later⟩
  held q custody := by
    change q ∈ t.semantics at custody
    show q ∈ t.receipts
    rw [ExtTreeMap.mem_iff_isSome_getElem?, semantics] at custody
    rw [ExtTreeMap.mem_iff_isSome_getElem?, receipts]
    split
    · rfl
    · rename_i elsewhere
      rw [if_neg elsewhere] at custody
      split at custody
      · cases custody
      · rename_i kept
        rw [if_neg kept, ← ExtTreeMap.mem_iff_isSome_getElem?]
        exact h.held q (ExtTreeMap.mem_iff_isSome_getElem?.mpr custody)
  positive := Nat.lt_of_lt_of_le h.positive later

/-- A receipt that was there is written again. -/
theorem Mirrors.rewrite (h : Mirrors s) (found : s.state.receipts[r]? = some receipt)
    (own : row.receipt.receiptId = receipt.receiptId ∧ row.receipt.writeId = receipt.writeId)
    (receipts : t.receipts = s.state.receipts.insert r row.receipt)
    (semantics : ∀ q : ReceiptId, t.semantics[q]? =
      if r = q then row.semantic else s.state.semantics[q]?)
    (identity : t.nextIdentity = s.state.nextIdentity) :
    Mirrors (s.wrote none [row] [] fault t) := by
  rw [(h.named r receipt found).1, (h.named r receipt found).2] at own
  refine h.put own List.not_mem_nil ?_ ?_ identity (Nat.le_of_eq identity.symm) ?_
  · intro q
    rw [receipts, BTreeMap.find_insert]
    simp only [List.not_mem_nil, if_false]
  · intro q
    rw [semantics]
    simp only [List.not_mem_nil, if_false]
  · rw [identity]
    exact h.counted r (ExtTreeMap.mem_iff_isSome_getElem?.mpr (Option.isSome_of_eq_some found))

theorem Mirrors.reserve {reservations : BTreeMap Nat EventCoordinate} {reservation : Nat}
    (h : Mirrors s) : Mirrors { s with state := { s.state with
      reservations := reservations
      nextReservation := reservation } } :=
  ⟨h.nextId, h.rows, h.named, h.counted, h.held, h.positive⟩

/-- A receipt is given up in memory and in the database alike. -/
theorem Mirrors.erase {revision : Nat} (h : Mirrors s) :
    Mirrors (s.wrote none [] [r] fault { evict s.state r with revision := revision }) where
  nextId := h.nextId.trans nextIdentity_releaseSemantic.symm
  rows q := by
    show (s.database.rows.erase r)[q]? = (s.state.receipts.erase r)[q]?.map fun receipt =>
      ⟨receipt, (releaseSemantic s.state r).semantics[q]?⟩
    rw [semantics_releaseSemantic, BTreeMap.find_erase, BTreeMap.find_erase, BTreeMap.find_erase]
    split
    · rfl
    · exact h.rows q
  named q receipt found := by
    change (s.state.receipts.erase r)[q]? = _ at found
    exact h.named q receipt (BTreeMap.find_of_erase found)
  counted q present := by
    obtain ⟨positive, small⟩ := h.counted q (ExtTreeMap.mem_of_mem_erase present)
    exact ⟨positive, Nat.lt_of_lt_of_eq small nextIdentity_releaseSemantic.symm⟩
  held q custody := by
    change q ∈ (releaseSemantic s.state r).semantics at custody
    rw [semantics_releaseSemantic, ExtTreeMap.mem_erase] at custody
    exact ExtTreeMap.mem_erase.mpr ⟨custody.1, h.held q custody.2⟩
  positive := Nat.lt_of_lt_of_eq h.positive nextIdentity_releaseSemantic.symm

/-- The receipt that is updated is not among those that are given up. -/
theorem not_mem_terminalEvictions {maximum : Nat} (own : updated.receiptId = r) :
    r ∉ terminalEvictions state updated maximum := by
  intro evicted
  obtain ⟨_, _, -, -, other, same⟩ := mem_terminalEvictions evicted
  exact other (same.trans own.symm)

/-- Every transition leaves the database the mirror of what is in memory. -/
theorem Mirrors.transition (h : Mirrors s) (transition : Transition N W s action s') : Mirrors s' := by
  cases transition with
  | idle => exact h.reserve
  | @accepted _ receipt _ _ _ enters =>
    obtain ⟨receiptId, writeId, -⟩ := names_of_enters enters
    refine h.put ⟨receiptId, writeId⟩ List.not_mem_nil ?_ ?_ rfl (Nat.le_succ _)
      ⟨h.positive, Nat.lt_succ_self _⟩
    · intro q
      simp only [List.not_mem_nil, if_false]
      exact BTreeMap.find_insert
    · intro q
      simp only [List.not_mem_nil, if_false]
      split
      · rename_i here
        rw [← here, ExtTreeMap.getElem?_eq_none]
        exact fun custody => Nat.lt_irrefl _ (h.counted _ (h.held _ custody)).2
      · rfl
  | @opened _ o t selected fresh receipt _ _ offers took _ _ counted made applied =>
    have enters : Enters N t.nextIdentity receipt := .accepted _ _ _ o.routing o.access counted
      (.inl ⟨⟨_, rfl⟩, rfl⟩) made applied
    obtain ⟨receiptId, writeId, -⟩ := names_of_enters enters
    obtain ⟨reservations, rfl⟩ := takeReservation_eq_ok took
    refine h.put ⟨receiptId, writeId⟩ (not_mem_terminalEvictions receiptId) ?_ ?_ rfl (Nat.le_succ _)
      ⟨h.positive, Nat.lt_succ_self _⟩
    · intro q
      show (ExtTreeMap.insert _ _ _)[q]? = _
      rw [BTreeMap.find_insert, receipts_foldl_evict, BTreeMap.find_foldl_erase]
    · intro q
      show (ExtTreeMap.insert _ _ _)[q]? = _
      rw [BTreeMap.find_insert, semantics_foldl_evict, BTreeMap.find_foldl_erase]
  | @queued _ _ _ _ receipt _ _ _ _ took _ found =>
    obtain ⟨reservations, rfl⟩ := takeReservation_eq_ok took
    exact h.rewrite found ⟨rfl, rfl⟩ (BTreeMap.insert_of_find found).symm
      (fun q => BTreeMap.find_insert) rfl
  | @composed _ o _ _ receipt updated _ composed _ _ _ _ took _ found _ _ _ generated applied =>
    obtain ⟨reservations, rfl⟩ := takeReservation_eq_ok took
    have names := names_of_unrouted (applyInitialRoute_eq_ok applied).1
    by_cases terminal : updated.isTerminal = true
    · simp only [terminal, if_true]
      refine h.rewrite found names receipts_releaseSemantic (fun q => ?_) nextIdentity_releaseSemantic
      rw [semantics_releaseSemantic]
      exact BTreeMap.find_erase
    · simp only [terminal]
      exact h.rewrite found names rfl (fun q => BTreeMap.find_insert) rfl
  | deferred found =>
    exact h.rewrite found ⟨rfl, rfl⟩ (BTreeMap.insert_of_find found).symm
      (fun q => BTreeMap.find_insert) rfl
  | corrected found _ _ _ _ _ _ _ applied =>
    have names := names_of_unrouted (applyInitialRoute_eq_ok applied).1
    exact h.rewrite found names rfl (fun q => BTreeMap.find_insert) rfl
  | failed found _ changes =>
    exact h.rewrite found (names_of_changes changes) rfl (fun q => BTreeMap.find_insert) rfl
  | promoted found _ _ _ _ takes =>
    have names := names_of_unrouted (applyInitialRoute_eq_ok takes.applied).1
    exact h.rewrite found names rfl (fun q => BTreeMap.find_insert) rfl
  | signed found changes =>
    refine h.rewrite found (names_of_changes changes) rfl (fun q => ?_) rfl
    split
    · rename_i here
      rw [← here]
    · rfl
  | @recorded _ r receipt updated revision _ found changes =>
    obtain ⟨receiptId, writeId⟩ := names_of_changes changes
    rw [(h.named _ _ found).1] at receiptId
    rw [(h.named _ _ found).2] at writeId
    obtain ⟨receipts, semantics, identity⟩ := recordedState_keeps (s := s) r updated revision
    refine h.put ⟨receiptId, writeId⟩ (not_mem_terminalEvictions receiptId) ?_ ?_ identity
      (Nat.le_of_eq identity.symm) ?_
    · intro q
      rw [receipts, BTreeMap.find_insert, BTreeMap.find_foldl_erase]
    · intro q
      rw [semantics, BTreeMap.find_foldl_erase]
      by_cases here : r = q
      · subst here
        rw [if_pos rfl, if_neg (not_mem_terminalEvictions receiptId)]
      · rw [if_neg here]
    · rw [identity]
      exact h.counted r (ExtTreeMap.mem_iff_isSome_getElem?.mpr (Option.isSome_of_eq_some found))
  | removed => exact h.erase

end Steps

/-- What one operation can do to the receipts of the store. -/
theorem Transition.receipts (transition : Transition N W s action s') :
    ReceiptsFrom N action s.state.ledger s'.state.ledger := by
  cases transition with
  | idle | deferred => exact .same rfl
  | queued _ took =>
    obtain ⟨reservations, rfl⟩ := takeReservation_eq_ok took
    exact .same rfl
  | accepted _ enters => exact .enter rfl enters
  | @opened _ o t _ _ receipt _ _ _ took _ _ counted made applied =>
    obtain ⟨reservations, rfl⟩ := takeReservation_eq_ok took
    intro q updated present
    change (ExtTreeMap.insert _ _ _)[q]? = _ at present
    rw [BTreeMap.find_insert, receipts_foldl_evict, BTreeMap.find_foldl_erase] at present
    split at present
    · rename_i here
      cases present
      subst here
      exact .inr (.inr ⟨rfl, .accepted _ _ _ o.routing o.access counted (.inl ⟨⟨_, rfl⟩, rfl⟩) made
        applied⟩)
    · split at present
      · cases present
      · exact .inl present
  | @composed _ o _ r receipt updated _ _ _ _ _ _ took _ found _ composes unauthorized generated
      applied =>
    obtain ⟨reservations, rfl⟩ := takeReservation_eq_ok took
    refine .change found ?_ (.restart o.event _ _ (.inl unauthorized)
      (.inl (by rw [composes.routing])) generated applied)
    by_cases terminal : updated.isTerminal = true
    · simp only [terminal, if_true]
      exact receipts_releaseSemantic
    · simp only [terminal]
      rfl
  | corrected found _ _ _ corrects unauthorized bounded generated applied =>
    exact .change found rfl (.correct _ _ corrects.isOpen unauthorized bounded generated applied)
  | failed found _ changes => exact .change found rfl changes
  | @promoted _ _ _ _ _ _ successor _ _ _ found _ _ due _ takes =>
    refine .change found rfl (.restart successor.event _ _ (.inr due) ?_ takes.generated takes.applied)
    unfold successorLanes
    split
    · exact .inr rfl
    · exact .inl rfl
  | signed found changes => exact .change found rfl changes
  | @recorded _ r receipt updated revision _ found changes =>
    intro q other present
    change (recordedState s r updated revision).receipts[q]? = _ at present
    rw [(recordedState_keeps r updated revision).1, BTreeMap.find_insert, BTreeMap.find_foldl_erase]
      at present
    split at present
    · rename_i here
      cases present
      subst here
      exact .inr (.inl ⟨receipt, found, changes⟩)
    · split at present
      · cases present
      · exact .inl present
  | removed => exact .erase rfl

end Fava.WriteStore.Redb
