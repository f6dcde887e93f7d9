import Fava.WriteStore.Redb.Loading

namespace Fava.WriteStore.Redb

open Std Fava.Lib Fava.Nostr Fava.Relay Fava.Routing Fava.Write
open Memory (Action)

/-- The ledger as it was read back, with nothing recovered. -/
def loadedState (database : Database) (loaded : Loaded) : StoreState :=
  ⟨0, database.nextId, 1, ∅, loaded.receipts, loaded.coordinates, loaded.semantics⟩

/-- A store whose interrupted attempts have ended, in memory and in the database. -/
structure Recovered (limits : StoreLimits) (database : Database) (loaded : Loaded) (s : Store) :
    Prop where
  limits_eq : s.limits = limits
  state_eq : s.state = (recoverAmbiguousDelivery (loadedState database loaded)).1
  active : activeCount s.state ≤ limits.active
  terminal : terminalCount s.state ≤ limits.terminal
  rows : ∀ r : Nat, s.database.rows[r]? =
    database.rows[r]?.map fun row => ⟨recoverReceipt row.receipt, row.semantic⟩
  nextId : s.database.nextId = database.nextId

variable {N : Library} {limits : StoreLimits} {fault : Option Fault}
  {database database' : Database} {loaded : Loaded} {s t : Store} {state : StoreState} {r : ReceiptId}

section Ambiguous

theorem foldl_releaseSemanticCoordinate_keeps (state : StoreState) (released : List ReceiptId) :
    (released.foldl releaseSemanticCoordinate state).receipts = state.receipts ∧
    (released.foldl releaseSemanticCoordinate state).semantics = state.semantics ∧
    (released.foldl releaseSemanticCoordinate state).nextIdentity = state.nextIdentity := by
  induction released generalizing state with
  | nil => exact ⟨rfl, rfl, rfl⟩
  | cons r released ih =>
    obtain ⟨receipts, semantics, identity⟩ := releaseSemanticCoordinate_keeps state r
    rw [List.foldl_cons, ← receipts, ← semantics, ← identity]
    exact ih _

theorem recoverAmbiguousDelivery_keeps (state : StoreState) :
    (∀ r : ReceiptId, (recoverAmbiguousDelivery state).1.receipts[r]? =
      state.receipts[r]?.map recoverReceipt) ∧
    (recoverAmbiguousDelivery state).1.semantics = state.semantics ∧
    (recoverAmbiguousDelivery state).1.nextIdentity = state.nextIdentity := by
  obtain ⟨receipts, semantics, identity⟩ := foldl_releaseSemanticCoordinate_keeps
    { state with receipts := state.receipts.map fun _ receipt => recoverReceipt receipt }
    (((state.receipts.values.filter isAmbiguous).filter fun receipt =>
      (recoverReceipt receipt).isTerminal).map Receipt.receiptId)
  refine ⟨fun r => ?_, semantics, identity⟩
  rw [show (recoverAmbiguousDelivery state).1.receipts = _ from receipts, ExtTreeMap.getElem?_map]

theorem unrouted_recoverReceipt (receipt : Receipt) :
    unrouted (recoverReceipt receipt) = unrouted receipt := by
  unfold recoverReceipt
  split
  · rw [unrouted_settle]
    rfl
  · rfl

theorem recoverReceipt_of_unambiguous {receipt : Receipt} (still : isAmbiguous receipt = false) :
    recoverReceipt receipt = receipt := by
  rw [recoverReceipt, still]
  rfl

theorem mem_recovered : r ∈ (recoverAmbiguousDelivery state).2 ↔
    ∃ receipt ∈ state.receipts.values, isAmbiguous receipt = true ∧ receipt.receiptId = r := by
  show r ∈ (state.receipts.values.filter isAmbiguous).map Receipt.receiptId ↔ _
  simp only [List.mem_map, List.mem_filter, and_assoc]

end Ambiguous

section Writing

variable {W : Codec PersistedReceipt}

theorem find_foldl_insertRow {rows : List PersistedReceipt} {q : Nat}
    {f : Nat → Option PersistedReceipt} (each : ∀ row ∈ rows, f row.receipt.receiptId = some row) :
    (rows.foldl Database.insertRow database).rows[q]? =
      if q ∈ rows.map (·.receipt.receiptId) then f q else database.rows[q]? := by
  induction rows generalizing database with
  | nil => simp
  | cons row rows ih =>
    rw [List.foldl_cons, ih fun row' member => each row' (List.mem_cons_of_mem _ member),
      List.map_cons]
    by_cases later : q ∈ rows.map (·.receipt.receiptId)
    · rw [if_pos later, if_pos (List.mem_cons_of_mem _ later)]
    · rw [if_neg later]
      show (database.rows.insert row.receipt.receiptId row)[q]? = _
      by_cases here : q = row.receipt.receiptId
      · rw [if_pos (List.mem_cons.mpr (.inl here)), here, BTreeMap.find_insert_self, each row List.mem_cons_self]
      · rw [if_neg fun inside => (List.mem_cons.mp inside).elim here later, BTreeMap.find_insert_of_ne (Ne.symm here)]

theorem nextId_foldl_insertRow {rows : List PersistedReceipt} :
    (rows.foldl Database.insertRow database).nextId = database.nextId := by
  induction rows generalizing database with
  | nil => rfl
  | cons row rows ih => exact ih

/-- The rows that are written again are those of the named receipts. -/
theorem persistExisting_eq_ok {ids : List ReceiptId} (done : persistExisting W ids s = .ok t) :
    ∃ rows fault, t = s.wrote none rows [] fault s.state ∧
      (∀ r ∈ ids, ∃ row ∈ rows, s.state.receipts[r]? = some (PersistedReceipt.receipt row)) ∧
      ∀ row ∈ rows, ∃ r ∈ ids, s.state.receipts[r]? = some (PersistedReceipt.receipt row) ∧
        row.semantic = s.state.semantics[r]? := by
  obtain ⟨rows, listed, written⟩ := bind_eq_ok.mp done
  obtain ⟨-, fault, rfl⟩ := commit_eq_ok written
  refine ⟨rows, fault, rfl, ?_⟩
  clear done written
  induction ids generalizing rows with
  | nil =>
    rw [List.mapM_nil] at listed
    obtain rfl := Except.ok.inj listed
    exact ⟨by simp, by simp⟩
  | cons r ids ih =>
    obtain ⟨row, rest, first, later, rfl⟩ := mapM_cons_eq_ok.mp listed
    obtain ⟨receipt, found, first⟩ := demand_bind_eq_ok.mp first
    obtain rfl := Except.ok.inj first
    obtain ⟨all, only⟩ := ih rest later
    refine ⟨fun q member => ?_, fun row member => ?_⟩
    · obtain rfl | member := List.mem_cons.mp member
      · exact ⟨_, List.mem_cons_self, found⟩
      · obtain ⟨row, inside, present⟩ := all q member
        exact ⟨row, List.mem_cons_of_mem _ inside, present⟩
    · obtain rfl | member := List.mem_cons.mp member
      · exact ⟨r, List.mem_cons_self, found, rfl⟩
      · obtain ⟨q, inside, present⟩ := only row member
        exact ⟨q, List.mem_cons_of_mem _ inside, present⟩

/-- Opening fails and leaves the database alone, or the database is read back and recovered,
and the store then told of every signing that was under way. -/
theorem openBounded_cases (N : Library) (W : Codec PersistedReceipt) (limits : StoreLimits)
    (fault : Option Fault) (database : Database) :
    (∃ error, openBounded N W limits fault database = (.error error, database)) ∨
    ∃ loaded t, load N database = .ok loaded ∧ Recovered limits database loaded t ∧
      openBounded N W limits fault database =
        ((recoverAuthorizedSigning N W t).1.map fun _ => (recoverAuthorizedSigning N W t).2,
          (recoverAuthorizedSigning N W t).2.database) := by
  unfold openBounded
  split
  · exact .inl ⟨_, rfl⟩
  rename_i loaded read
  dsimp only
  split
  · exact .inl ⟨_, rfl⟩
  rename_i t persisted
  refine .inr ⟨loaded, t, read, ?_, by split <;> rename_i signed <;> rw [signed] <;> rfl⟩
  obtain ⟨positive, loads, valid⟩ := load_eq_ok.mp read
  obtain ⟨receipts, semantics, identity⟩ :=
    recoverAmbiguousDelivery_keeps (loadedState database loaded)
  obtain ⟨_, bounded, persisted⟩ := bind_eq_ok.mp persisted
  obtain ⟨active, bounded⟩ := require_bind_eq_ok.mp bounded
  have terminal : terminalCount (recoverAmbiguousDelivery (loadedState database loaded)).1 ≤
      limits.terminal := of_require bounded
  -- What a row says of its own receipt once that is recovered.
  have row_of : ∀ (r : ReceiptId) (receipt : Receipt),
      (recoverAmbiguousDelivery (loadedState database loaded)).1.receipts[r]? = some receipt →
      receipt.receiptId = r ∧ ∃ row : PersistedReceipt, database.rows[r]? = some row ∧
        recoverReceipt row.receipt = receipt := by
    intro r receipt found
    rw [receipts, show (loadedState database loaded).receipts[r]? = _ from loads.receipts r,
      Option.map_map, Option.map_eq_some_iff] at found
    obtain ⟨row, present, rfl⟩ := found
    have own := congrArg (·.receiptId) (unrouted_recoverReceipt row.receipt)
    exact ⟨own.trans (loads.sound r row present).named.1, row, present, rfl⟩
  have still : ∀ r : ReceiptId, r ∉ (recoverAmbiguousDelivery (loadedState database loaded)).2 →
      database.rows[r]? = database.rows[r]?.map fun row => ⟨recoverReceipt row.receipt, row.semantic⟩ := by
    intro r outside
    cases present : database.rows[r]? with
    | none => rfl
    | some row =>
      have unambiguous : isAmbiguous row.receipt = false := by
        rw [← Bool.not_eq_true]
        intro ambiguous
        have held : loaded.receipts[r]? = some row.receipt := by
          rw [loads.receipts, present]
          rfl
        exact outside (mem_recovered.mpr ⟨row.receipt, BTreeMap.mem_values.mpr ⟨r, held⟩, ambiguous,
          (loads.sound r row present).named.1⟩)
      rw [Option.map_some, recoverReceipt_of_unambiguous unambiguous]
  split at persisted
  · rename_i undisturbed
    obtain rfl := Except.ok.inj persisted
    refine ⟨rfl, rfl, active, terminal, fun r => still r fun inside => ?_, rfl⟩
    rw [show (recoverAmbiguousDelivery (loadedState database loaded)).2 = [] from undisturbed] at inside
    exact List.not_mem_nil inside
  · obtain ⟨rows, fault', rfl, all, only⟩ := persistExisting_eq_ok persisted
    refine ⟨rfl, rfl, active, terminal, fun r => ?_, nextId_foldl_insertRow⟩
    have each : ∀ row ∈ rows, database.rows[PersistedReceipt.receipt row |>.receiptId]?.map
        (fun row => (⟨recoverReceipt row.receipt, row.semantic⟩ : PersistedReceipt)) = some row := by
      intro row member
      obtain ⟨q, -, found, custody⟩ := only row member
      obtain ⟨own, before, present, recovered⟩ := row_of q row.receipt found
      have same : row.semantic = before.semantic := by
        have held : row.semantic = loaded.semantics[q]? :=
          custody.trans (congrArg (fun kept : BTreeMap ReceiptId SemanticCustody => kept[q]?) semantics)
        rw [held, loads.semantics, present]
        rfl
      rw [own, present, Option.map_some, recovered, ← same]
    refine (find_foldl_insertRow (f := fun q => database.rows[q]?.map fun row =>
      ⟨recoverReceipt row.receipt, row.semantic⟩) each).trans ?_
    split
    · rfl
    · rename_i unwritten
      refine still r fun inside => unwritten ?_
      obtain ⟨row, member, found⟩ := all r inside
      exact List.mem_map.mpr ⟨row, member, (row_of r row.receipt found).1⟩

theorem openBounded_eq_ok (opened : openBounded N W limits fault database = (.ok s, database')) :
    ∃ loaded t, load N database = .ok loaded ∧ Recovered limits database loaded t ∧
      recoverAuthorizedSigning N W t = (.ok (), s) := by
  obtain ⟨error, failed⟩ | ⟨loaded, t, read, recovered, done⟩ :=
    openBounded_cases N W limits fault database
  · rw [failed] at opened
    cases (Prod.mk.inj opened).1
  · rw [done] at opened
    obtain ⟨answered, -⟩ := Prod.mk.inj opened
    refine ⟨loaded, t, read, recovered, ?_⟩
    cases signed : recoverAuthorizedSigning N W t with
    | mk answer u =>
      rw [signed] at answered
      cases answer with
      | error error => cases answered
      | ok _ =>
        obtain rfl := Except.ok.inj answered
        rfl

end Writing

section Reading

theorem valid_of_reconstructed {next : Nat} {receipts : BTreeMap ReceiptId Receipt} {receipt : Receipt}
    {semantics : BTreeMap ReceiptId SemanticCustody}
    (valid : reconstructed N next receipts semantics = .ok ()) (found : receipts[r]? = some receipt) :
    validateReceipt N r receipt semantics[r]? = .ok () ∧ r < next := by
  obtain ⟨_, all, -⟩ := bind_eq_ok.mp valid
  have one := forM_eq_ok.mp all (r, receipt) (ExtTreeMap.mem_toList_iff_getElem?_eq_some.mpr found)
  obtain ⟨_, fine, counted⟩ := bind_eq_ok.mp one
  exact ⟨fine, of_require counted⟩

/-- What is there once a database was read and recovered: its rows with their attempts
ended. -/
theorem Recovered.find (h : Recovered limits database loaded s) (loads : Loads database loaded)
    (r : ReceiptId) : s.state.receipts[r]? = database.rows[r]?.map (recoverReceipt ·.receipt) ∧
      s.state.semantics[r]? = database.rows[r]?.bind (·.semantic) := by
  obtain ⟨receipts, semantics, -⟩ := recoverAmbiguousDelivery_keeps (loadedState database loaded)
  refine ⟨?_, ?_⟩
  · rw [h.state_eq, receipts, show (loadedState database loaded).receipts[r]? = _ from loads.receipts r,
      Option.map_map]
    rfl
  · rw [h.state_eq, semantics]
    exact loads.semantics r

theorem Recovered.mirrors (h : Recovered limits database loaded s)
    (read : load N database = .ok loaded) : Mirrors s := by
  obtain ⟨positive, loads, valid⟩ := load_eq_ok.mp read
  have identity : s.state.nextIdentity = database.nextId := by
    rw [h.state_eq]
    exact (recoverAmbiguousDelivery_keeps _).2.2
  have present : ∀ r ∈ s.state.receipts, ∃ row, database.rows[r]? = some row := by
    intro r member
    rw [ExtTreeMap.mem_iff_isSome_getElem?, (h.find loads r).1, Option.isSome_map] at member
    exact Option.isSome_iff_exists.mp member
  refine ⟨h.nextId.trans identity.symm, fun r => ?_, fun r receipt found => ?_, fun r member => ?_,
    fun r member => ?_, ?_⟩
  · rw [h.rows, (h.find loads r).1, (h.find loads r).2]
    cases database.rows[r]? <;> rfl
  · rw [(h.find loads r).1, Option.map_eq_some_iff] at found
    obtain ⟨row, here, rfl⟩ := found
    have own := unrouted_recoverReceipt row.receipt
    obtain ⟨receiptId, writeId⟩ := (loads.sound r row here).named
    exact ⟨(congrArg (·.receiptId) own).trans receiptId, (congrArg (·.writeId) own).trans writeId⟩
  · obtain ⟨row, here⟩ := present r member
    have found : loaded.receipts[r]? = some row.receipt := by
      rw [loads.receipts, here]
      rfl
    rw [identity]
    exact ⟨Nat.pos_of_ne_zero (loads.sound r row here).positive, (valid_of_reconstructed valid found).2⟩
  · rw [ExtTreeMap.mem_iff_isSome_getElem?, (h.find loads r).2] at member
    rw [ExtTreeMap.mem_iff_isSome_getElem?, (h.find loads r).1]
    cases here : database.rows[r]? with
    | none =>
      rw [here] at member
      cases member
    | some row => rfl
  · rw [identity]
    exact Nat.pos_of_ne_zero positive

end Reading

section Signing

variable {W : Codec PersistedReceipt}

/-- What every report of a failed signing keeps, reporting all of them keeps. -/
theorem recoverSigning_keeps {I : Store → Prop} {receipts : List Receipt}
    (keeps : ∀ (t : Store) (receipt : Receipt), receipt ∈ receipts → I t →
      I (recordSignerRetryableCurrent N W receipt.writeId receipt.receiptId
        receipt.current.publication.revisionId receipt.current.id (interruption N receipt) t).2)
    (start : I s) : I (recoverSigning N W receipts s).2 := by
  induction receipts generalizing s with
  | nil => exact start
  | cons receipt receipts ih =>
    have stepped := keeps s receipt List.mem_cons_self start
    unfold recoverSigning
    split
    · rename_i u answered
      rw [answered] at stepped
      exact ih (fun t receipt member => keeps t receipt (List.mem_cons_of_mem _ member)) stepped
    · rename_i u answered
      rw [answered] at stepped
      exact stepped

theorem recoverSigning_induction {I : Store → Prop} {receipts : List Receipt}
    (keeps : ∀ (t : Store) (receipt : Receipt), receipt ∈ receipts → I t →
      I (recordSignerRetryableCurrent N W receipt.writeId receipt.receiptId
        receipt.current.publication.revisionId receipt.current.id (interruption N receipt) t).2)
    (start : I s) (done : recoverSigning N W receipts s = (.ok (), t)) : I t := by
  have kept := recoverSigning_keeps keeps start
  rw [done] at kept
  exact kept

theorem interruption_transition (N : Library) (W : Codec PersistedReceipt) (named : Named s.state)
    (receipt : Receipt) :
    Transition N W s
      (.recordSignerRetryable receipt.writeId receipt.receiptId
        receipt.current.publication.revisionId receipt.current.id (interruption N receipt))
      (recordSignerRetryableCurrent N W receipt.writeId receipt.receiptId
        receipt.current.publication.revisionId receipt.current.id (interruption N receipt) s).2 :=
  recordSignerRetryableCurrent_transition named

end Signing

section Running

variable {W : NostrJson} {G : System → Command → Prop} {commands : List Command} {I : Store → Prop}

theorem Mirrors.named_state (h : Mirrors s) : Named s.state :=
  fun r receipt found => (h.named r receipt found).1

/-- Another fault of the disk changes nothing that is there. -/
theorem Mirrors.with_fault (h : Mirrors s) (fault : Option Fault) : Mirrors { s with fault := fault } :=
  ⟨h.nextId, h.rows, h.named, h.counted, h.held, h.positive⟩

/-- Opening is tried on what the process, running or not, has on disk. -/
theorem step_reopen {system next : System} {limits : StoreLimits} {fault : Option Fault}
    (stepped : step N W system (.reopen limits fault) = some next) :
    (∃ store database', openBounded N (persistedReceipt N W) limits fault system.database =
      (.ok store, database') ∧ next = .running store) ∨
    ∃ error database', openBounded N (persistedReceipt N W) limits fault system.database =
      (.error error, database') ∧ next = .closed database' := by
  cases system
  all_goals
    simp only [step] at stepped
    split at stepped
    · rename_i store database' opened
      exact .inl ⟨store, database', opened, (Option.some.inj stepped).symm⟩
    · rename_i error database' refused
      exact .inr ⟨error, database', refused, (Option.some.inj stepped).symm⟩

theorem step_eq_running {system : System} {command : Command}
    (stepped : step N W system command = some (.running s)) :
    (∃ t fault action, system = .running t ∧ command = .perform fault action ∧
      s = (perform N (persistedReceipt N W) action { t with fault := fault }).2) ∨
    ∃ limits fault database', command = .reopen limits fault ∧
      openBounded N (persistedReceipt N W) limits fault system.database = (.ok s, database') := by
  cases command with
  | reopen limits fault =>
    obtain ⟨store, database', opened, is⟩ | ⟨error, database', refused, is⟩ := step_reopen stepped
    · cases is
      exact .inr ⟨limits, fault, database', rfl, opened⟩
    · cases is
  | perform fault action =>
    cases system with
    | closed database => cases stepped
    | running t =>
      cases stepped
      exact .inl ⟨t, fault, action, rfl, rfl, rfl⟩

/-- There is an open store, and it passes a check. -/
def System.holds (check : Store → Bool) : System → Bool
  | .closed _ => false
  | .running s => check s

theorem holds_iff {check : Store → Bool} {system : System} :
    system.holds check = true ↔ ∃ s, system = .running s ∧ check s = true := by
  cases system <;> simp [System.holds]

/-- What opening establishes and every operation keeps, every open store has. -/
theorem running_invariant
    (opens : ∀ system limits fault s database', G system (.reopen limits fault) →
      openBounded N (persistedReceipt N W) limits fault system.database = (.ok s, database') → I s)
    (keeps : ∀ t fault action, G (.running t) (.perform fault action) → I t →
      I (perform N (persistedReceipt N W) action { t with fault := fault }).2)
    (run : Run (step N W) G .initial commands (.running s)) : I s := by
  suffices ∀ t, System.running s = .running t → I t from this s rfl
  refine run.invariant (fun system => ∀ t, system = .running t → I t) ?_ ?_
  · intro t closed
    cases closed
  rintro system command _ before meets stepped t rfl
  obtain ⟨u, fault, action, rfl, rfl, rfl⟩ | ⟨limits, fault, database', rfl, opened⟩ :=
    step_eq_running stepped
  · exact keeps u fault action meets (before u rfl)
  · exact opens system limits fault t database' meets opened

/-- What recovery establishes and every transition keeps, every open store has. -/
theorem running_of_transitions
    (recovers : ∀ limits database loaded s, load N database = .ok loaded →
      Recovered limits database loaded s → I s)
    (faults : ∀ s fault, I s → I { s with fault := fault })
    (keeps : ∀ s action s', Mirrors s → I s → Transition N (persistedReceipt N W) s action s' → I s')
    (run : Run (step N W) Free .initial commands (.running s)) : Mirrors s ∧ I s := by
  refine running_invariant (I := fun s => Mirrors s ∧ I s) ?_ ?_ run
  · intro system limits fault s database' _ opened
    obtain ⟨loaded, t, read, recovered, signed⟩ := openBounded_eq_ok opened
    have start := recovers _ _ _ _ read recovered
    refine recoverSigning_induction (I := fun s => Mirrors s ∧ I s) ?_ ⟨recovered.mirrors read, start⟩
      signed
    rintro u receipt - ⟨mirrors, holds⟩
    have transition := interruption_transition N (persistedReceipt N W) mirrors.named_state receipt
    exact ⟨mirrors.transition transition, keeps _ _ _ mirrors holds transition⟩
  · rintro t fault action - ⟨mirrors, holds⟩
    have mirrors := mirrors.with_fault fault
    have transition : Transition N (persistedReceipt N W) _ action _ := perform_transition mirrors.named_state action
    exact ⟨mirrors.transition transition, keeps _ _ _ mirrors (faults t fault holds) transition⟩

end Running

end Fava.WriteStore.Redb
