import Fava.WriteStore.Redb.Mirror

namespace Fava.WriteStore.Redb

open Std Fava.Lib Fava.Nostr Fava.Relay Fava.Routing Fava.Write

/-- The coordinate a row owns: the one of its last edit, while its receipt is open. -/
def PersistedReceipt.coordinate (row : PersistedReceipt) : Option EventCoordinate :=
  if row.receipt.isTerminal then none
  else row.semantic.bind fun custody =>
    custody.edits.getLast?.map fun edit => editCoordinate edit custody.author

/-- A row that is in its place, with custody that says what its receipt says. -/
structure Sound (key : Nat) (row : PersistedReceipt) : Prop where
  positive : key ≠ 0
  named : row.receipt.receiptId = key ∧ row.receipt.writeId = key
  sourced : ∀ custody ∈ row.semantic,
    row.receipt.current.publication.revisionSource = custody.currentSource.map Prod.fst
  placed : ∀ custody ∈ row.semantic, row.receipt.isTerminal = false →
    ∃ edit, custody.edits.getLast? = some edit

/-- What one row adds. -/
def Loaded.add (loaded : Loaded) (key : Nat) (row : PersistedReceipt) : Loaded where
  receipts := loaded.receipts.insert key row.receipt
  coordinates := row.coordinate.elim loaded.coordinates (loaded.coordinates.insert · key)
  semantics := row.semantic.elim loaded.semantics (loaded.semantics.insert key)

/-- What a database holds, as it is built from its rows. -/
structure Loads (database : Database) (loaded : Loaded) : Prop where
  receipts : ∀ r : ReceiptId, loaded.receipts[r]? = database.rows[r]?.map (·.receipt)
  semantics : ∀ r : ReceiptId, loaded.semantics[r]? = database.rows[r]?.bind (·.semantic)
  owners : ∀ (c : EventCoordinate) (r : ReceiptId), loaded.coordinates[c]? = some r ↔
    ∃ row : PersistedReceipt, database.rows[r]? = some row ∧ row.coordinate = some c
  sound : ∀ (r : Nat) (row : PersistedReceipt), database.rows[r]? = some row → Sound r row

variable {loaded next start : Loaded} {key : Nat} {row : PersistedReceipt} {database : Database}

theorem coordinate_of_open {custody : SemanticCustody} {edit : EventEdit}
    (isOpen : row.receipt.isTerminal = false) (held : row.semantic = some custody)
    (last : custody.edits.getLast? = some edit) :
    row.coordinate = some (editCoordinate edit custody.author) := by
  rw [PersistedReceipt.coordinate, isOpen, held]
  simp [last]

section Rows

theorem loadRow_eq_ok : loadRow loaded (key, row) = .ok next ↔
    Sound key row ∧ (∀ c ∈ row.coordinate, c ∉ loaded.coordinates) ∧ key ∉ loaded.receipts ∧
      next = loaded.add key row := by
  obtain ⟨receipt, semantic⟩ := row
  unfold loadRow Loaded.add
  dsimp only
  rw [require_bind_eq_ok, require_bind_eq_ok]
  cases semantic with
  | none =>
    have unowned : (⟨receipt, none⟩ : PersistedReceipt).coordinate = none := by
      unfold PersistedReceipt.coordinate
      split <;> rfl
    change _ ∧ _ ∧ (require _ _ >>= _) = _ ↔ _
    rw [require_bind_eq_ok, Except.ok.injEq, eq_comm (b := next), unowned]
    exact ⟨fun ⟨positive, named, fresh, is⟩ => ⟨⟨positive, named, nofun, nofun⟩, nofun, fresh, is⟩,
      fun ⟨sound, _, fresh, is⟩ => ⟨sound.positive, sound.named, fresh, is⟩⟩
  | some custody =>
    dsimp only
    rw [require_bind_eq_ok]
    by_cases terminal : receipt.isTerminal = true
    · have unowned : (⟨receipt, some custody⟩ : PersistedReceipt).coordinate = none := if_pos terminal
      rw [if_pos terminal]
      change _ ∧ _ ∧ _ ∧ (require _ _ >>= _) = _ ↔ _
      rw [require_bind_eq_ok, Except.ok.injEq, eq_comm (b := next), unowned]
      constructor
      · rintro ⟨positive, named, sourced, fresh, is⟩
        refine ⟨⟨positive, named, ?_, ?_⟩, nofun, fresh, is⟩
        · rintro _ ⟨⟩
          exact sourced
        · intro _ _ isOpen
          rw [terminal] at isOpen
          cases isOpen
      · rintro ⟨sound, -, fresh, is⟩
        exact ⟨sound.positive, sound.named, sound.sourced custody rfl, fresh, is⟩
    · rw [if_neg terminal]
      have isOpen : receipt.isTerminal = false := by simpa using terminal
      rw [demand_bind_eq_ok]
      constructor
      · rintro ⟨positive, named, sourced, edit, last, done⟩
        obtain ⟨unowned, done⟩ := require_bind_eq_ok.mp done
        change (require _ _ >>= _) = _ at done
        obtain ⟨fresh, done⟩ := require_bind_eq_ok.mp done
        have owns : (⟨receipt, some custody⟩ : PersistedReceipt).coordinate = _ :=
          coordinate_of_open isOpen rfl last
        rw [owns]
        refine ⟨⟨positive, named, ?_, ?_⟩, ?_, fresh, (Except.ok.inj done).symm⟩
        · rintro _ ⟨⟩
          exact sourced
        · rintro _ ⟨⟩ -
          exact ⟨edit, last⟩
        · rintro _ ⟨⟩
          exact unowned
      · rintro ⟨sound, unowned, fresh, is⟩
        obtain ⟨edit, last⟩ := sound.placed custody rfl isOpen
        have owns : (⟨receipt, some custody⟩ : PersistedReceipt).coordinate = _ :=
          coordinate_of_open isOpen rfl last
        rw [owns] at is unowned
        refine ⟨sound.positive, sound.named, sound.sourced custody rfl, edit, last, ?_⟩
        rw [require_bind_eq_ok]
        refine ⟨unowned _ rfl, ?_⟩
        change (require _ _ >>= _) = _
        rw [require_bind_eq_ok, is]
        exact ⟨fresh, rfl⟩

/-- What was built from rows with different keys, beginning with what there was. -/
structure Builds (start : Loaded) (rows : List (Nat × PersistedReceipt)) (loaded : Loaded) :
    Prop where
  listed : ∀ r row, (r, row) ∈ rows →
    loaded.receipts[r]? = some row.receipt ∧ loaded.semantics[r]? = row.semantic
  others : ∀ r, (∀ row, (r, row) ∉ rows) →
    loaded.receipts[r]? = start.receipts[r]? ∧ loaded.semantics[r]? = start.semantics[r]?
  owners : ∀ (c : EventCoordinate) (r : ReceiptId), loaded.coordinates[c]? = some r ↔
    start.coordinates[c]? = some r ∨ ∃ row, (r, row) ∈ rows ∧ PersistedReceipt.coordinate row = some c
  sound : ∀ r row, (r, row) ∈ rows → Sound r row

theorem receipts_add : (loaded.add key row).receipts = loaded.receipts.insert key row.receipt := rfl

theorem semantics_add (vacant : loaded.semantics[key]? = none) :
    (loaded.add key row).semantics[key]? = row.semantic := by
  unfold Loaded.add
  cases row.semantic with
  | none => exact vacant
  | some custody => exact BTreeMap.find_insert_self

theorem semantics_add_of_ne {r : ReceiptId} (other : key ≠ r) :
    (loaded.add key row).semantics[r]? = loaded.semantics[r]? := by
  unfold Loaded.add
  cases row.semantic with
  | none => rfl
  | some custody => exact BTreeMap.find_insert_of_ne other

theorem owners_add {c : EventCoordinate} {r : ReceiptId}
    (unowned : ∀ c ∈ row.coordinate, c ∉ loaded.coordinates) :
    (loaded.add key row).coordinates[c]? = some r ↔
      loaded.coordinates[c]? = some r ∨ key = r ∧ row.coordinate = some c := by
  unfold Loaded.add
  cases owns : row.coordinate with
  | none => simp
  | some d =>
    show (loaded.coordinates.insert d key)[c]? = some r ↔ _
    rw [BTreeMap.find_insert, Option.some.injEq]
    by_cases here : d = c
    · subst here
      have vacant : loaded.coordinates[d]? = none := ExtTreeMap.getElem?_eq_none (unowned d owns)
      simp [vacant]
    · simp [here]

theorem builds_of_foldlM {rows : List (Nat × PersistedReceipt)}
    (apart : (rows.map Prod.fst).Nodup)
    (vacant : ∀ r row, (r, row) ∈ rows → start.semantics[r]? = none)
    (done : rows.foldlM loadRow start = .ok loaded) : Builds start rows loaded := by
  induction rows generalizing start with
  | nil =>
    rw [List.foldlM_nil] at done
    obtain rfl := Except.ok.inj done
    exact ⟨by simp, fun _ _ => ⟨rfl, rfl⟩, by simp, by simp⟩
  | cons entry rows ih =>
    obtain ⟨key, row⟩ := entry
    rw [List.foldlM_cons] at done
    obtain ⟨next, added, done⟩ := bind_eq_ok.mp done
    obtain ⟨sound, unowned, fresh, rfl⟩ := loadRow_eq_ok.mp added
    rw [List.map_cons, List.nodup_cons] at apart
    have elsewhere : ∀ r row', (r, row') ∈ rows → key ≠ r := by
      rintro r row' member rfl
      exact apart.1 (List.mem_map.mpr ⟨_, member, rfl⟩)
    have rest : Builds (start.add key row) rows loaded := by
      refine ih apart.2 (fun r row' member => ?_) done
      rw [semantics_add_of_ne (elsewhere r row' member)]
      exact vacant r row' (List.mem_cons_of_mem _ member)
    refine ⟨fun r row' member => ?_, fun r absent => ?_, fun c r => ?_, fun r row' member => ?_⟩
    · obtain here | later := List.mem_cons.mp member
      · obtain ⟨rfl, rfl⟩ := Prod.mk.inj here
        obtain ⟨receipts, semantics⟩ := rest.others r fun row'' member => elsewhere r row'' member rfl
        rw [receipts, semantics, receipts_add, semantics_add (vacant r row' member)]
        exact ⟨BTreeMap.find_insert_self, rfl⟩
      · exact rest.listed r row' later
    · have other : key ≠ r := by
        rintro rfl
        exact absent row List.mem_cons_self
      obtain ⟨receipts, semantics⟩ := rest.others r fun row' member =>
        absent row' (List.mem_cons_of_mem _ member)
      rw [receipts, semantics, receipts_add, semantics_add_of_ne other]
      exact ⟨BTreeMap.find_insert_of_ne other, rfl⟩
    · rw [rest.owners, owners_add unowned, or_assoc]
      refine or_congr_right ⟨?_, ?_⟩
      · rintro (⟨rfl, owns⟩ | ⟨row', member, owns⟩)
        · exact ⟨row, List.mem_cons_self, owns⟩
        · exact ⟨row', List.mem_cons_of_mem _ member, owns⟩
      · rintro ⟨row', member, owns⟩
        obtain here | later := List.mem_cons.mp member
        · obtain ⟨rfl, rfl⟩ := Prod.mk.inj here
          exact .inl ⟨rfl, owns⟩
        · exact .inr ⟨row', later, owns⟩
    · obtain here | later := List.mem_cons.mp member
      · obtain ⟨rfl, rfl⟩ := Prod.mk.inj here
        exact sound
      · exact rest.sound r row' later

/-- Rows in their places, of different owners, are all taken. -/
theorem foldlM_loadRow_total {rows : List (Nat × PersistedReceipt)}
    (apart : (rows.map Prod.fst).Nodup) (sound : ∀ r row, (r, row) ∈ rows → Sound r row)
    (owners : ∀ r q row row', (r, row) ∈ rows → (q, row') ∈ rows →
      ∀ c ∈ PersistedReceipt.coordinate row, row'.coordinate = some c → r = q)
    (vacant : ∀ r row, (r, row) ∈ rows → r ∉ start.receipts ∧
      ∀ c ∈ PersistedReceipt.coordinate row, c ∉ start.coordinates) :
    ∃ loaded, rows.foldlM loadRow start = .ok loaded := by
  induction rows generalizing start with
  | nil => exact ⟨start, rfl⟩
  | cons entry rows ih =>
    obtain ⟨key, row⟩ := entry
    obtain ⟨fresh, unowned⟩ := vacant key row List.mem_cons_self
    rw [List.foldlM_cons, loadRow_eq_ok.mpr ⟨sound key row List.mem_cons_self, unowned, fresh, rfl⟩]
    rw [List.map_cons, List.nodup_cons] at apart
    refine ih apart.2 (fun r row' member => sound r row' (List.mem_cons_of_mem _ member))
      (fun r q row' row'' first second => owners r q row' row'' (List.mem_cons_of_mem _ first)
        (List.mem_cons_of_mem _ second)) fun r row' member => ?_
    have other : key ≠ r := by
      rintro rfl
      exact apart.1 (List.mem_map.mpr ⟨_, member, rfl⟩)
    obtain ⟨absent, free⟩ := vacant r row' (List.mem_cons_of_mem _ member)
    refine ⟨?_, fun c owns owned => ?_⟩
    · rw [receipts_add, ExtTreeMap.mem_insert, LawfulEqCmp.compare_eq_iff_eq]
      exact fun either => either.elim other absent
    · obtain ⟨q, owner⟩ := Option.isSome_iff_exists.mp (ExtTreeMap.mem_iff_isSome_getElem?.mp owned)
      obtain before | ⟨-, same⟩ := (owners_add unowned).mp owner
      · exact free c owns (ExtTreeMap.mem_iff_isSome_getElem?.mpr (by rw [before]; rfl))
      · exact other (owners key r row row' List.mem_cons_self (List.mem_cons_of_mem _ member) c same owns)

end Rows

theorem Loads.ext {other : Loaded} (h : Loads database loaded) (h' : Loads database other) :
    loaded = other := by
  obtain ⟨receipts, coordinates, semantics⟩ := loaded
  obtain ⟨receipts', coordinates', semantics'⟩ := other
  have first : receipts = receipts' := by
    apply ExtTreeMap.ext_getElem?
    intro r
    exact (h.receipts r).trans (h'.receipts r).symm
  have second : coordinates = coordinates' := by
    apply ExtTreeMap.ext_getElem?
    intro c
    apply Option.ext
    intro r
    exact (h.owners c r).trans (h'.owners c r).symm
  have third : semantics = semantics' := by
    apply ExtTreeMap.ext_getElem?
    intro r
    exact (h.semantics r).trans (h'.semantics r).symm
  rw [first, second, third]

theorem nodup_rows : (database.rows.toList.map Prod.fst).Nodup := by
  rw [ExtTreeMap.map_fst_toList_eq_keys]
  exact BTreeMap.nodup_keys

theorem mem_rows {r : Nat} : (r, row) ∈ database.rows.toList ↔ database.rows[r]? = some row :=
  ExtTreeMap.mem_toList_iff_getElem?_eq_some

theorem loads_of_foldlM (done : database.rows.toList.foldlM loadRow ⟨∅, ∅, ∅⟩ = .ok loaded) :
    Loads database loaded := by
  have builds := builds_of_foldlM nodup_rows (fun _ _ _ => ExtTreeMap.getElem?_empty) done
  have empty : ∀ r : Nat, database.rows[r]? = none →
      loaded.receipts[r]? = none ∧ loaded.semantics[r]? = none := by
    intro r missing
    obtain ⟨receipts, semantics⟩ := builds.others r fun row member => by
      rw [mem_rows, missing] at member
      cases member
    exact ⟨receipts.trans ExtTreeMap.getElem?_empty, semantics.trans ExtTreeMap.getElem?_empty⟩
  refine ⟨fun r => ?_, fun r => ?_, fun c r => ?_, fun r row found => builds.sound r row (mem_rows.mpr found)⟩
  · cases found : database.rows[r]? with
    | none => exact (empty r found).1
    | some row => exact (builds.listed r row (mem_rows.mpr found)).1
  · cases found : database.rows[r]? with
    | none => exact (empty r found).2
    | some row => exact (builds.listed r row (mem_rows.mpr found)).2
  · rw [builds.owners, ExtTreeMap.getElem?_empty]
    simp only [mem_rows, reduceCtorEq, false_or]

/-- A database is read back if its rows can stand beside each other and pass all checks. -/
theorem load_eq_ok {N : Library} : load N database = .ok loaded ↔ database.nextId ≠ 0 ∧
    Loads database loaded ∧
      reconstructed N database.nextId loaded.receipts loaded.semantics = .ok () := by
  unfold load
  rw [require_bind_eq_ok, bind_eq_ok]
  constructor
  · rintro ⟨positive, built, folded, done⟩
    obtain ⟨_, valid, done⟩ := bind_eq_ok.mp done
    obtain rfl := Except.ok.inj done
    exact ⟨positive, loads_of_foldlM folded, valid⟩
  · rintro ⟨positive, loads, valid⟩
    have apart : ∀ r q row row', (r, row) ∈ database.rows.toList → (q, row') ∈ database.rows.toList →
        ∀ c ∈ PersistedReceipt.coordinate row, row'.coordinate = some c → r = q := by
      intro r q row row' first second c owns owns'
      have one := (loads.owners c r).mpr ⟨row, mem_rows.mp first, owns⟩
      have two := (loads.owners c q).mpr ⟨row', mem_rows.mp second, owns'⟩
      exact Option.some.inj (one.symm.trans two)
    obtain ⟨built, folded⟩ : ∃ built, database.rows.toList.foldlM loadRow ⟨∅, ∅, ∅⟩ = .ok built :=
      foldlM_loadRow_total nodup_rows (fun r row member => loads.sound r row (mem_rows.mp member)) apart
        fun _ _ _ => ⟨ExtTreeMap.not_mem_empty, fun _ _ => ExtTreeMap.not_mem_empty⟩
    obtain rfl := (loads_of_foldlM folded).ext loads
    exact ⟨positive, built, folded, by rw [valid]; rfl⟩

end Fava.WriteStore.Redb
