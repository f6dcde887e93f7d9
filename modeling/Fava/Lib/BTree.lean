import Mathlib.Data.List.Nodup
import Mathlib.Data.List.Perm.Subperm
import Mathlib.Data.List.Sort
import Mathlib.Data.String.Basic

namespace Fava.Lib

open Std

/-- Ordered sets and maps with extensional equality: two values with the same
entries are equal, however they were built. -/
abbrev BTreeSet (α : Type) [Ord α] := ExtTreeSet α

abbrev BTreeMap (α β : Type) [Ord α] := ExtTreeMap α β

variable {α : Type} [Ord α] [TransOrd α] [LawfulEqOrd α] {s t : BTreeSet α} {a b : α}

def BTreeSet.subset (s t : BTreeSet α) : Bool := s.toList.all t.contains

theorem BTreeSet.subset_iff : BTreeSet.subset s t = true ↔ ∀ a ∈ s, a ∈ t := by
  simp [BTreeSet.subset, ExtTreeSet.contains_iff_mem]

@[simp] theorem BTreeSet.mem_insert : a ∈ ExtTreeSet.insert s b ↔ a = b ∨ a ∈ s := by
  rw [ExtTreeSet.mem_insert, LawfulEqCmp.compare_eq_iff_eq, eq_comm]

@[simp] theorem BTreeSet.mem_singleton : a ∈ ({b} : BTreeSet α) ↔ a = b := by
  change a ∈ ExtTreeSet.insert ∅ b ↔ a = b
  simp only [mem_insert, ExtTreeSet.not_mem_empty, or_false]

omit [LawfulEqOrd α] in
theorem BTreeSet.isEmpty_iff : ExtTreeSet.isEmpty s = true ↔ ∀ a, a ∉ s := by
  rw [ExtTreeSet.isEmpty_iff, ExtTreeSet.eq_empty_iff_forall_not_mem]

theorem BTreeSet.nodup_toList : (ExtTreeSet.toList s).Nodup :=
  ExtTreeSet.distinct_toList.imp fun differ same =>
    differ (by rw [same]; exact ReflCmp.compare_self)

theorem BTreeSet.toList_ofList_perm [DecidableEq α] {l : List α} (nodup : l.Nodup) :
    (ExtTreeSet.toList (ExtTreeSet.ofList l : BTreeSet α)).Perm l := by
  refine (List.perm_ext_iff_of_nodup nodup_toList nodup).mpr fun a => ?_
  rw [ExtTreeSet.mem_toList, ExtTreeSet.mem_ofList, List.contains_iff_mem]

/-- Two sets with nothing in common are listed by their union. -/
theorem BTreeSet.toList_union_perm (apart : ∀ a ∈ s, a ∉ t) :
    (ExtTreeSet.toList (s ∪ t)).Perm (s.toList ++ t.toList) := by
  have nodup : (s.toList ++ t.toList).Nodup := by
    refine List.nodup_append.mpr ⟨nodup_toList, nodup_toList, ?_⟩
    rintro a ha b hb rfl
    exact apart a (ExtTreeSet.mem_toList.mp ha) (ExtTreeSet.mem_toList.mp hb)
  refine (List.perm_ext_iff_of_nodup nodup_toList nodup).mpr fun a => ?_
  rw [ExtTreeSet.mem_toList, ExtTreeSet.mem_union_iff, List.mem_append, ExtTreeSet.mem_toList,
    ExtTreeSet.mem_toList]

section Values

variable {β : Type}

omit [Ord α] [TransOrd α] [LawfulEqOrd α] in
theorem foldr_values (t : DTreeMap.Internal.Impl α fun _ => β) (l : List (α × β)) :
    t.foldr (fun _ v l => v :: l) (l.map Prod.snd) =
      (t.foldr (fun k v l => (k, v) :: l) l).map Prod.snd := by
  induction t generalizing l with
  | leaf => rfl
  | inner _ k v left right ihl ihr =>
    show left.foldr _ (v :: right.foldr _ _) = List.map _ (left.foldr _ ((k, v) :: right.foldr _ _))
    rw [ihr]
    exact ihl ((k, v) :: right.foldr (fun k v l => (k, v) :: l) l)

omit [LawfulEqOrd α] in
theorem BTreeMap.values_eq (m : BTreeMap α β) : ExtTreeMap.values m = m.toList.map Prod.snd := by
  obtain ⟨⟨q⟩⟩ := m
  induction q using Quotient.inductionOn with
  | h t => exact foldr_values t.inner []

theorem BTreeMap.mem_values {m : BTreeMap α β} {v : β} :
    v ∈ ExtTreeMap.values m ↔ ∃ k : α, m[k]? = some v := by
  rw [values_eq, List.mem_map]
  constructor
  · rintro ⟨⟨k, _⟩, listed, rfl⟩
    exact ⟨k, ExtTreeMap.mem_toList_iff_getElem?_eq_some.mp listed⟩
  · rintro ⟨k, found⟩
    exact ⟨(k, v), ExtTreeMap.mem_toList_iff_getElem?_eq_some.mpr found, rfl⟩

theorem BTreeMap.find_of_first {m : BTreeMap α β} {check : α × β → Bool} {entry : α × β}
    (found : m.toList.find? check = some entry) : m[entry.1]? = some entry.2 :=
  ExtTreeMap.mem_toList_iff_getElem?_eq_some.mp (List.mem_of_find?_eq_some found)

end Values

section Keys

variable [DecidableEq α] {β : Type} {m : BTreeMap α β} {l : List α} {v : β}

/-- The keys of a map as a set. -/
def BTreeMap.keySet (m : BTreeMap α β) : BTreeSet α := ExtTreeSet.ofList m.keys

/-- The map that has one value at every key of a list. -/
def BTreeMap.constant (l : List α) (v : β) : BTreeMap α β := l.foldl (fun m k => m.insert k v) ∅

@[simp] theorem BTreeMap.mem_keySet : a ∈ BTreeMap.keySet m ↔ a ∈ m := by
  simp [keySet, ExtTreeSet.mem_ofList]

theorem BTreeSet.ofList_toList : ExtTreeSet.ofList s.toList = s := by
  apply ExtTreeSet.ext_mem
  intro a
  rw [ExtTreeSet.mem_ofList, List.contains_iff_mem, ExtTreeSet.mem_toList]

theorem BTreeMap.ofList_toList : ExtTreeMap.ofList m.toList = m := by
  apply ExtTreeMap.ext_getElem?
  intro a
  cases found : m[a]? with
  | some b =>
    exact ExtTreeMap.getElem?_ofList_of_mem ReflCmp.compare_self ExtTreeMap.distinct_keys_toList
      (ExtTreeMap.mem_toList_iff_getElem?_eq_some.mpr found)
  | none =>
    apply ExtTreeMap.getElem?_ofList_of_contains_eq_false
    rw [ExtTreeMap.map_fst_toList_eq_keys, ← Bool.not_eq_true, List.contains_iff_mem,
      ExtTreeMap.mem_keys, ExtTreeMap.mem_iff_isSome_getElem?, found]
    exact Bool.false_ne_true

omit [DecidableEq α] in
theorem BTreeMap.nodup_keys : (ExtTreeMap.keys m).Nodup :=
  ExtTreeMap.distinct_keys.imp fun differ same =>
    differ (by rw [same]; exact ReflCmp.compare_self)

omit [DecidableEq α] in
/-- Distinct keys of a map are no more than its entries. -/
theorem BTreeMap.length_le_size (nodup : l.Nodup) (inside : ∀ a ∈ l, a ∈ m) :
    l.length ≤ ExtTreeMap.size m := by
  rw [← ExtTreeMap.length_keys]
  exact (List.Nodup.subperm nodup fun a ha => ExtTreeMap.mem_keys.mpr (inside a ha)).length_le

omit [DecidableEq α] in
theorem BTreeMap.size_le_of_subset {γ : Type} {m' : BTreeMap α γ} (subset : ∀ a ∈ m, a ∈ m') :
    ExtTreeMap.size m ≤ ExtTreeMap.size m' := by
  rw [← ExtTreeMap.length_keys]
  exact length_le_size nodup_keys fun a ha => subset a (ExtTreeMap.mem_keys.mp ha)

omit [DecidableEq α] in
/-- A map has as many entries as a list that has each of its keys once. -/
theorem BTreeMap.length_eq_size (nodup : l.Nodup) (same : ∀ a, a ∈ l ↔ a ∈ m) :
    l.length = ExtTreeMap.size m := by
  rw [← ExtTreeMap.length_keys]
  refine List.Perm.length_eq ((List.perm_ext_iff_of_nodup nodup nodup_keys).mpr fun a => ?_)
  rw [same, ExtTreeMap.mem_keys]

theorem BTreeMap.find_insert {k : α} :
    (m.insert k v)[a]? = if k = a then some v else m[a]? := by
  simp only [ExtTreeMap.getElem?_insert, LawfulEqCmp.compare_eq_iff_eq]

theorem BTreeMap.find_erase {k : α} : (m.erase k)[a]? = if k = a then none else m[a]? := by
  simp only [ExtTreeMap.getElem?_erase, LawfulEqCmp.compare_eq_iff_eq]

/-- What is there after a removal was there before it. -/
theorem BTreeMap.find_of_erase {k : α} (found : (m.erase k)[a]? = some v) : m[a]? = some v := by
  rw [find_erase] at found
  by_cases same : k = a
  · rw [if_pos same] at found
    cases found
  · rwa [if_neg same] at found

omit [DecidableEq α] in
theorem BTreeMap.not_mem_insert {k : α} (other : k ≠ a) (absent : a ∉ m) : a ∉ m.insert k v := by
  rw [ExtTreeMap.mem_insert, LawfulEqCmp.compare_eq_iff_eq]
  exact fun inside => inside.elim other absent

theorem BTreeMap.find_insert_self : (m.insert a v)[a]? = some v := find_insert.trans (if_pos rfl)

theorem BTreeMap.find_insert_of_ne {k : α} (other : k ≠ a) : (m.insert k v)[a]? = m[a]? :=
  find_insert.trans (if_neg other)

theorem BTreeMap.find_erase_self : (m.erase a)[a]? = none := find_erase.trans (if_pos rfl)

theorem BTreeMap.find_erase_of_ne {k : α} (other : k ≠ a) : (m.erase k)[a]? = m[a]? :=
  find_erase.trans (if_neg other)

theorem BTreeMap.find_modify {k : α} {f : β → β} :
    (m.modify k f)[a]? = if k = a then m[a]?.map f else m[a]? := by
  rw [ExtTreeMap.getElem?_modify]
  by_cases here : k = a
  · rw [if_pos (LawfulEqCmp.compare_eq_iff_eq.mpr here), if_pos here, here]
  · rw [if_neg (mt LawfulEqCmp.compare_eq_iff_eq.mp here), if_neg here]

theorem BTreeMap.find_foldl_erase :
    (l.foldl (fun m k => m.erase k) m)[a]? = if a ∈ l then none else m[a]? := by
  induction l generalizing m with
  | nil => simp
  | cons k l ih =>
    rw [List.foldl_cons, ih, find_erase]
    by_cases later : a ∈ l
    · simp [later]
    · by_cases here : k = a
      · simp [here]
      · simp [later, here, Ne.symm here]

theorem BTreeMap.find_foldl_insert :
    (l.foldl (fun m k => m.insert k v) m)[a]? = if a ∈ l then some v else m[a]? := by
  induction l generalizing m with
  | nil => rfl
  | cons k l ih =>
    rw [List.foldl_cons, ih, find_insert]
    by_cases later : a ∈ l
    · simp [later]
    · by_cases here : k = a
      · simp [here]
      · simp [later, here, Ne.symm here]

theorem BTreeMap.find_constant :
    (BTreeMap.constant l v)[a]? = if a ∈ l then some v else none := by
  rw [constant, find_foldl_insert, ExtTreeMap.getElem?_empty]

@[simp] theorem BTreeMap.mem_constant : a ∈ BTreeMap.constant l v ↔ a ∈ l := by
  rw [ExtTreeMap.mem_iff_isSome_getElem?, find_constant]
  by_cases here : a ∈ l <;> simp [here]

end Keys

section Counts

variable [DecidableEq α] {β : Type} {m : BTreeMap α β} {u v : β} {p q : β → Bool}

/-- How many values of a map have a property. -/
def BTreeMap.count (p : β → Bool) (m : BTreeMap α β) : Nat := (ExtTreeMap.values m).filter p |>.length

omit [DecidableEq α] in
theorem BTreeMap.nodup_toList : (ExtTreeMap.toList m).Nodup :=
  ExtTreeMap.distinct_keys_toList.imp fun differ same =>
    differ (by rw [same]; exact ReflCmp.compare_self)

/-- The values of a map are one of them and those of the other keys. -/
theorem BTreeMap.values_of_find (found : m[a]? = some u) :
    (ExtTreeMap.values m).Perm (u :: (m.erase a).values) := by
  have entries : m.toList.Perm ((a, u) :: (m.erase a).toList) := by
    have nodup : ((a, u) :: (m.erase a).toList).Nodup := by
      refine List.nodup_cons.mpr ⟨fun listed => ?_, nodup_toList⟩
      rw [ExtTreeMap.mem_toList_iff_getElem?_eq_some, find_erase_self] at listed
      cases listed
    refine (List.perm_ext_iff_of_nodup nodup_toList nodup).mpr fun (k, w) => ?_
    rw [List.mem_cons, ExtTreeMap.mem_toList_iff_getElem?_eq_some,
      ExtTreeMap.mem_toList_iff_getElem?_eq_some, find_erase]
    by_cases here : a = k
    · subst here
      rw [found, if_pos rfl]
      simp [eq_comm]
    · simp [here, Ne.symm here]
  rw [values_eq, values_eq]
  exact entries.map Prod.snd

theorem BTreeMap.erase_insert : (m.insert a v).erase a = m.erase a := by
  apply ExtTreeMap.ext_getElem?
  intro k
  rw [find_erase, find_erase, find_insert]
  split <;> rfl

theorem BTreeMap.values_insert : ((m.insert a v).values).Perm (v :: (m.erase a).values) := by
  have perm := values_of_find (m := m.insert a v) find_insert_self
  rw [erase_insert] at perm
  exact perm

theorem BTreeMap.count_of_find (found : m[a]? = some u) :
    count p m = count p (m.erase a) + (p u).toNat := by
  unfold count
  rw [((values_of_find found).filter p).length_eq, List.filter_cons]
  cases p u <;> rfl

theorem BTreeMap.count_insert : count p (m.insert a v) = count p (m.erase a) + (p v).toNat := by
  unfold count
  rw [(values_insert.filter p).length_eq, List.filter_cons]
  cases p v <;> rfl

theorem BTreeMap.insert_of_find (found : m[a]? = some v) : m.insert a v = m := by
  apply ExtTreeMap.ext_getElem?
  intro k
  rw [find_insert]
  split
  · rename_i here
    rw [← here, found]
  · rfl

theorem BTreeMap.erase_of_not_mem (absent : a ∉ m) : m.erase a = m := by
  apply ExtTreeMap.ext_getElem?
  intro k
  rw [find_erase]
  split
  · rename_i here
    rw [← here, ExtTreeMap.getElem?_eq_none absent]
  · rfl

omit [DecidableEq α] in
theorem BTreeMap.modify_modify (f g : β → β) :
    (m.modify a f).modify a g = m.modify a fun v => g (f v) := by
  refine ExtTreeMap.ext_getElem? fun k => ?_
  simp only [ExtTreeMap.getElem?_modify]
  split
  · rw [if_pos ReflCmp.compare_self, Option.map_map]
    rfl
  · rfl

omit [DecidableEq α] in
theorem BTreeMap.modify_of_getElem? {v : β} (found : m[a]? = some v) (f : β → β) :
    m.modify a f = m.insert a (f v) := by
  refine ExtTreeMap.ext_getElem? fun k => ?_
  rw [ExtTreeMap.getElem?_modify, ExtTreeMap.getElem?_insert, found]
  rfl

theorem BTreeMap.count_insert_of_find (found : m[a]? = some u) :
    count p (m.insert a v) + (p u).toNat = count p m + (p v).toNat := by
  rw [count_insert, count_of_find found]
  exact Nat.add_right_comm _ _ _

theorem BTreeMap.count_insert_of_none (absent : m[a]? = none) :
    count p (m.insert a v) = count p m + (p v).toNat := by
  rw [count_insert, erase_of_not_mem]
  rw [ExtTreeMap.mem_iff_isSome_getElem?, absent]
  exact Bool.false_ne_true

omit [DecidableEq α] [LawfulEqOrd α] in
theorem BTreeMap.size_replace {k : α} (present : a ∈ m) (absent : k ∉ m) :
    ExtTreeMap.size ((m.erase a).insert k v) = ExtTreeMap.size m := by
  have away : ¬ExtTreeMap.contains (m.erase a) k = true := by
    rw [ExtTreeMap.contains_iff_mem]
    exact fun here => absent (ExtTreeMap.mem_of_mem_erase here)
  have some : ExtTreeMap.size m ≠ 0 := by
    intro nothing
    rw [← ExtTreeMap.eq_empty_iff_size_eq_zero] at nothing
    rw [nothing] at present
    exact ExtTreeMap.not_mem_empty present
  rw [ExtTreeMap.size_insert, if_neg away, ExtTreeMap.size_erase,
    if_pos (ExtTreeMap.contains_iff_mem.mpr present)]
  exact Nat.sub_one_add_one some

theorem BTreeMap.count_erase_le : count p (m.erase a) ≤ count p m := by
  cases found : m[a]? with
  | none =>
    rw [erase_of_not_mem]
    rw [ExtTreeMap.mem_iff_isSome_getElem?, found]
    exact Bool.false_ne_true
  | some u =>
    rw [count_of_find found]
    exact Nat.le_add_right _ _

omit [DecidableEq α] [LawfulEqOrd α] in
theorem BTreeMap.count_mono (imp : ∀ v ∈ ExtTreeMap.values m, p v = true → q v = true) :
    count p m ≤ count q m := by
  rw [count, count, ← List.countP_eq_length_filter, ← List.countP_eq_length_filter]
  exact List.countP_mono_left imp

omit [DecidableEq α] [LawfulEqOrd α] in
theorem BTreeMap.count_map {γ : Type} {f : α → β → γ} {p : γ → Bool} (same : ∀ k v, p (f k v) = q v) :
    count p (ExtTreeMap.map f m) = count q m := by
  unfold count
  rw [values_eq, values_eq, ExtTreeMap.toList_map, List.filter_map, List.filter_map, List.filter_map,
    List.length_map, List.length_map, List.length_map]
  congr 1
  apply List.filter_congr
  rintro ⟨k, v⟩ -
  exact same k v

/-- Where a value is found once at most, it counts for one. -/
theorem BTreeMap.count_le_succ (apart : ∀ a b : α, m[a]? = some v → m[b]? = some v → a = b)
    (imp : ∀ u, p u = true → q u = true ∨ u = v) : count p m ≤ count q m + 1 := by
  by_cases present : v ∈ ExtTreeMap.values m
  · obtain ⟨a, found⟩ := mem_values.mp present
    have others : count p (m.erase a) ≤ count q (m.erase a) := by
      refine count_mono fun u listed counted => (imp u counted).resolve_right ?_
      rintro rfl
      obtain ⟨b, still⟩ := mem_values.mp listed
      rw [find_erase] at still
      split at still
      · cases still
      · rename_i differs
        exact differs (apart a b found still)
    rw [count_of_find found]
    exact Nat.add_le_add (others.trans count_erase_le) (Bool.toNat_le _)
  · refine Nat.le_succ_of_le (count_mono fun u listed counted => (imp u counted).resolve_right ?_)
    rintro rfl
    exact present listed

end Counts

section Entries

variable {β γ : Type} {m : BTreeMap α β} {l : List (α × γ)} {f : γ → β} {v : β}

/-- Put entries into a map one after the other. -/
def BTreeMap.insertAll (m : BTreeMap α β) (f : γ → β) (l : List (α × γ)) : BTreeMap α β :=
  l.foldl (fun m (k, c) => m.insert k (f c)) m

theorem BTreeMap.mem_insertAll : a ∈ BTreeMap.insertAll m f l ↔ a ∈ m ∨ ∃ c, (a, c) ∈ l := by
  unfold insertAll
  induction l generalizing m with
  | nil => simp
  | cons e l ih =>
    rw [List.foldl_cons, ih, ExtTreeMap.mem_insert, LawfulEqCmp.compare_eq_iff_eq]
    simp only [List.mem_cons, exists_or, Prod.ext_iff, exists_and_left, exists_eq, and_true]
    rw [eq_comm (a := e.1), or_assoc, or_left_comm]

theorem BTreeMap.insertAll_eq_some (h : (BTreeMap.insertAll m f l)[a]? = some v) :
    (∃ c, (a, c) ∈ l ∧ v = f c) ∨ m[a]? = some v ∧ ∀ c, (a, c) ∉ l := by
  unfold insertAll at h
  induction l generalizing m with
  | nil => exact .inr ⟨h, by simp⟩
  | cons e l ih =>
    rw [List.foldl_cons] at h
    obtain ⟨c, hc, rfl⟩ | ⟨kept, absent⟩ := ih h
    · exact .inl ⟨c, by simp [hc], rfl⟩
    · rw [ExtTreeMap.getElem?_insert] at kept
      split at kept
      · rename_i same
        obtain rfl := LawfulEqCmp.compare_eq_iff_eq.mp same
        cases kept
        exact .inl ⟨e.2, by simp, rfl⟩
      · rename_i differs
        refine .inr ⟨kept, fun c hc => ?_⟩
        obtain rfl | hc := List.mem_cons.mp hc
        · exact differs ReflCmp.compare_self
        · exact absent c hc

theorem BTreeMap.find_insertAll_of_mem {c : γ} (distinct : (l.map Prod.fst).Nodup)
    (member : (a, c) ∈ l) : (BTreeMap.insertAll m f l)[a]? = some (f c) := by
  have inside : a ∈ BTreeMap.insertAll m f l := mem_insertAll.mpr (.inr ⟨c, member⟩)
  obtain ⟨v, found⟩ := Option.isSome_iff_exists.mp (ExtTreeMap.mem_iff_isSome_getElem?.mp inside)
  obtain ⟨c', listed, rfl⟩ | ⟨-, absent⟩ := insertAll_eq_some found
  · have same := List.inj_on_of_nodup_map distinct listed member rfl
    cases same
    exact found
  · exact (absent c member).elim

theorem BTreeMap.getElem?_insertAll_of_forall_not_mem (absent : ∀ c, (a, c) ∉ l) :
    (BTreeMap.insertAll m f l)[a]? = m[a]? := by
  cases h : (BTreeMap.insertAll m f l)[a]? with
  | some v =>
    obtain ⟨c, hc, -⟩ | ⟨kept, -⟩ := insertAll_eq_some h
    · exact (absent c hc).elim
    · exact kept.symm
  | none =>
    have missing : a ∉ BTreeMap.insertAll m f l := by
      rw [ExtTreeMap.mem_iff_isSome_getElem?, h]
      exact Bool.false_ne_true
    rw [mem_insertAll, not_or, ExtTreeMap.mem_iff_isSome_getElem?, Option.not_isSome_iff_eq_none]
      at missing
    exact missing.1.symm

/-- The entries of a map make up the map. -/
theorem BTreeMap.insertAll_toList : BTreeMap.insertAll (β := β) (γ := β) ∅ id m.toList = m := by
  apply ExtTreeMap.ext_getElem?
  intro a
  cases found : m[a]? with
  | some v =>
    apply find_insertAll_of_mem
    · rw [ExtTreeMap.map_fst_toList_eq_keys]
      exact nodup_keys
    · exact ExtTreeMap.mem_toList_iff_getElem?_eq_some.mpr found
  | none =>
    rw [getElem?_insertAll_of_forall_not_mem, ExtTreeMap.getElem?_empty]
    intro v listed
    rw [ExtTreeMap.mem_toList_iff_getElem?_eq_some, found] at listed
    cases listed

/-- Change entries of a map one after the other, each with what the map has there. -/
def BTreeMap.updateAll (m : BTreeMap α β) (g : α → γ → Option β → β) (l : List (α × γ)) :
    BTreeMap α β := l.foldl (fun m (k, c) => m.insert k (g k c m[k]?)) m

variable {g : α → γ → Option β → β}

theorem BTreeMap.find_updateAll_of_not_mem (absent : ∀ c, (a, c) ∉ l) :
    (BTreeMap.updateAll m g l)[a]? = m[a]? := by
  unfold updateAll
  induction l generalizing m with
  | nil => rfl
  | cons e l ih =>
    rw [List.foldl_cons, ih fun c hc => absent c (List.mem_cons_of_mem e hc),
      ExtTreeMap.getElem?_insert, if_neg]
    rw [LawfulEqCmp.compare_eq_iff_eq]
    rintro rfl
    exact absent e.2 List.mem_cons_self

theorem BTreeMap.find_updateAll_of_mem {c : γ} (distinct : l.Pairwise fun d e => ¬compare d.1 e.1 = .eq)
    (member : (a, c) ∈ l) : (BTreeMap.updateAll m g l)[a]? = some (g a c m[a]?) := by
  unfold updateAll
  induction l generalizing m with
  | nil => cases member
  | cons e l ih =>
    rw [List.pairwise_cons] at distinct
    rw [List.foldl_cons]
    obtain rfl | later := List.mem_cons.mp member
    · have absent : ∀ c', (a, c') ∉ l := fun c' hc => distinct.1 _ hc ReflCmp.compare_self
      have kept := find_updateAll_of_not_mem (m := m.insert a (g a c m[a]?)) (g := g) absent
      unfold updateAll at kept
      rw [kept, ExtTreeMap.getElem?_insert_self]
    · rw [ih distinct.2 later, ExtTreeMap.getElem?_insert, if_neg (distinct.1 _ later)]

/-- What a map has at a key once another map was laid over it. -/
theorem BTreeMap.find_updateAll_toList {w : BTreeMap α γ} :
    (BTreeMap.updateAll m g w.toList)[a]? = w[a]?.elim m[a]? fun c => some (g a c m[a]?) := by
  cases here : w[a]? with
  | some c =>
    exact find_updateAll_of_mem ExtTreeMap.distinct_keys_toList
      (ExtTreeMap.mem_toList_iff_getElem?_eq_some.mpr here)
  | none =>
    refine find_updateAll_of_not_mem fun c member => ?_
    rw [ExtTreeMap.mem_toList_iff_getElem?_eq_some, here] at member
    cases member

/-- What a fold leaves at a key comes of the elements that go there, in their order. -/
theorem BTreeMap.find_foldl_merge [DecidableEq α] {key : γ → α} {join : γ → Option β → β}
    {l : List γ} :
    (l.foldl (fun m c => m.insert (key c) (join c m[key c]?)) m)[a]? =
      (l.filter (key · = a)).foldl (fun v c => some (join c v)) m[a]? := by
  induction l generalizing m with
  | nil => rfl
  | cons c l ih =>
    rw [List.foldl_cons, ih, find_insert]
    by_cases here : key c = a
    · rw [if_pos here, List.filter_cons_of_pos (by simpa using here), List.foldl_cons, here]
    · rw [if_neg here, List.filter_cons_of_neg (by simpa using here)]

/-- Updating distinct keys one after another updates each of them once. -/
theorem BTreeMap.find_foldl_update [DecidableEq α] {update : Option β → β} {keys : List α}
    (nodup : keys.Nodup) :
    (keys.foldl (fun m key => m.insert key (update m[key]?)) m)[a]? =
      if a ∈ keys then some (update m[a]?) else m[a]? := by
  induction keys generalizing m with
  | nil => rfl
  | cons key keys ih =>
    obtain ⟨fresh, rest⟩ := List.nodup_cons.mp nodup
    rw [List.foldl_cons, ih rest, find_insert]
    by_cases here : key = a
    · subst here
      rw [if_pos rfl, if_neg fresh, if_pos List.mem_cons_self]
    · have other : a ∈ key :: keys ↔ a ∈ keys :=
        List.mem_cons.trans (or_iff_right (Ne.symm here))
      rw [if_neg here]
      exact if_congr other.symm rfl rfl

/-- A map has at most one entry at a key. -/
theorem BTreeMap.filter_toList [DecidableEq α] {k : α} :
    m.toList.filter (fun e => e.1 = k) = (m[k]?.map fun v => (k, v)).toList := by
  have inside : ∀ e, e ∈ m.toList.filter (fun e => e.1 = k) ↔ m[k]? = some e.2 ∧ e.1 = k := by
    rintro ⟨k', v⟩
    rw [List.mem_filter, ExtTreeMap.mem_toList_iff_getElem?_eq_some, decide_eq_true_eq]
    constructor
    · rintro ⟨here, rfl⟩
      exact ⟨here, rfl⟩
    · rintro ⟨here, rfl⟩
      exact ⟨here, rfl⟩
  cases here : m[k]? with
  | none =>
    apply List.eq_nil_iff_forall_not_mem.mpr
    intro e member
    rw [inside, here] at member
    cases member.1
  | some v =>
    have apart : (m.toList.filter fun e => e.1 = k).Nodup := nodup_toList.filter _
    have same : m.toList.filter (fun e => e.1 = k) =
        List.replicate (m.toList.filter fun e => e.1 = k).length (k, v) := by
      refine List.eq_replicate_of_mem fun e member => ?_
      rw [inside, here, Option.some.injEq] at member
      exact Prod.ext member.2 member.1.symm
    have some : (k, v) ∈ m.toList.filter fun e => e.1 = k := (inside _).mpr ⟨here, rfl⟩
    rw [same] at apart some ⊢
    rw [List.nodup_replicate] at apart
    have filled := List.length_pos_of_mem some
    rw [List.length_replicate] at filled
    obtain one : (m.toList.filter fun e => e.1 = k).length = 1 := by omega
    rw [one]
    rfl

end Entries

end Fava.Lib
