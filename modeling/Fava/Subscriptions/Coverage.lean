import Fava.Subscriptions.Grouping

namespace Fava.Subscriptions

open Std Fava.Lib

section Axis

variable {α : Type} [Ord α] [TransOrd α] [LawfulEqOrd α] {a b c : Option (BTreeSet α)}

omit [LawfulEqOrd α] in
theorem constrained_eq_some {values : BTreeSet α} (h : constrained a = some values) :
    a = some values ∧ values.isEmpty = false := by
  simpa [constrained, Option.filter_eq_some_iff] using h

omit [TransOrd α] [LawfulEqOrd α] in
theorem constrained_some {values : BTreeSet α} (h : values.isEmpty = false) :
    constrained (some values) = some values := by
  simp [constrained, Option.filter, h]

theorem coversSet_iff : coversSet a b = true ↔ constrained a = none ∨
    ∃ wide narrow, constrained a = some wide ∧ constrained b = some narrow ∧
      ∀ x ∈ narrow, x ∈ wide := by
  unfold coversSet
  cases constrained a <;> cases constrained b <;> simp [BTreeSet.subset_iff]

theorem coversSet_refl : coversSet a a = true := by
  rw [coversSet_iff]
  cases h : constrained a with
  | none => exact .inl rfl
  | some values => exact .inr ⟨values, values, rfl, rfl, fun _ hx => hx⟩

theorem coversSet_trans (hab : coversSet a b = true) (hbc : coversSet b c = true) :
    coversSet a c = true := by
  rw [coversSet_iff] at hab hbc ⊢
  obtain ha | ⟨wide, middle, ha, hb, hsub⟩ := hab
  · exact .inl ha
  · obtain hb' | ⟨middle', narrow, hb', hc, hsub'⟩ := hbc
    · rw [hb] at hb'
      cases hb'
    · rw [hb, Option.some.injEq] at hb'
      subst hb'
      exact .inr ⟨wide, narrow, ha, hc, fun x hx => hsub x (hsub' x hx)⟩

/-- The union of two constrained axes covers both. -/
theorem coversSet_union {values : BTreeSet α} (h : unionConstrained a b = some values) :
    coversSet (some values) a = true ∧ coversSet (some values) b = true := by
  simp only [unionConstrained, Option.bind_eq_bind, Option.bind_eq_some_iff,
    Option.some.injEq] at h
  obtain ⟨left, ha, right, hb, rfl⟩ := h
  have filled : (left ∪ right).isEmpty = false := by
    rw [ExtTreeSet.isEmpty_union, (constrained_eq_some ha).2, Bool.false_and]
  have union := constrained_some filled
  constructor
  · exact coversSet_iff.mpr (.inr ⟨_, left, union, ha, fun x hx =>
      ExtTreeSet.mem_union_iff.mpr (.inl hx)⟩)
  · exact coversSet_iff.mpr (.inr ⟨_, right, union, hb, fun x hx =>
      ExtTreeSet.mem_union_iff.mpr (.inr hx)⟩)

end Axis

variable {a b c : Filter}

def sinceCovers (wide narrow : Option Nat) : Prop :=
  ∀ w, wide = some w → ∃ n, narrow = some n ∧ w ≤ n

def tillCovers (wide narrow : Option Nat) : Prop :=
  ∀ w, wide = some w → ∃ n, narrow = some n ∧ n ≤ w

def tagsCover (wide narrow : Filter) : Prop :=
  ∀ (name : SingleLetterTag) (values : BTreeSet String), wide.genericTags[name]? = some values →
    ∃ narrowed : BTreeSet String, narrow.genericTags[name]? = some narrowed ∧
      ∀ x ∈ narrowed, x ∈ values

theorem coversWindow_iff :
    coversWindow a b = true ↔ sinceCovers a.since b.since ∧ tillCovers a.till b.till := by
  unfold coversWindow sinceCovers tillCovers
  cases a.since <;> cases b.since <;> cases a.till <;> cases b.till <;> simp

theorem coversTags_iff : coversTags a b = true ↔ tagsCover a b := by
  unfold coversTags tagsCover
  rw [List.all_eq_true]
  constructor
  · intro h name values hv
    have covered := h (name, values) (ExtTreeMap.mem_toList_iff_getElem?_eq_some.mpr hv)
    cases hn : b.genericTags[name]? with
    | none => simp [hn] at covered
    | some narrowed =>
      simp only [hn, BTreeSet.subset_iff] at covered
      exact ⟨narrowed, rfl, covered⟩
  · rintro h ⟨name, values⟩ member
    obtain ⟨narrowed, hn, hsub⟩ :=
      h name values (ExtTreeMap.mem_toList_iff_getElem?_eq_some.mp member)
    simp only [hn, BTreeSet.subset_iff]
    exact hsub

/-- Covering axis by axis, between two filters that bound no result count. -/
structure Covers (wide narrow : Filter) : Prop where
  wideLimit : wide.limit = none
  narrowLimit : narrow.limit = none
  search : wide.search = narrow.search
  ids : coversSet wide.ids narrow.ids = true
  authors : coversSet wide.authors narrow.authors = true
  kinds : coversSet wide.kinds narrow.kinds = true
  since : sinceCovers wide.since narrow.since
  till : tillCovers wide.till narrow.till
  tags : tagsCover wide narrow

theorem filterCovers_iff : filterCovers a b = true ↔ a = b ∨ Covers a b := by
  unfold filterCovers
  by_cases same : a = b
  · simp [same]
  · by_cases limited : a.limit.isSome || b.limit.isSome
    · have uncovered : ¬ Covers a b := fun h => by simp [h.wideLimit, h.narrowLimit] at limited
      simp [same, limited, uncovered]
    · by_cases searched : a.search = b.search
      · simp only [Bool.or_eq_true, not_or, Bool.not_eq_true, Option.isSome_eq_false_iff,
          Option.isNone_iff_eq_none] at limited
        simp only [same, limited, searched, if_false, Option.isSome_none, Bool.or_self,
          Bool.false_eq_true, ne_eq, not_true, Bool.and_eq_true, coversWindow_iff, coversTags_iff,
          false_or]
        constructor
        · rintro ⟨⟨⟨⟨ids, authors⟩, kinds⟩, since, till⟩, tags⟩
          exact ⟨limited.1, limited.2, searched, ids, authors, kinds, since, till, tags⟩
        · intro h
          exact ⟨⟨⟨⟨h.ids, h.authors⟩, h.kinds⟩, h.since, h.till⟩, h.tags⟩
      · have uncovered : ¬ Covers a b := fun h => searched h.search
        simp [same, limited, searched, uncovered]

theorem Covers.trans (hab : Covers a b) (hbc : Covers b c) : Covers a c where
  wideLimit := hab.wideLimit
  narrowLimit := hbc.narrowLimit
  search := hab.search.trans hbc.search
  ids := coversSet_trans hab.ids hbc.ids
  authors := coversSet_trans hab.authors hbc.authors
  kinds := coversSet_trans hab.kinds hbc.kinds
  since := by
    intro w hw
    obtain ⟨m, hm, hwm⟩ := hab.since w hw
    obtain ⟨n, hn, hmn⟩ := hbc.since m hm
    exact ⟨n, hn, hwm.trans hmn⟩
  till := by
    intro w hw
    obtain ⟨m, hm, hmw⟩ := hab.till w hw
    obtain ⟨n, hn, hnm⟩ := hbc.till m hm
    exact ⟨n, hn, hnm.trans hmw⟩
  tags := by
    intro name values hv
    obtain ⟨middle, hm, hsub⟩ := hab.tags name values hv
    obtain ⟨narrowed, hn, hsub'⟩ := hbc.tags name middle hm
    exact ⟨narrowed, hn, fun x hx => hsub x (hsub' x hx)⟩

theorem filterCovers_refl : filterCovers a a = true := filterCovers_iff.mpr (.inl rfl)

theorem filterCovers_trans (hab : filterCovers a b = true) (hbc : filterCovers b c = true) :
    filterCovers a c = true := by
  rw [filterCovers_iff] at hab hbc ⊢
  obtain rfl | hab := hab
  · exact hbc
  · obtain rfl | hbc := hbc
    · exact .inr hab
    · exact .inr (hab.trans hbc)

theorem sinceCovers_refl {t : Option Nat} : sinceCovers t t := fun w hw => ⟨w, hw, Nat.le_refl w⟩

theorem tillCovers_refl {t : Option Nat} : tillCovers t t := fun w hw => ⟨w, hw, Nat.le_refl w⟩

theorem tagsCover_refl : tagsCover a a := fun _ values hv => ⟨values, hv, fun _ hx => hx⟩

theorem mem_differingTags {name : SingleLetterTag} : name ∈ differingTags a b ↔
    ∃ values, a.genericTags[name]? = some values ∧ b.genericTags[name]? ≠ some values := by
  simp [differingTags, ExtTreeMap.mem_toList_iff_getElem?_eq_some]

theorem tagsCover_of_agree (agree : differingTags a b = []) : tagsCover a b := by
  intro name values hv
  by_cases same : b.genericTags[name]? = some values
  · exact ⟨values, same, fun _ hx => hx⟩
  · have differs : name ∈ differingTags a b := mem_differingTags.mpr ⟨values, hv, same⟩
    rw [agree] at differs
    cases differs

/-- Two filters without a limit that agree on everything outside the set axes. -/
structure Comparable (left right : Filter) : Prop where
  leftLimit : left.limit = none
  rightLimit : right.limit = none
  search : left.search = right.search
  since : left.since = right.since
  till : left.till = right.till

theorem unionIds_covers {merged : Filter} (alike : Comparable a b) (authors : a.authors = b.authors)
    (kinds : a.kinds = b.kinds) (tags : differingTags a b = [])
    (h : unionIds a b = some merged) : Covers merged a ∧ Covers merged b := by
  simp only [unionIds, Option.map_eq_some_iff] at h
  obtain ⟨values, union, rfl⟩ := h
  obtain ⟨left, right⟩ := coversSet_union union
  refine ⟨⟨alike.leftLimit, alike.leftLimit, rfl, left, coversSet_refl, coversSet_refl,
    sinceCovers_refl, tillCovers_refl, tagsCover_refl⟩, ⟨alike.leftLimit, alike.rightLimit,
    alike.search, right, ?_, ?_, ?_, ?_, tagsCover_of_agree tags⟩⟩
  · simp only [authors, coversSet_refl]
  · simp only [kinds, coversSet_refl]
  · simp only [alike.since, sinceCovers_refl]
  · simp only [alike.till, tillCovers_refl]

theorem unionAuthors_covers {merged : Filter} (alike : Comparable a b) (ids : a.ids = b.ids)
    (kinds : a.kinds = b.kinds) (tags : differingTags a b = [])
    (h : unionAuthors a b = some merged) : Covers merged a ∧ Covers merged b := by
  simp only [unionAuthors, Option.map_eq_some_iff] at h
  obtain ⟨values, union, rfl⟩ := h
  obtain ⟨left, right⟩ := coversSet_union union
  refine ⟨⟨alike.leftLimit, alike.leftLimit, rfl, coversSet_refl, left, coversSet_refl,
    sinceCovers_refl, tillCovers_refl, tagsCover_refl⟩, ⟨alike.leftLimit, alike.rightLimit,
    alike.search, ?_, right, ?_, ?_, ?_, tagsCover_of_agree tags⟩⟩
  · simp only [ids, coversSet_refl]
  · simp only [kinds, coversSet_refl]
  · simp only [alike.since, sinceCovers_refl]
  · simp only [alike.till, tillCovers_refl]

theorem unionKinds_covers {merged : Filter} (alike : Comparable a b) (ids : a.ids = b.ids)
    (authors : a.authors = b.authors) (tags : differingTags a b = [])
    (h : unionKinds a b = some merged) : Covers merged a ∧ Covers merged b := by
  simp only [unionKinds, Option.map_eq_some_iff] at h
  obtain ⟨values, union, rfl⟩ := h
  obtain ⟨left, right⟩ := coversSet_union union
  refine ⟨⟨alike.leftLimit, alike.leftLimit, rfl, coversSet_refl, coversSet_refl, left,
    sinceCovers_refl, tillCovers_refl, tagsCover_refl⟩, ⟨alike.leftLimit, alike.rightLimit,
    alike.search, ?_, ?_, right, ?_, ?_, tagsCover_of_agree tags⟩⟩
  · simp only [ids, coversSet_refl]
  · simp only [authors, coversSet_refl]
  · simp only [alike.since, sinceCovers_refl]
  · simp only [alike.till, tillCovers_refl]

theorem unionTag_covers {merged : Filter} {name : SingleLetterTag} (alike : Comparable a b)
    (ids : a.ids = b.ids) (authors : a.authors = b.authors) (kinds : a.kinds = b.kinds)
    (tags : differingTags a b = [name]) (h : unionTag a b name = some merged) :
    Covers merged a ∧ Covers merged b := by
  simp only [unionTag, Option.bind_eq_bind, Option.bind_eq_some_iff, Option.some.injEq] at h
  obtain ⟨left, ha, right, hb, rfl⟩ := h
  have others : ∀ other values, other ≠ name → a.genericTags[other]? = some values →
      b.genericTags[other]? = some values := by
    intro other values distinct hv
    by_contra differs
    have listed : other ∈ differingTags a b := mem_differingTags.mpr ⟨values, hv, differs⟩
    rw [tags] at listed
    exact distinct (List.mem_singleton.mp listed)
  refine ⟨⟨alike.leftLimit, alike.leftLimit, rfl, coversSet_refl, coversSet_refl, coversSet_refl,
    sinceCovers_refl, tillCovers_refl, ?_⟩, ⟨alike.leftLimit, alike.rightLimit, alike.search,
    ?_, ?_, ?_, ?_, ?_, ?_⟩⟩
  · intro other values hv
    simp only [ExtTreeMap.getElem?_insert, LawfulEqCmp.compare_eq_iff_eq] at hv
    split at hv
    · rename_i same
      subst same
      cases hv
      exact ⟨left, ha, fun x hx => ExtTreeSet.mem_union_iff.mpr (.inl hx)⟩
    · exact ⟨values, hv, fun _ hx => hx⟩
  · simp only [ids, coversSet_refl]
  · simp only [authors, coversSet_refl]
  · simp only [kinds, coversSet_refl]
  · simp only [alike.since, sinceCovers_refl]
  · simp only [alike.till, tillCovers_refl]
  · intro other values hv
    simp only [ExtTreeMap.getElem?_insert, LawfulEqCmp.compare_eq_iff_eq] at hv
    split at hv
    · rename_i same
      subst same
      cases hv
      exact ⟨right, hb, fun x hx => ExtTreeSet.mem_union_iff.mpr (.inr hx)⟩
    · rename_i distinct
      exact ⟨values, others other values (Ne.symm distinct) hv, fun _ hx => hx⟩

/-- What merges agrees everywhere but on the one axis that is united. -/
theorem merge_cases {merged : Filter} (h : mergeOnSoleDifferingAxis a b = some merged) :
    Comparable a b ∧ a.genericTags.keys = b.genericTags.keys ∧
      ((a.authors = b.authors ∧ a.kinds = b.kinds ∧ differingTags a b = [] ∧
          unionIds a b = some merged) ∨
        (a.ids = b.ids ∧ a.kinds = b.kinds ∧ differingTags a b = [] ∧
          unionAuthors a b = some merged) ∨
        (a.ids = b.ids ∧ a.authors = b.authors ∧ differingTags a b = [] ∧
          unionKinds a b = some merged) ∨
        ∃ name, a.ids = b.ids ∧ a.authors = b.authors ∧ a.kinds = b.kinds ∧
          differingTags a b = [name] ∧ unionTag a b name = some merged) := by
  unfold mergeOnSoleDifferingAxis at h
  simp only [Option.ite_none_left_eq_some] at h
  obtain ⟨limits, rest, keys, sole, h⟩ := h
  simp only [Bool.or_eq_true, not_or, Bool.not_eq_true, Option.isSome_eq_false_iff,
    Option.isNone_iff_eq_none] at limits
  push Not at rest keys sole
  refine ⟨⟨limits.1, limits.2, rest.1, rest.2.1, rest.2.2⟩, keys, ?_⟩
  unfold differingAxes at sole
  by_cases ids : a.ids = b.ids
  · by_cases authors : a.authors = b.authors
    · by_cases kinds : a.kinds = b.kinds
      · simp only [ids, authors, kinds, if_true, Nat.zero_add, ne_eq, not_true, if_false] at sole h
        obtain ⟨name, tags⟩ := List.length_eq_one_iff.mp sole
        rw [tags, List.head?_cons, Option.bind_some] at h
        exact .inr (.inr (.inr ⟨name, ids, authors, kinds, tags, h⟩))
      · simp only [ids, authors, kinds, if_true, Nat.zero_add, ne_eq, not_true, not_false_eq_true,
          if_false] at sole h
        have tags : differingTags a b = [] := List.eq_nil_of_length_eq_zero (by omega)
        exact .inr (.inr (.inl ⟨ids, authors, tags, h⟩))
    · simp only [ids, authors, if_true, Nat.zero_add, ne_eq, not_true, not_false_eq_true,
        if_false] at sole h
      have tags : differingTags a b = [] := List.eq_nil_of_length_eq_zero (by omega)
      have kinds : a.kinds = b.kinds := by
        by_contra differ
        simp [differ, tags] at sole
      exact .inr (.inl ⟨ids, kinds, tags, h⟩)
  · simp only [ids, ne_eq, not_false_eq_true, if_true, if_false] at sole h
    have tags : differingTags a b = [] := List.eq_nil_of_length_eq_zero (by omega)
    have authors : a.authors = b.authors := by
      by_contra differ
      simp only [differ, if_false] at sole
      omega
    have kinds : a.kinds = b.kinds := by
      by_contra differ
      simp only [differ, if_false] at sole
      omega
    exact .inl ⟨authors, kinds, tags, h⟩

/-- A merge never narrows: its result covers both filters it was made from. -/
theorem merge_covers {merged : Filter} (h : mergeOnSoleDifferingAxis a b = some merged) :
    Covers merged a ∧ Covers merged b := by
  obtain ⟨alike, -, united⟩ := merge_cases h
  obtain ⟨authors, kinds, tags, h⟩ | ⟨ids, kinds, tags, h⟩ | ⟨ids, authors, tags, h⟩ |
    ⟨name, ids, authors, kinds, tags, h⟩ := united
  · exact unionIds_covers alike authors kinds tags h
  · exact unionAuthors_covers alike ids kinds tags h
  · exact unionKinds_covers alike ids authors tags h
  · exact unionTag_covers alike ids authors kinds tags h

theorem genericTags_agree {name : SingleLetterTag}
    (keys : a.genericTags.keys = b.genericTags.keys) (agrees : name ∉ differingTags a b) :
    a.genericTags[name]? = b.genericTags[name]? := by
  cases ha : a.genericTags[name]? with
  | some values =>
    by_contra differs
    exact agrees (mem_differingTags.mpr ⟨values, ha, Ne.symm differs⟩)
  | none =>
    have absent : name ∉ b.genericTags.keys := by
      rw [← keys, ExtTreeMap.mem_keys, ExtTreeMap.mem_iff_isSome_getElem?, ha]
      exact Bool.false_ne_true
    rw [ExtTreeMap.mem_keys, ExtTreeMap.mem_iff_isSome_getElem?,
      Option.not_isSome_iff_eq_none] at absent
    exact absent.symm

end Fava.Subscriptions
