import Fava.Subscriptions.Coverage

namespace Fava.Subscriptions

open Std Fava.Lib Fava.Nostr

/-- The letter a tag of this name is indexed by. -/
def singleLetterTag (name : String) : Option SingleLetterTag :=
  match name.toList with
  | [letter] =>
    if 'a' ≤ letter ∧ letter ≤ 'z' then some (2 * (letter.toNat - 'a'.toNat))
    else if 'A' ≤ letter ∧ letter ≤ 'Z' then some (2 * (letter.toNat - 'A'.toNat) + 1)
    else none
  | _ => none

/-- The values an event is indexed by under one tag name. -/
def tagValues (event : Event) (name : SingleLetterTag) : List String :=
  event.tags.filterMap fun tag =>
    match tag with
    | letter :: value :: _ => if singleLetterTag letter = some name then some value else none
    | _ => none

def axisMatches {α : Type} [Ord α] [TransOrd α] (axis : Option (BTreeSet α)) (value : α) : Bool :=
  axis.all fun values => values.isEmpty || values.contains value

def tagMatches (f : Filter) (event : Event) : Bool :=
  f.genericTags.toList.all fun (name, values) => (tagValues event name).any values.contains

/-- Whether an event is one a filter asks for. A result count is no part of it, and what
a search term finds is for the parameter to say. -/
def matchEvent (search : String → Event → Bool) (f : Filter) (event : Event) : Bool :=
  axisMatches f.ids event.id && axisMatches f.authors event.pubkey &&
    axisMatches f.kinds event.kind && f.since.all (· ≤ event.createdAt) &&
    f.till.all (event.createdAt ≤ ·) && tagMatches f event && f.search.all (search · event)

variable {search : String → Event → Bool} {event : Event} {f a b merged : Filter}

section Axis

variable {α : Type} [Ord α] [TransOrd α] [LawfulEqOrd α] {wide narrow : Option (BTreeSet α)}
  {value : α}

omit [LawfulEqOrd α] in
theorem axisMatches_iff : axisMatches narrow value = true ↔
    ∀ values, constrained narrow = some values → value ∈ values := by
  cases narrow with
  | none => simp [axisMatches, constrained]
  | some values =>
    by_cases empty : values.isEmpty = true
    · simp [axisMatches, constrained, Option.filter, empty]
    · simp [axisMatches, constrained, Option.filter, empty, ExtTreeSet.contains_iff_mem]

theorem axisMatches_of_covers (covers : coversSet wide narrow = true)
    (here : axisMatches narrow value = true) : axisMatches wide value = true := by
  rw [axisMatches_iff] at here ⊢
  intro values found
  obtain free | ⟨values', narrowed, wider, narrower, sub⟩ := coversSet_iff.mp covers
  · rw [free] at found
    cases found
  · rw [wider, Option.some.injEq] at found
    rw [← found]
    exact sub value (here narrowed narrower)

omit [LawfulEqOrd α] in
/-- A value of a union is a value of one of its operands. -/
theorem axisMatches_union {left right : Option (BTreeSet α)} {values : BTreeSet α}
    (union : unionConstrained left right = some values)
    (here : axisMatches (some values) value = true) :
    axisMatches left value = true ∨ axisMatches right value = true := by
  simp only [unionConstrained, Option.bind_eq_bind, Option.bind_eq_some_iff,
    Option.some.injEq] at union
  obtain ⟨lefts, hl, rights, hr, rfl⟩ := union
  have filled : (lefts ∪ rights).isEmpty = false := by
    rw [ExtTreeSet.isEmpty_union, (constrained_eq_some hl).2, Bool.false_and]
  have among := axisMatches_iff.mp here _ (constrained_some filled)
  obtain among | among := ExtTreeSet.mem_union_iff.mp among
  · refine .inl (axisMatches_iff.mpr fun found same => ?_)
    rw [hl, Option.some.injEq] at same
    rwa [← same]
  · refine .inr (axisMatches_iff.mpr fun found same => ?_)
    rw [hr, Option.some.injEq] at same
    rwa [← same]

end Axis

/-- A filter asks for an event axis by axis. -/
structure Matches (search : String → Event → Bool) (f : Filter) (event : Event) : Prop where
  ids : axisMatches f.ids event.id = true
  authors : axisMatches f.authors event.pubkey = true
  kinds : axisMatches f.kinds event.kind = true
  since : ∀ s, f.since = some s → s ≤ event.createdAt
  till : ∀ t, f.till = some t → event.createdAt ≤ t
  tags : ∀ (name : SingleLetterTag) (values : BTreeSet String), f.genericTags[name]? = some values →
    ∃ value ∈ tagValues event name, value ∈ values
  searched : ∀ term, f.search = some term → search term event = true

theorem matchEvent_iff : matchEvent search f event = true ↔ Matches search f event := by
  have tagged : tagMatches f event = true ↔ ∀ (name : SingleLetterTag) (values : BTreeSet String),
      f.genericTags[name]? = some values → ∃ value ∈ tagValues event name, value ∈ values := by
    simp only [tagMatches, List.all_eq_true, List.any_eq_true, ExtTreeSet.contains_iff_mem,
      Prod.forall, ExtTreeMap.mem_toList_iff_getElem?_eq_some]
  simp only [matchEvent, Bool.and_eq_true, tagged, Option.all_eq_true_iff_get, decide_eq_true_eq]
  constructor
  · rintro ⟨⟨⟨⟨⟨⟨ids, authors⟩, kinds⟩, since⟩, till⟩, tags⟩, searched⟩
    exact ⟨ids, authors, kinds, fun s hs => by simpa [hs] using since,
      fun t ht => by simpa [ht] using till, tags, fun u hu => by simpa [hu] using searched⟩
  · rintro ⟨ids, authors, kinds, since, till, tags, searched⟩
    refine ⟨⟨⟨⟨⟨⟨ids, authors⟩, kinds⟩, ?_⟩, ?_⟩, tags⟩, ?_⟩
    · intro h
      exact since _ (Option.some_get h).symm
    · intro h
      exact till _ (Option.some_get h).symm
    · intro h
      exact searched _ (Option.some_get h).symm

/-- A covering filter asks for all the covered one does. -/
theorem matchEvent_of_covers (covers : filterCovers a b = true)
    (here : matchEvent search b event = true) : matchEvent search a event = true := by
  obtain rfl | covers := filterCovers_iff.mp covers
  · exact here
  · rw [matchEvent_iff] at here ⊢
    refine ⟨axisMatches_of_covers covers.ids here.ids,
      axisMatches_of_covers covers.authors here.authors,
      axisMatches_of_covers covers.kinds here.kinds, ?_, ?_, ?_, ?_⟩
    · intro s hs
      obtain ⟨n, hn, le⟩ := covers.since s hs
      exact le.trans (here.since n hn)
    · intro t ht
      obtain ⟨n, hn, le⟩ := covers.till t ht
      exact (here.till n hn).trans le
    · intro name values found
      obtain ⟨narrowed, hn, sub⟩ := covers.tags name values found
      obtain ⟨value, among, wanted⟩ := here.tags name narrowed hn
      exact ⟨value, among, sub value wanted⟩
    · intro term found
      exact here.searched term (covers.search ▸ found)

/-- The algebra of coverage: a preorder, and along it a filter asks for no fewer
events. The empty set on an axis asks for all of it, under a tag name for nothing. -/
theorem filterCovers_laws (search : String → Event → Bool) :
    (∀ f : Filter, filterCovers f f = true) ∧
      (∀ a b c : Filter, filterCovers a b = true → filterCovers b c = true →
        filterCovers a c = true) ∧
      ∀ wide narrow : Filter, filterCovers wide narrow = true → ∀ event : Event,
        matchEvent search narrow event = true → matchEvent search wide event = true :=
  ⟨fun _ => filterCovers_refl, fun _ _ _ => filterCovers_trans,
    fun _ _ covers _ => matchEvent_of_covers covers⟩

/-- Notes of one author among notes and reposts of two, tagged with one of two words. -/
theorem filterCovers_laws_of_author :
    matchEvent (fun _ _ => false)
      { Filter.new with
        authors := some (ExtTreeSet.ofList [7, 9])
        kinds := some (ExtTreeSet.ofList [1, 6])
        genericTags := ExtTreeMap.ofList [(38, ExtTreeSet.ofList ["nostr", "rust"])] }
      ⟨1, 7, 10, 1, [["t", "nostr"]], "", 0⟩ = true := by
  refine (filterCovers_laws _).2.2 _ { Filter.new with
    authors := some (ExtTreeSet.ofList [7])
    kinds := some (ExtTreeSet.ofList [1])
    since := some 5
    genericTags := ExtTreeMap.ofList [(38, ExtTreeSet.ofList ["nostr"])] } ?_ _ ?_
  · decide +kernel
  · decide +kernel

/-- Matching with one axis exchanged. -/
theorem Matches.congr (here : Matches search a event) (ids : axisMatches b.ids event.id = true)
    (authors : axisMatches b.authors event.pubkey = true)
    (kinds : axisMatches b.kinds event.kind = true) (since : a.since = b.since)
    (till : a.till = b.till) (searched : a.search = b.search)
    (tags : ∀ (name : SingleLetterTag) (values : BTreeSet String),
      b.genericTags[name]? = some values → ∃ value ∈ tagValues event name, value ∈ values) :
    Matches search b event :=
  ⟨ids, authors, kinds, fun s hs => here.since s (since.trans hs),
    fun t ht => here.till t (till.trans ht), tags, fun u hu => here.searched u (searched.trans hu)⟩

/-- A merge never widens: what it asks for, one of the two filters it was made from did. -/
theorem matches_of_merge (h : mergeOnSoleDifferingAxis a b = some merged)
    (here : Matches search merged event) : Matches search a event ∨ Matches search b event := by
  obtain ⟨alike, keys, united⟩ := merge_cases h
  obtain ⟨authors, kinds, tags, h⟩ | ⟨ids, kinds, tags, h⟩ | ⟨ids, authors, tags, h⟩ |
    ⟨name, ids, authors, kinds, tags, h⟩ := united
  · simp only [unionIds, Option.map_eq_some_iff] at h
    obtain ⟨values, union, rfl⟩ := h
    have same : ∀ other : SingleLetterTag, a.genericTags[other]? = b.genericTags[other]? :=
      fun other => genericTags_agree keys (by simp [tags])
    obtain left | right := axisMatches_union union here.ids
    · exact .inl (here.congr left here.authors here.kinds rfl rfl rfl here.tags)
    · exact .inr (here.congr right (authors ▸ here.authors) (kinds ▸ here.kinds) alike.since
        alike.till alike.search fun n vs hv => here.tags n vs ((same n).trans hv))
  · simp only [unionAuthors, Option.map_eq_some_iff] at h
    obtain ⟨values, union, rfl⟩ := h
    have same : ∀ other : SingleLetterTag, a.genericTags[other]? = b.genericTags[other]? :=
      fun other => genericTags_agree keys (by simp [tags])
    obtain left | right := axisMatches_union union here.authors
    · exact .inl (here.congr here.ids left here.kinds rfl rfl rfl here.tags)
    · exact .inr (here.congr (ids ▸ here.ids) right (kinds ▸ here.kinds) alike.since
        alike.till alike.search fun n vs hv => here.tags n vs ((same n).trans hv))
  · simp only [unionKinds, Option.map_eq_some_iff] at h
    obtain ⟨values, union, rfl⟩ := h
    have same : ∀ other : SingleLetterTag, a.genericTags[other]? = b.genericTags[other]? :=
      fun other => genericTags_agree keys (by simp [tags])
    obtain left | right := axisMatches_union union here.kinds
    · exact .inl (here.congr here.ids here.authors left rfl rfl rfl here.tags)
    · exact .inr (here.congr (ids ▸ here.ids) (authors ▸ here.authors) right alike.since
        alike.till alike.search fun n vs hv => here.tags n vs ((same n).trans hv))
  · simp only [unionTag, Option.bind_eq_bind, Option.bind_eq_some_iff, Option.some.injEq] at h
    obtain ⟨left, ha, right, hb, rfl⟩ := h
    have others : ∀ other values, other ≠ name → a.genericTags[other]? = some values →
        ∃ value ∈ tagValues event other, value ∈ values := by
      intro other values distinct hv
      refine here.tags other values ?_
      rwa [BTreeMap.find_insert, if_neg (Ne.symm distinct)]
    -- The value that meets the union meets the operand it comes from.
    obtain ⟨value, among, wanted⟩ := here.tags name (left ∪ right) (by
      rw [BTreeMap.find_insert, if_pos rfl])
    obtain wanted | wanted := ExtTreeSet.mem_union_iff.mp wanted
    · refine .inl (here.congr here.ids here.authors here.kinds rfl rfl rfl fun n vs hv => ?_)
      by_cases sole : n = name
      · subst sole
        rw [ha, Option.some.injEq] at hv
        exact ⟨value, among, hv ▸ wanted⟩
      · exact others n vs sole hv
    · refine .inr (here.congr (ids ▸ here.ids) (authors ▸ here.authors) (kinds ▸ here.kinds)
        alike.since alike.till alike.search fun n vs hv => ?_)
      by_cases sole : n = name
      · subst sole
        rw [hb, Option.some.injEq] at hv
        exact ⟨value, among, hv ▸ wanted⟩
      · refine others n vs sole ?_
        rw [genericTags_agree keys (by simp [tags, sole]), hv]

/-- A merge asks for what one of the two filters it was made from asks for. -/
theorem matchEvent_merge (h : mergeOnSoleDifferingAxis a b = some merged) :
    matchEvent search merged event = true ↔
      matchEvent search a event = true ∨ matchEvent search b event = true := by
  obtain ⟨left, right⟩ := merge_covers h
  constructor
  · intro here
    simpa only [matchEvent_iff] using matches_of_merge h (matchEvent_iff.mp here)
  · rintro (here | here)
    · exact matchEvent_of_covers (filterCovers_iff.mpr (.inr left)) here
    · exact matchEvent_of_covers (filterCovers_iff.mpr (.inr right)) here

end Fava.Subscriptions
