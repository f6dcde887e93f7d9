import Fava.Queries.Standard
import Fava.Subscriptions.Plan

namespace Fava.Queries

open Std Fava.Lib Fava.Nostr Fava.Relay Fava.State Fava.Subscriptions Fava.Write

/-- Whether a query may create relay demand, and for how many seconds it reuses a
proven completion. -/
inductive Freshness
  | cacheOnly
  | maxAge (age : Nat)
  | live
deriving DecidableEq

/-- An axis held to what is supplied: a set that is there keeps what it shares. -/
def retainOnly {α : Type} [Ord α] [TransOrd α] (supplied : BTreeSet α) :
    Option (BTreeSet α) → BTreeSet α
  | some existing => existing.filter supplied.contains
  | none => supplied

variable (N : Library)

namespace Query

/-- Resolve every current-account dependency. -/
def bindCurrentAccount (query : Query) (current : Option PublicKey) : Query :=
  let selection := query.selection
  { query with selection :=
    { selection with
      authors :=
        if selection.authorsCurrentAccount then
          some (retainOnly (ExtTreeSet.ofList current.toList) selection.authors)
        else selection.authors
      authorsCurrentAccount := false
      tagValues := selection.tagValuesCurrentAccount.toList.foldl (fun tagValues key =>
        tagValues.insert key
          (retainOnly (ExtTreeSet.ofList (current.toList.map N.keyToHex)) tagValues[key]?))
        selection.tagValues
      tagValuesCurrentAccount := ∅ } }

end Query

def CurrentAccount.bind (query : Query) (freshness : Freshness) (current : Option PublicKey) :
    Query × Freshness :=
  let bound := query.bindCurrentAccount N current
  if bound.matchesNothing then (bound, .cacheOnly) else (bound, freshness)

/-- Narrow a result bound into the wire's 32-bit limit space. -/
def narrowLimit (limit : Nat) : Nat := min limit (2 ^ 32 - 1)

/-- The relay demand of one observation branch. -/
def demandForQuery (owner : ObservationId) (branch : Nat) (query : Query) : RelayDemand where
  owner := owner
  branch := branch
  filter := { Filter.new with
    ids := query.selection.ids
    authors := query.selection.authors
    kinds := query.selection.kinds
    genericTags := query.selection.tagValues
    limit := query.limit }
  bounds := ⟨none, none, query.limit.map narrowLimit⟩

/-- Whether opening a query creates relay demand. -/
def isLive (opened : Query × Freshness) : Bool :=
  opened.2 ≠ .cacheOnly && !opened.1.matchesNothing

/-- An event that a live query asks relays for: one that matches nothing asks for none. -/
def requests (search : String → Event → Bool) (owner : ObservationId) (branch : Nat)
    (query : Query) (event : Event) : Bool :=
  !query.matchesNothing && matchEvent search (demandForQuery owner branch query).filter event

/-- An event that the evaluator lets into the result, before the newest are chosen. -/
def accepts (query : Query) (event : Event) : Bool :=
  !query.matchesNothing && matchesSelection query.selection event.id (.signed event)

/-- An event satisfies every literal axis: one value under each tag letter is enough. -/
structure Selects (selection : FilterSelection) (event : Event) : Prop where
  ids : ∀ ids, selection.ids = some ids → event.id ∈ ids
  authors : ∀ authors, selection.authors = some authors → event.pubkey ∈ authors
  kinds : ∀ kinds, selection.kinds = some kinds → event.kind ∈ kinds
  tags : ∀ (key : SingleLetterTag) (values : BTreeSet String), selection.tagValues[key]? = some values →
    ∃ value ∈ tagValues event key, value ∈ values

/-- An event equals the account on every axis that stands for it. -/
structure Equals (selection : FilterSelection) (account : Option PublicKey) (event : Event) : Prop where
  author : selection.authorsCurrentAccount = true → account = some event.pubkey
  tags : ∀ key ∈ selection.tagValuesCurrentAccount,
    ∃ current, account = some current ∧ N.keyToHex current ∈ tagValues event key

/-- The account is among the literal values of every letter that also stands for it. -/
def Shared (selection : FilterSelection) (account : Option PublicKey) : Prop :=
  ∀ key ∈ selection.tagValuesCurrentAccount, ∀ values : BTreeSet String,
    selection.tagValues[key]? = some values →
      ∃ current, account = some current ∧ N.keyToHex current ∈ values

variable {N} {search : String → Event → Bool} {owner : ObservationId} {branch : Nat} {query : Query}
  {selection : FilterSelection} {account : Option PublicKey} {event : Event} {freshness : Freshness}

section Axes

theorem mem_tagValues {key : SingleLetterTag} {value : String} : value ∈ tagValues event key ↔
    ∃ tag ∈ event.tags, tag.head?.bind singleLetterTag = some key ∧ tag[1]? = some value := by
  rw [tagValues, List.mem_filterMap]
  refine exists_congr fun tag => and_congr_right fun _ => ?_
  obtain - | ⟨letter, - | ⟨second, rest⟩⟩ := tag
  · simp
  · simp
  · simp [Option.ite_none_right_eq_some]

/-- The evaluator's tag axes: some value of the event is among those asked for. -/
theorem matchesTags_iff :
    (selection.tagValues.toList.all fun (key, values) => event.tags.any fun tag =>
      tag.head?.bind singleLetterTag = some key && tag[1]?.any values.contains) = true ↔
    ∀ (key : SingleLetterTag) (values : BTreeSet String), selection.tagValues[key]? = some values →
      ∃ value ∈ tagValues event key, value ∈ values := by
  rw [List.all_eq_true]
  simp only [Prod.forall, ExtTreeMap.mem_toList_iff_getElem?_eq_some, List.any_eq_true,
    Bool.and_eq_true, decide_eq_true_eq, Option.any_eq_true, ExtTreeSet.contains_iff_mem]
  refine forall_congr' fun key => forall_congr' fun values => imp_congr_right fun _ => ?_
  constructor
  · rintro ⟨tag, inside, letter, value, second, wanted⟩
    exact ⟨value, mem_tagValues.mpr ⟨tag, inside, letter, second⟩, wanted⟩
  · rintro ⟨value, listed, wanted⟩
    obtain ⟨tag, inside, letter, second⟩ := mem_tagValues.mp listed
    exact ⟨tag, inside, letter, value, second, wanted⟩

/-- The evaluator's selection, axis by axis. -/
theorem matchesSelection_iff :
    matchesSelection selection event.id (.signed event) = true ↔ Selects selection event := by
  unfold matchesSelection
  rw [Bool.and_eq_true, Bool.and_eq_true, Bool.and_eq_true]
  have axes : ∀ {α : Type} [Ord α] [TransOrd α] [LawfulEqOrd α] (axis : Option (BTreeSet α))
      (value : α), axis.all (·.contains value) = true ↔ ∀ values, axis = some values → value ∈ values := by
    intro α _ _ _ axis value
    cases axis <;> simp [ExtTreeSet.contains_iff_mem]
  rw [axes, axes, axes]
  constructor
  · rintro ⟨⟨⟨ids, authors⟩, kinds⟩, tags⟩
    exact ⟨ids, authors, kinds, matchesTags_iff.mp tags⟩
  · rintro ⟨ids, authors, kinds, tags⟩
    exact ⟨⟨⟨ids, authors⟩, kinds⟩, matchesTags_iff.mpr tags⟩

/-- What satisfies every axis leaves no axis empty. -/
theorem Selects.something (selects : Selects query.selection event) :
    query.matchesNothing = query.dependsOnCurrentAccount := by
  have filled : ∀ {α : Type} [Ord α] [TransOrd α] [LawfulEqOrd α] {axis : Option (BTreeSet α)}
      {value : α}, (∀ values, axis = some values → value ∈ values) → axis.any (·.isEmpty) = false := by
    intro α _ _ _ axis value within
    cases axis with
    | none => rfl
    | some values =>
      rw [Option.any_some, ← Bool.not_eq_true, BTreeSet.isEmpty_iff]
      exact fun empty => empty value (within values rfl)
  have tags : query.selection.tagValues.values.any (·.isEmpty) = false := by
    rw [List.any_eq_false]
    intro values listed
    obtain ⟨key, found⟩ := BTreeMap.mem_values.mp listed
    obtain ⟨value, -, wanted⟩ := selects.tags key values found
    rw [BTreeSet.isEmpty_iff]
    exact fun empty => empty value wanted
  rw [Query.matchesNothing, filled selects.ids, filled selects.authors, filled selects.kinds, tags]
  simp only [Bool.or_false]

/-- What relays are asked for, axis by axis: an empty axis would ask for all of it, and
is kept from being asked. -/
theorem requests_iff : requests search owner branch query event = true ↔
    query.dependsOnCurrentAccount = false ∧ Selects query.selection event := by
  have axis_iff : ∀ {α : Type} [Ord α] [TransOrd α] [LawfulEqOrd α] {axis : Option (BTreeSet α)}
      {value : α}, axis.any (·.isEmpty) = false →
      (axisMatches axis value = true ↔ ∀ values, axis = some values → value ∈ values) := by
    intro α _ _ _ axis value filled
    cases axis with
    | none => simp [axisMatches]
    | some values =>
      rw [Option.any_some] at filled
      simp [axisMatches, filled, ExtTreeSet.contains_iff_mem]
  rw [requests, Bool.and_eq_true, Bool.not_eq_true', matchEvent_iff]
  constructor
  · rintro ⟨something, here⟩
    simp only [Query.matchesNothing, Bool.or_eq_false_iff] at something
    obtain ⟨⟨⟨⟨bound, ids⟩, authors⟩, kinds⟩, -⟩ := something
    exact ⟨bound, (axis_iff ids).mp here.ids, (axis_iff authors).mp here.authors,
      (axis_iff kinds).mp here.kinds, here.tags⟩
  · rintro ⟨bound, selects⟩
    have something := selects.something.trans bound
    refine ⟨something, ?_⟩
    simp only [Query.matchesNothing, Bool.or_eq_false_iff] at something
    obtain ⟨⟨⟨⟨-, ids⟩, authors⟩, kinds⟩, -⟩ := something
    -- A demand bounds neither the time nor the text.
    exact ⟨(axis_iff ids).mpr selects.ids, (axis_iff authors).mpr selects.authors,
      (axis_iff kinds).mpr selects.kinds, (fun _ bounded => by cases bounded),
      (fun _ bounded => by cases bounded), selects.tags, (fun _ searched => by cases searched)⟩

theorem accepts_iff : accepts query event = true ↔
    query.dependsOnCurrentAccount = false ∧ Selects query.selection event := by
  rw [accepts, Bool.and_eq_true, Bool.not_eq_true', matchesSelection_iff]
  constructor
  · rintro ⟨something, selects⟩
    exact ⟨selects.something.symm.trans something, selects⟩
  · rintro ⟨bound, selects⟩
    exact ⟨selects.something.trans bound, selects⟩

end Axes

section Bound

theorem mem_retainOnly {α : Type} [Ord α] [TransOrd α] [LawfulEqOrd α] {supplied : BTreeSet α}
    {axis : Option (BTreeSet α)} {value : α} : value ∈ retainOnly supplied axis ↔
      value ∈ supplied ∧ ∀ values, axis = some values → value ∈ values := by
  cases axis with
  | none => simp [retainOnly]
  | some existing => simp [retainOnly, ExtTreeSet.mem_filter, and_comm]

theorem bound_dependsOnCurrentAccount :
    (query.bindCurrentAccount N account).dependsOnCurrentAccount = false := by
  simp [Query.bindCurrentAccount, Query.dependsOnCurrentAccount]

/-- Binding holds the letters that stand for the account to it, and no others. -/
theorem bound_tagValues (key : SingleLetterTag) :
    (query.bindCurrentAccount N account).selection.tagValues[key]? =
      if key ∈ query.selection.tagValuesCurrentAccount then
        some (retainOnly (ExtTreeSet.ofList (account.toList.map N.keyToHex))
          query.selection.tagValues[key]?)
      else query.selection.tagValues[key]? := by
  exact (BTreeMap.find_foldl_update BTreeSet.nodup_toList).trans
    (if_congr ExtTreeSet.mem_toList rfl rfl)

/-- The account alone is supplied. -/
theorem mem_supplied {α : Type} [Ord α] [TransOrd α] [LawfulEqOrd α] {write : PublicKey → α}
    {value : α} :
    value ∈ (ExtTreeSet.ofList (account.toList.map write) : BTreeSet α) ↔
      ∃ current, account = some current ∧ write current = value := by
  classical
  rw [ExtTreeSet.mem_ofList, List.contains_iff_mem, List.mem_map]
  simp only [Option.mem_toList]

theorem bound_authors :
    (∀ authors, (query.bindCurrentAccount N account).selection.authors = some authors →
        event.pubkey ∈ authors) ↔
      (∀ authors, query.selection.authors = some authors → event.pubkey ∈ authors) ∧
        (query.selection.authorsCurrentAccount = true → account = some event.pubkey) := by
  by_cases stands : query.selection.authorsCurrentAccount = true
  · have held : (query.bindCurrentAccount N account).selection.authors =
        some (retainOnly (ExtTreeSet.ofList account.toList) query.selection.authors) := if_pos stands
    have supplied : event.pubkey ∈ (ExtTreeSet.ofList account.toList : BTreeSet PublicKey) ↔
        account = some event.pubkey := by
      rw [ExtTreeSet.mem_ofList, List.contains_iff_mem, Option.mem_toList]
    rw [held]
    constructor
    · intro within
      obtain ⟨account, literal⟩ := mem_retainOnly.mp (within _ rfl)
      exact ⟨literal, fun _ => supplied.mp account⟩
    · rintro ⟨literal, equals⟩ authors same
      cases same
      exact mem_retainOnly.mpr ⟨supplied.mpr (equals stands), literal⟩
  · have kept : (query.bindCurrentAccount N account).selection.authors = query.selection.authors :=
      if_neg stands
    rw [kept]
    exact ⟨fun literal => ⟨literal, fun placeholder => absurd placeholder stands⟩, And.left⟩

/-- One letter of the bound query: a letter that stands for the account carries it. -/
theorem bound_tags {key : SingleLetterTag} :
    (∀ values : BTreeSet String,
      (query.bindCurrentAccount N account).selection.tagValues[key]? = some values →
        ∃ value ∈ tagValues event key, value ∈ values) ↔
      (∀ values : BTreeSet String, query.selection.tagValues[key]? = some values →
        ∃ value ∈ tagValues event key, value ∈ values) ∧
      (key ∈ query.selection.tagValuesCurrentAccount →
        (∃ current, account = some current ∧ N.keyToHex current ∈ tagValues event key) ∧
        ∀ values : BTreeSet String, query.selection.tagValues[key]? = some values →
          ∃ current, account = some current ∧ N.keyToHex current ∈ values) := by
  rw [bound_tagValues]
  by_cases stands : key ∈ query.selection.tagValuesCurrentAccount
  · rw [if_pos stands]
    constructor
    · intro within
      obtain ⟨value, carried, held⟩ := within _ rfl
      obtain ⟨supplied, literal⟩ := mem_retainOnly.mp held
      obtain ⟨current, chosen, rfl⟩ := mem_supplied.mp supplied
      exact ⟨fun values found => ⟨_, carried, literal values found⟩,
        fun _ => ⟨⟨current, chosen, carried⟩,
          fun values found => ⟨current, chosen, literal values found⟩⟩⟩
    · rintro ⟨-, placeholder⟩ values same
      cases same
      obtain ⟨⟨current, chosen, carried⟩, shared⟩ := placeholder stands
      refine ⟨N.keyToHex current, carried, mem_retainOnly.mpr
        ⟨mem_supplied.mpr ⟨current, chosen, rfl⟩, fun values found => ?_⟩⟩
      obtain ⟨other, again, literal⟩ := shared values found
      cases chosen.symm.trans again
      exact literal
  · rw [if_neg stands]
    exact ⟨fun literal => ⟨literal, fun placeholder => absurd placeholder stands⟩, And.left⟩

/-- Binding intersects: it keeps every literal axis and adds the account to those that
stand for it. -/
theorem bound_selects : Selects (query.bindCurrentAccount N account).selection event ↔
    Selects query.selection event ∧ Equals N query.selection account event ∧
      Shared N query.selection account := by
  constructor
  · rintro ⟨ids, authors, kinds, tags⟩
    have author := bound_authors.mp authors
    have letter := fun key => bound_tags.mp (tags key)
    exact ⟨⟨ids, author.1, kinds, fun key => (letter key).1⟩,
      ⟨author.2, fun key stands => ((letter key).2 stands).1⟩,
      fun key stands => ((letter key).2 stands).2⟩
  · rintro ⟨literal, equals, shared⟩
    exact ⟨literal.ids, bound_authors.mpr ⟨literal.authors, equals.author⟩, literal.kinds,
      fun key => bound_tags.mpr ⟨literal.tags key,
        fun stands => ⟨equals.tags key stands, shared key stands⟩⟩⟩

/-- Without an account, nothing equals it on an axis. -/
theorem Equals.chosen (equals : Equals N query.selection account event)
    (stands : query.dependsOnCurrentAccount = true) : account ≠ none := by
  rintro rfl
  rw [Query.dependsOnCurrentAccount, Bool.or_eq_true] at stands
  rcases stands with author | letters
  · exact absurd (equals.author author) nofun
  · rw [Bool.not_eq_true', ← Bool.not_eq_true, BTreeSet.isEmpty_iff] at letters
    refine letters fun key stands => ?_
    obtain ⟨current, chosen, -⟩ := equals.tags key stands
    exact absurd chosen nofun

end Bound

/-- Binding never changes what a query says, only whether relays are asked. -/
theorem CurrentAccount.bind_fst :
    (CurrentAccount.bind N query freshness account).1 = query.bindCurrentAccount N account := by
  rw [CurrentAccount.bind]
  split <;> rfl

/-- A query that is not itself kept to the cache is live exactly where binding leaves
something to match. -/
theorem isLive_bind_iff : isLive (CurrentAccount.bind N query freshness account) = true ↔
    freshness ≠ .cacheOnly ∧ (query.bindCurrentAccount N account).matchesNothing = false := by
  rw [isLive, CurrentAccount.bind]
  by_cases nothing : (query.bindCurrentAccount N account).matchesNothing = true
  · simp [nothing]
  · simp [nothing]

/-- Relays are asked for the events the evaluator accepts: those that satisfy the literal
axes and equal the account wherever the query stands for it, on a letter that also lists
values only when the account is one of them. -/
theorem binding_exact (N : Library) (search : String → Event → Bool) (owner : ObservationId)
    (branch : Nat) (query : Query) (freshness : Freshness) (account : Option PublicKey)
    (event : Event) :
    (requests search owner branch (CurrentAccount.bind N query freshness account).1 event = true ↔
      Selects query.selection event ∧ Equals N query.selection account event ∧
        Shared N query.selection account) ∧
    (accepts (CurrentAccount.bind N query freshness account).1 event = true ↔
      Selects query.selection event ∧ Equals N query.selection account event ∧
        Shared N query.selection account) ∧
    (query.dependsOnCurrentAccount = true → account = none →
      requests search owner branch (CurrentAccount.bind N query freshness account).1 event = false ∧
        accepts (CurrentAccount.bind N query freshness account).1 event = false) ∧
    (isLive (CurrentAccount.bind N query freshness account) = true ↔ freshness ≠ .cacheOnly ∧
      (CurrentAccount.bind N query freshness account).1.matchesNothing = false) := by
  rw [CurrentAccount.bind_fst]
  have requested : requests search owner branch (query.bindCurrentAccount N account) event = true ↔ _ :=
    requests_iff
  have accepted : accepts (query.bindCurrentAccount N account) event = true ↔ _ := accepts_iff
  rw [and_iff_right bound_dependsOnCurrentAccount, bound_selects] at requested accepted
  refine ⟨requested, accepted, fun stands missing => ⟨?_, ?_⟩, isLive_bind_iff⟩
  · rw [← Bool.not_eq_true, requested]
    exact fun ⟨_, equals, _⟩ => equals.chosen stands missing
  · rw [← Bool.not_eq_true, accepted]
    exact fun ⟨_, equals, _⟩ => equals.chosen stands missing

/-- Events that tag one listed account, and the current account under the same letter. -/
def listedOrCurrent (listed : PublicKey) : Query :=
  { Query.events with selection :=
    { Query.events.selection with
      tagValues := ExtTreeMap.ofList [(30, ExtTreeSet.ofList [plainLibrary.keyToHex listed])]
      tagValuesCurrentAccount := ExtTreeSet.ofList [30] } }

def tagsBoth (listed current : PublicKey) : Event :=
  ⟨1, 7, 100, 1, [["p", plainLibrary.keyToHex listed], ["p", plainLibrary.keyToHex current]], "", 0⟩

/-- An event that tags both the listed account and the current one, under a letter that
lists the first and stands for the second, is neither asked for nor shown. -/
theorem listed_letter_excludes :
    Selects (listedOrCurrent 5).selection (tagsBoth 5 6) ∧
    Equals plainLibrary (listedOrCurrent 5).selection (some 6) (tagsBoth 5 6) ∧
    requests (fun _ _ => true) 0 0 (CurrentAccount.bind plainLibrary (listedOrCurrent 5) .live (some 6)).1
      (tagsBoth 5 6) = false ∧
    accepts (CurrentAccount.bind plainLibrary (listedOrCurrent 5) .live (some 6)).1
      (tagsBoth 5 6) = false := by
  refine ⟨matchesSelection_iff.mp (by decide +kernel), ⟨nofun, fun key stands => ?_⟩,
    by decide +kernel, by decide +kernel⟩
  have letter : 30 = key := by simpa [listedOrCurrent] using stands
  subst letter
  exact ⟨6, rfl, by decide +kernel⟩

end Fava.Queries
