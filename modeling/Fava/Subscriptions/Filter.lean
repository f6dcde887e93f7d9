import Fava.Lib.BTree
import Fava.Nostr.Event

namespace Fava.Subscriptions

open Std Fava.Lib Fava.Nostr

/-- A single-letter tag name: twice the letter's place in the alphabet, plus one
for upper case, which is the order the names are kept in. -/
abbrev SingleLetterTag := Nat

structure Filter where
  ids : Option (BTreeSet EventId)
  authors : Option (BTreeSet PublicKey)
  kinds : Option (BTreeSet Kind)
  search : Option String
  since : Option Timestamp
  till : Option Timestamp
  limit : Option Nat
  genericTags : BTreeMap SingleLetterTag (BTreeSet String)

namespace Filter

@[ext] theorem eq_of_fields {f g : Filter} (ids : f.ids = g.ids) (authors : f.authors = g.authors)
    (kinds : f.kinds = g.kinds) (search : f.search = g.search) (since : f.since = g.since)
    (till : f.till = g.till) (limit : f.limit = g.limit)
    (genericTags : f.genericTags = g.genericTags) : f = g := by
  cases f
  cases g
  simp_all

instance : DecidableEq Filter := fun f g =>
  decidable_of_iff (f.ids = g.ids ∧ f.authors = g.authors ∧ f.kinds = g.kinds ∧
      f.search = g.search ∧ f.since = g.since ∧ f.till = g.till ∧ f.limit = g.limit ∧
      f.genericTags = g.genericTags)
    ⟨fun ⟨a, b, c, d, e, h, i, j⟩ => eq_of_fields a b c d e h i j, fun h => by simp [h]⟩

/-- A filter that asks for everything. -/
def new : Filter := ⟨none, none, none, none, none, none, none, ∅⟩

/-- The derived order: field by field, each set by its ascending values. -/
def cmp : Filter → Filter → Ordering :=
  compareLex (compareOn fun f => f.ids.map ExtTreeSet.toList) <|
  compareLex (compareOn fun f => f.authors.map ExtTreeSet.toList) <|
  compareLex (compareOn fun f => f.kinds.map ExtTreeSet.toList) <|
  compareLex (compareOn Filter.search) <|
  compareLex (compareOn Filter.since) <|
  compareLex (compareOn Filter.till) <|
  compareLex (compareOn Filter.limit) fun f g =>
    List.compareLex (compareLex (compareOn Prod.fst) (compareOn fun e => e.2.toList))
      f.genericTags.toList g.genericTags.toList

end Filter

/-- An absent set and an empty one both leave the axis unconstrained. -/
def constrained {α : Type} [Ord α] (axis : Option (BTreeSet α)) : Option (BTreeSet α) :=
  axis.filter fun values => !values.isEmpty

def coversSet {α : Type} [Ord α] [TransOrd α] (wide narrow : Option (BTreeSet α)) : Bool :=
  match constrained wide, constrained narrow with
  | none, _ => true
  | some _, none => false
  | some wide, some narrow => narrow.subset wide

def coversWindow (wide narrow : Filter) : Bool :=
  (match wide.since, narrow.since with
    | none, _ => true
    | some _, none => false
    | some wide, some narrow => decide (wide ≤ narrow)) &&
  (match wide.till, narrow.till with
    | none, _ => true
    | some _, none => false
    | some wide, some narrow => decide (narrow ≤ wide))

def coversTags (wide narrow : Filter) : Bool :=
  wide.genericTags.toList.all fun (name, values) =>
    match narrow.genericTags[name]? with
    | some narrow => narrow.subset values
    | none => false

/-- Whether `wide` already asks the relay for every event `narrow` wants. -/
def filterCovers (wide narrow : Filter) : Bool :=
  if wide = narrow then true
  else if wide.limit.isSome || narrow.limit.isSome then false
  else if wide.search ≠ narrow.search then false
  else coversSet wide.ids narrow.ids && coversSet wide.authors narrow.authors &&
    coversSet wide.kinds narrow.kinds && coversWindow wide narrow && coversTags wide narrow

end Fava.Subscriptions
