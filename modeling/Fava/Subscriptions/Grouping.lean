import Fava.Lib.Upsert
import Fava.Subscriptions.Plan

namespace Fava.Subscriptions

open Std Fava.Lib Fava.Nostr Fava.Relay

/-- The two encoders the planners call: the text of one filter, and the length
of the `REQ` frame that carries some. -/
structure Encoder where
  canonicalEncoding : Filter → String
  encodedBytes : List Filter → Except BoundedText Nat

/-- A union filter with the exact demand it was merged from. -/
abbrev Candidate := Filter × List RelayDemand

def canonicalOrder (encoder : Encoder) (demand : List RelayDemand) : List RelayDemand :=
  demand.insertionSort fun left right =>
    ((compare (encoder.canonicalEncoding left.filter) (encoder.canonicalEncoding right.filter)).then
      (compare left.id right.id)).isLE

def uniformBounds : List RelayDemand → Option QueryBounds
  | [] => none
  | anchor :: rest => if rest.all fun d => d.bounds = anchor.bounds then some anchor.bounds else none

/-- Bucket demand carrying byte-identical filters, in order of first arrival. -/
def bucketByFilter (encoder : Encoder) (demand : List RelayDemand) : List Candidate :=
  (demand.foldl (fun (buckets : List (String × Candidate)) item =>
    let key := encoder.canonicalEncoding item.filter
    upsert (fun b => b.1 = key) (fun b => (b.1, b.2.1, b.2.2 ++ [item])) (key, item.filter, [item])
      buckets) []).map Prod.snd

def foldIdenticalUnions (candidates : List Candidate) : List Candidate :=
  candidates.foldl (fun folded candidate =>
    upsert (fun c => c.1 = candidate.1) (fun c => (c.1, c.2 ++ candidate.2)) candidate folded) []

/-- Union one `ids`, `authors` or `kinds` axis, refusing an unconstrained operand. -/
def unionConstrained {α : Type} [Ord α] [TransOrd α] (left right : Option (BTreeSet α)) :
    Option (BTreeSet α) := do
  let left ← constrained left
  let right ← constrained right
  some (left ∪ right)

def unionIds (left right : Filter) : Option Filter :=
  (unionConstrained left.ids right.ids).map fun values => { left with ids := some values }

def unionAuthors (left right : Filter) : Option Filter :=
  (unionConstrained left.authors right.authors).map fun values =>
    { left with authors := some values }

def unionKinds (left right : Filter) : Option Filter :=
  (unionConstrained left.kinds right.kinds).map fun values => { left with kinds := some values }

def unionTag (left right : Filter) (name : SingleLetterTag) : Option Filter := do
  let leftValues ← left.genericTags[name]?
  let rightValues ← right.genericTags[name]?
  some { left with genericTags := left.genericTags.insert name (leftValues ∪ rightValues) }

def differingTags (left right : Filter) : List SingleLetterTag :=
  (left.genericTags.toList.filter fun e => right.genericTags[e.1]? ≠ some e.2).map Prod.fst

/-- How many value-set axes two filters disagree on, each tag name being one. -/
def differingAxes (left right : Filter) : Nat :=
  (if left.ids = right.ids then 0 else 1) + (if left.authors = right.authors then 0 else 1) +
    (if left.kinds = right.kinds then 0 else 1) + (differingTags left right).length

/-- Union two filters that disagree on exactly one value-set axis. -/
def mergeOnSoleDifferingAxis (left right : Filter) : Option Filter :=
  if left.limit.isSome || right.limit.isSome then none
  else if left.search ≠ right.search ∨ left.since ≠ right.since ∨ left.till ≠ right.till then none
  else if left.genericTags.keys ≠ right.genericTags.keys then none
  else if differingAxes left right ≠ 1 then none
  else if left.ids ≠ right.ids then unionIds left right
  else if left.authors ≠ right.authors then unionAuthors left right
  else if left.kinds ≠ right.kinds then unionKinds left right
  else (differingTags left right).head?.bind (unionTag left right)

/-- Join the candidate with the first later one it merges with. -/
def mergeInto (left : Candidate) (bounds : QueryBounds) : List Candidate → Option (List Candidate)
  | [] => none
  | right :: rest =>
    match if uniformBounds right.2 = some bounds then mergeOnSoleDifferingAxis left.1 right.1
        else none with
    | some merged => some ((merged, left.2 ++ right.2) :: rest)
    | none =>
      match mergeInto left bounds rest with
      | some (joined :: rest) => some (joined :: right :: rest)
      | _ => none

/-- The first mergeable pair, joined in the place of its left one. -/
def mergeFirstPair : List Candidate → Option (List Candidate)
  | [] => none
  | left :: rest =>
    match (uniformBounds left.2).bind fun bounds => mergeInto left bounds rest with
    | some joined => some joined
    | none => (mergeFirstPair rest).map (left :: ·)

/-- Merge until no pair is mergeable. Each round leaves one candidate fewer, so
the number of candidates bounds the rounds. -/
def mergeToFixedPoint : Nat → List Candidate → List Candidate
  | 0, candidates => candidates
  | rounds + 1, candidates =>
    match mergeFirstPair candidates with
    | some merged => mergeToFixedPoint rounds merged
    | none => candidates

def group (encoder : Encoder) (demand : List RelayDemand) (constraints : RelayReadConstraints) :
    List Candidate :=
  let candidates := bucketByFilter encoder (canonicalOrder encoder demand)
  foldIdenticalUnions (if constraints.defaultFilterLimit = none then
    mergeToFixedPoint candidates.length candidates else candidates)

end Fava.Subscriptions
