import Fava.State.Mutations
import Fava.Subscriptions.Filter

namespace Fava.Cache

open Std Fava.Lib Fava.Nostr Fava.State Fava.Subscriptions

/-- One relay session's proven completion of one filter. -/
structure SourceCoverage where
  session : RelayUrl
  filter : Filter
  completedAt : Timestamp
deriving DecidableEq

inductive EventCacheError
  | closed
  | refused (reason : String)
deriving DecidableEq

structure EventKey where
  id : EventId
  session : RelayUrl
deriving DecidableEq

namespace EventKey

instance : Ord EventKey := ⟨compareLex (compareOn id) (compareOn session)⟩

instance : TransOrd EventKey :=
  inferInstanceAs (TransCmp (compareLex (compareOn id) (compareOn session)))

instance : LawfulEqOrd EventKey where
  compare_self := ReflOrd.compare_self
  eq_of_compare := by
    intro a b h
    obtain ⟨id, session⟩ := Ordering.then_eq_eq.mp h
    cases a
    cases b
    simp_all [compareOn]

end EventKey

structure SourceRetraction where
  eventId : EventId
  cause : RetractionCause
deriving DecidableEq

/-- What the cache holds, and what its last commit removed. -/
structure CacheState where
  revision : Nat
  events : BTreeMap EventKey RelayEvent
  retractions : List SourceRetraction
  coverage : List SourceCoverage

def keyOf (e : RelayEvent) : EventKey := ⟨e.event.id, e.occurrence.session⟩

def SourceCoverage.isFor (session : RelayUrl) (filter : Filter) (c : SourceCoverage) : Bool :=
  c.session = session && c.filter = filter

namespace CacheState

def empty : CacheState := ⟨0, ∅, [], []⟩

def remove (s : CacheState) (key : EventKey) (cause : RetractionCause) : CacheState :=
  { s with events := s.events.erase key, retractions := s.retractions ++ [⟨key.id, cause⟩] }

/-- Only what is there is removed, and reported. -/
def retract (s : CacheState) : EventStateMutation → CacheState
  | .retract id session cause =>
    if s.events.contains ⟨id, session⟩ then s.remove ⟨id, session⟩ cause else s
  | .upsert _ => s

/-- The oldest event that is no deletion, by its own time and then its identifier. -/
def oldest (s : CacheState) : Option EventKey :=
  ((s.events.toList.filter fun e => e.2.event.kind ≠ eventDeletion).foldl (fun best e =>
    match best with
    | none => some e
    | some b =>
      if e.2.event.createdAt < b.2.event.createdAt ∨
          e.2.event.createdAt = b.2.event.createdAt ∧ e.2.event.id < b.2.event.id then some e
      else some b) none).map Prod.fst

def insert (s : CacheState) (incoming : RelayEvent) : CacheState :=
  { s with events := s.events.insert (keyOf incoming) incoming }

variable (R : Rules) (capacity : Nat)

def upsert (s : CacheState) (incoming : RelayEvent) : Except EventCacheError CacheState :=
  match R.verify incoming.event with
  | .error error => .error (.refused ("invalid signed event: " ++ error))
  | .ok () =>
    match s.events[keyOf incoming]? with
    | some retained =>
      if incoming.occurrence.observedAt < retained.occurrence.observedAt then .ok (s.insert incoming)
      else .ok s
    | none =>
      if capacity ≤ s.events.size then
        if incoming.event.kind ≠ eventDeletion then
          .error (.refused ("bounded event cache capacity " ++ toString capacity ++ " reached"))
        else
          match s.oldest with
          | none => .error (.refused
              ("bounded event cache capacity " ++ toString capacity ++ " holds only deletions"))
          | some evicted => .ok ((s.remove evicted .evicted).insert incoming)
      else .ok (s.insert incoming)

def upserts (s : CacheState) : List RelayEvent → Except EventCacheError CacheState
  | [] => .ok s
  | incoming :: rest => do (← s.upsert R capacity incoming).upserts rest

def incoming : EventStateMutation → Option RelayEvent
  | .upsert incoming => some incoming
  | .retract _ _ _ => none

/-- Retractions apply first; any change to the events forgets all coverage. -/
def apply (s : CacheState) (mutations : List EventStateMutation) :
    Except EventCacheError CacheState := do
  let retracted := mutations.foldl retract { s with retractions := [] }
  let next ← retracted.upserts R capacity (mutations.filterMap incoming)
  .ok (if next.events ≠ s.events then { next with coverage := [] } else next)

def publish (next : CacheState) : Except EventCacheError CacheState :=
  if next.revision < 2 ^ 64 - 1 then .ok { next with revision := next.revision + 1 }
  else .error (.refused "source revision exhausted")

def commit (s : CacheState) (mutations : List EventStateMutation) :
    Except EventCacheError CacheState := do
  publish (← s.apply R capacity mutations)

/-- The retained events, in the order of their keys. -/
def current (s : CacheState) : List RelayEvent := s.events.toList.map Prod.snd

/-- Read, decide and commit; an empty batch commits nothing. -/
def transact (s : CacheState) (decide : List RelayEvent → List EventStateMutation) :
    Except EventCacheError (Nat × CacheState) :=
  match decide s.current with
  | [] => .ok (0, s)
  | mutations => (s.commit R capacity mutations).map (mutations.length, ·)

def decideAdmission (event : RelayEvent) (now : Timestamp) (current : List RelayEvent) :
    List EventStateMutation :=
  mutationsForExpiration current now ++
    mutationsForEvent R (current.filter fun known => !eventIsExpired known.event.tags now) event now

/-- Admit one verified event, and sweep what has expired. -/
def admitEvent (s : CacheState) (event : RelayEvent) (now : Timestamp) :
    Except EventCacheError (Bool × CacheState) :=
  (s.transact R capacity (decideAdmission R event now)).map fun (_, next) =>
    (!(mutationsForEvent R (s.current.filter fun known => !eventIsExpired known.event.tags now) event
      now).isEmpty, next)

def expire (s : CacheState) (now : Timestamp) : Except EventCacheError (Nat × CacheState) :=
  s.transact R capacity (mutationsForExpiration · now)

def sourceCoverage (s : CacheState) (session : RelayUrl) (filter : Filter) :
    Option SourceCoverage :=
  s.coverage.find? (SourceCoverage.isFor session filter)

/-- Replace what is retained for the same source, or push out the oldest. -/
def retainSourceCoverage (s : CacheState) (c : SourceCoverage) : CacheState :=
  { s with coverage :=
      if s.coverage.any (SourceCoverage.isFor c.session c.filter) then
        s.coverage.replaceF fun x => if x.isFor c.session c.filter then some c else none
      else (if capacity ≤ s.coverage.length then s.coverage.tail else s.coverage) ++ [c] }

end CacheState

end Fava.Cache
