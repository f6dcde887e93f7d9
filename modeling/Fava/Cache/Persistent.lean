import Fava.Cache.Memory

namespace Fava.Cache

open Std Fava.Lib Fava.Nostr Fava.State

/-- The next state of one batch, with the events and keys its rows are to gain and lose. -/
structure AppliedMutations where
  next : CacheState
  inserted : List RelayEvent
  removed : List EventKey

namespace AppliedMutations

def insert (a : AppliedMutations) (incoming : RelayEvent) : AppliedMutations :=
  { a with next := a.next.insert incoming, inserted := a.inserted ++ [incoming] }

def remove (a : AppliedMutations) (key : EventKey) (cause : RetractionCause) : AppliedMutations :=
  { a with next := a.next.remove key cause, removed := a.removed ++ [key] }

def retract (a : AppliedMutations) : EventStateMutation → AppliedMutations
  | .retract id session cause =>
    if a.next.events.contains ⟨id, session⟩ then a.remove ⟨id, session⟩ cause else a
  | .upsert _ => a

variable (R : Rules) (capacity : Nat)

def upsert (a : AppliedMutations) (incoming : RelayEvent) :
    Except EventCacheError AppliedMutations :=
  match R.verify incoming.event with
  | .error error => .error (.refused ("invalid signed event: " ++ error))
  | .ok () =>
    match a.next.events[keyOf incoming]? with
    | some retained =>
      if incoming.occurrence.observedAt < retained.occurrence.observedAt then .ok (a.insert incoming)
      else .ok a
    | none =>
      if capacity ≤ a.next.events.size then
        if incoming.event.kind ≠ eventDeletion then
          .error (.refused ("bounded event cache capacity " ++ toString capacity ++ " reached"))
        else
          match a.next.oldest with
          | none => .error (.refused
              ("bounded event cache capacity " ++ toString capacity ++ " holds only deletions"))
          | some evicted => .ok ((a.remove evicted .evicted).insert incoming)
      else .ok (a.insert incoming)

def upserts (a : AppliedMutations) : List RelayEvent → Except EventCacheError AppliedMutations
  | [] => .ok a
  | incoming :: rest => do (← a.upsert R capacity incoming).upserts rest

end AppliedMutations

/-- The durable cache: its rows, by the event and the relay each is of, and the mirror of
them in memory. -/
structure RedbEventCache where
  rows : BTreeMap EventKey RelayEvent
  state : CacheState

/-- In one transaction all rows that are new go in, and then all that are gone go out. -/
def applyDiff (rows : BTreeMap EventKey RelayEvent) (inserted : List RelayEvent)
    (removed : List EventKey) : BTreeMap EventKey RelayEvent :=
  removed.foldl (fun rows key => rows.erase key)
    (inserted.foldl (fun rows e => rows.insert (keyOf e) e) rows)

/-- Every row is read under the key of the event in it. -/
def load (rows : BTreeMap EventKey RelayEvent) : BTreeMap EventKey RelayEvent :=
  rows.toList.foldl (fun events row => events.insert (keyOf row.2) row.2) ∅

namespace RedbEventCache

def openBounded (rows : BTreeMap EventKey RelayEvent) : RedbEventCache :=
  ⟨rows, ⟨0, load rows, [], []⟩⟩

/-- Close, and open what is on disk. -/
def reopen (c : RedbEventCache) : RedbEventCache := openBounded c.rows

/-- The rows are written before the revision is counted. -/
def persistAndPublish (c : RedbEventCache) (a : AppliedMutations) :
    Except EventCacheError Unit × RedbEventCache :=
  let rows := applyDiff c.rows a.inserted a.removed
  if a.next.revision < 2 ^ 64 - 1 then
    (.ok (), ⟨rows, { a.next with revision := a.next.revision + 1 }⟩)
  else (.error (.refused "source revision exhausted"), ⟨rows, c.state⟩)

variable (R : Rules) (capacity : Nat)

def apply (current : CacheState) (mutations : List EventStateMutation) :
    Except EventCacheError AppliedMutations := do
  let retracted := mutations.foldl AppliedMutations.retract ⟨{ current with retractions := [] }, [], []⟩
  let a ← retracted.upserts R capacity (mutations.filterMap CacheState.incoming)
  .ok (if a.next.events ≠ current.events then { a with next := { a.next with coverage := [] } } else a)

/-- A batch that changes no row is accepted and leaves the cache as it was. -/
def commit (c : RedbEventCache) (mutations : List EventStateMutation) :
    Except EventCacheError Unit × RedbEventCache :=
  match apply R capacity c.state mutations with
  | .error error => (.error error, c)
  | .ok a => if a.inserted = [] ∧ a.removed = [] then (.ok (), c) else c.persistAndPublish a

def transact (c : RedbEventCache) (decide : List RelayEvent → List EventStateMutation) :
    Except EventCacheError Unit × RedbEventCache :=
  match decide c.state.current with
  | [] => (.ok (), c)
  | mutations => c.commit R capacity mutations

def admitEvent (c : RedbEventCache) (event : RelayEvent) (now : Timestamp) :
    Except EventCacheError Unit × RedbEventCache :=
  c.transact R capacity (CacheState.decideAdmission R event now)

def expire (c : RedbEventCache) (now : Timestamp) : Except EventCacheError Unit × RedbEventCache :=
  c.transact R capacity (mutationsForExpiration · now)

end RedbEventCache

end Fava.Cache
