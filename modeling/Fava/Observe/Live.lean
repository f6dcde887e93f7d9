import Fava.Cache.Memory
import Fava.Observe.Children

namespace Fava.Observe.Evidence

open Fava.Cache (SourceRetraction)
open Std Fava.Lib Fava.Nostr Fava.Relay Fava.State Fava.Subscriptions

/-- Relay events one observation retains itself because no selected store keeps them. -/
structure LiveState where
  revision : Nat
  events : BTreeMap EventId RelayEvent
  retractions : List SourceRetraction
  refused : Nat

def LiveState.default : LiveState := ⟨0, ∅, [], 0⟩

def liveEventsPerSession : Nat := 4096

variable (R : Rules)

/-- One change to the retained events of a session, with the removals it makes. -/
def LiveState.mutate (session : RelayUrl)
    (next : BTreeMap EventId RelayEvent × List SourceRetraction) :
    EventStateMutation → BTreeMap EventId RelayEvent × List SourceRetraction
  | .upsert incoming => (next.1.insert incoming.event.id incoming, next.2)
  | .retract eventId retracted cause =>
    if retracted = session && next.1.contains eventId then
      (next.1.erase eventId, next.2 ++ [⟨eventId, cause⟩])
    else next

/-- Admit one relay event, if it changes anything. What does not fit is counted. -/
def LiveState.admitted (session : RelayUrl) (event : RelayEvent) (live : LiveState) :
    Option LiveState :=
  let mutations := mutationsForEvent R live.events.values event event.occurrence.observedAt
  if mutations.isEmpty then none
  else
    let (events, retractions) := mutations.foldl (LiveState.mutate session) (live.events, [])
    if liveEventsPerSession < events.size then
      some ⟨bump live.revision, live.events, [], bump live.refused⟩
    else some ⟨bump live.revision, events, retractions, live.refused⟩

/-- The registry with the live source of each observation. -/
structure Sources where
  registry : State
  live : BTreeMap ObservationId (BTreeMap RelayUrl LiveState)

/-- What the owner of the registry can call. -/
inductive Call
  | op (op : State.Op)
  | recordLiveEvent (id : ObservationId) (event : RelayEvent)

namespace Sources

def start : Sources := ⟨.start, ∅⟩

/-- A live source is there for every relay that is wanted, and for no other. -/
def wantedLive (wanted : Wanted) (live : BTreeMap RelayUrl LiveState) : BTreeMap RelayUrl LiveState :=
  wanted.keys.foldl (fun live session =>
    if live.contains session then live else live.insert session .default)
    (live.filter fun session _ => wanted.contains session)

/-- The live sources go with the observations that hold them. -/
def liveAfter (s : Sources) (registry : State) : State.Op → BTreeMap ObservationId (BTreeMap RelayUrl LiveState)
  | .install | .installChild _ => s.live.insert registry.next ∅
  | .assign id _ _ wanted _ _ => s.live.modify id (wantedLive wanted)
  | .activateChild _ _ | .withdraw _ => s.live.filter fun id _ => registry.observations.contains id
  | .recordState _ _ _ _ | .recordSharing _ _ _ _ _ | .recordPlan _ _ | .recordCoalesced _ _ => s.live

def recordLiveEvent (s : Sources) (id : ObservationId) (event : RelayEvent) : Sources :=
  let session := event.occurrence.session
  match s.live[id]?.bind fun live => live[session]?.bind (LiveState.admitted R session event) with
  | none => s
  | some next =>
    { registry := { s.registry with revision := bump s.registry.revision }
      live := s.live.modify id fun live => live.insert session next }

def step (s : Sources) : Call → Option Sources
  | .op op => (s.registry.apply op).map fun registry => ⟨registry, s.liveAfter registry op⟩
  | .recordLiveEvent id event => some (s.recordLiveEvent R id event)

variable {R} {s s' : Sources} {call : Call}

/-- A call to the registry, or one that leaves the observations as they are. -/
theorem step_registry (stepped : s.step R call = some s') :
    (∃ op, call = .op op ∧ s.registry.apply op = some s'.registry) ∨
      s'.registry.next = s.registry.next ∧ s'.registry.observations = s.registry.observations := by
  cases call with
  | op op =>
    obtain ⟨registry, applied, rfl⟩ := Option.map_eq_some_iff.mp stepped
    exact .inl ⟨op, rfl, applied⟩
  | recordLiveEvent id event =>
    cases stepped
    unfold recordLiveEvent
    right
    dsimp only
    split
    · exact ⟨rfl, rfl⟩
    · exact ⟨rfl, rfl⟩

end Sources

end Fava.Observe.Evidence
