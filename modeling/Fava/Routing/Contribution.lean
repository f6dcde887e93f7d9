import Fava.Queries.Query
import Fava.Routing.Plan

namespace Fava.Routing

open Std Fava.Lib Fava.Nostr Fava.Relay Fava.Queries Fava.Write

/-- What a write's tags are read with. -/
structure TagReader where
  publicKey : String → Option PublicKey
  eventId : String → Option EventId

/-- Facts that relay destinations are asked for. -/
inductive RouteRequest
  | read (query : Query)
  | write (event : EventValue) (access : Authority)

namespace RouteRequest

def isRead : RouteRequest → Bool
  | .read _ => true
  | .write _ _ => false

def isWrite : RouteRequest → Bool
  | .read _ => false
  | .write _ _ => true

/-- A recipient or a referenced event that a tag names. -/
def tagTargets (T : TagReader) (tag : Tag) : List RouteTarget :=
  match tag with
  | "p" :: value :: _ => ((T.publicKey value).map RouteTarget.recipient).toList
  | "e" :: value :: _ => ((T.eventId value).map RouteTarget.referencedEvent).toList
  | _ => []

/-- What is to be covered for a request. -/
def targets (T : TagReader) : RouteRequest → BTreeSet RouteTarget
  | .read query =>
    match query.selection.authors.filter fun authors => !authors.isEmpty with
    | some authors => .ofList (authors.toList.map RouteTarget.author)
    | none =>
      match query.selection.ids.filter fun ids => !ids.isEmpty with
      | some ids => .ofList (ids.toList.map RouteTarget.referencedEvent)
      | none => {.wholeRequest}
  | .write event _ => .ofList (.author event.author :: event.tags.flatMap (tagTargets T))

end RouteRequest

structure RouteDestination where
  session : RelayUrl
  targets : BTreeSet RouteTarget
  router : String
  reason : String

/-- All that one router has to say at present. -/
structure RouteContribution where
  destinations : List RouteDestination
  coverage : BTreeMap RouteTarget CoverageState
  unresolved : BTreeSet RouteTarget
  shortfalls : List String

def RouteContribution.none : RouteContribution := ⟨[], ∅, ∅, []⟩

def RoutePlan.none : RoutePlan := ⟨0, ∅, ∅, ∅, []⟩

inductive RouterError
  | refused (reason : String)
  | closed

def RouterError.text : RouterError → String
  | .refused reason => "router refused work: " ++ reason
  | .closed => "router session closed"

def maxDestinations : Nat := 256

def maxCoveredSessions : Nat := 256

def maxShortfalls : Nat := 256

def maxTextBytes : Nat := 4096

def bounded (label : String) (actual maximum : Nat) : Except RouterError Unit :=
  if maximum < actual then
    .error (.refused (label ++ " exceed bound: " ++ toString actual ++ " > " ++ toString maximum))
  else .ok ()

/-- Covered relays add up; what covers nothing never takes a relay away. -/
def mergeCoverage (current incoming : CoverageState) : CoverageState :=
  match incoming, current with
  | .covered incoming, .covered current => .covered (current ∪ incoming)
  | .covered incoming, _ => .covered incoming
  | .unresolved, .covered current => .covered current
  | .unresolved, _ => .unresolved
  | .settledAbsent, current => current

/-- Merge one state into an entry that starts out unresolved. -/
def mergeEntry (incoming : CoverageState) (entry : Option CoverageState) : CoverageState :=
  mergeCoverage (entry.getD .unresolved) incoming

namespace RouteContribution

variable (c : RouteContribution)

/-- The distinct relays of the destinations. -/
def sessions : BTreeSet RelayUrl := .ofList (c.destinations.map (·.session))

def validateBounds : Except RouterError Unit := do
  bounded "route destinations" c.sessions.size maxDestinations
  c.destinations.forM fun d => bounded "route reason" d.reason.utf8ByteSize maxTextBytes
  c.coverage.values.forM fun
    | .covered sessions => bounded "covered relay sessions" sessions.size maxCoveredSessions
    | _ => .ok ()
  c.shortfalls.forM fun shortfall => bounded "route shortfall" shortfall.utf8ByteSize maxTextBytes

end RouteContribution

def planDestination (planned : BTreeMap RelayUrl PlannedRelay) (d : RouteDestination) :
    BTreeMap RelayUrl PlannedRelay :=
  let relay := planned[d.session]?.getD ⟨d.session, ∅, ∅⟩
  planned.insert d.session
    { relay with
      targets := relay.targets ∪ d.targets
      reasons := relay.reasons.insert ⟨d.router, d.reason⟩ }

/-- The targets of a destination are covered by its relay. -/
def coverDestination (coverage : BTreeMap RouteTarget CoverageState) (d : RouteDestination) :
    BTreeMap RouteTarget CoverageState :=
  d.targets.toList.foldl (fun coverage target =>
    coverage.insert target (mergeEntry (.covered {d.session}) coverage[target]?)) coverage

def isUnresolved : CoverageState → Bool
  | .unresolved => true
  | _ => false

/-- The targets whose coverage is unresolved. -/
def unresolvedTargets (coverage : BTreeMap RouteTarget CoverageState) : BTreeSet RouteTarget :=
  .ofList ((coverage.toList.filter fun e => isUnresolved e.2).map Prod.fst)

def RoutePlan.fromContribution (revision : Nat) (c : RouteContribution) :
    Except RouterError RoutePlan := do
  c.validateBounds
  .ok
    { revision
      destinations := c.destinations.foldl planDestination ∅
      coverage := c.destinations.foldl coverDestination c.coverage
      unresolved := c.unresolved ∪ unresolvedTargets c.coverage
      shortfalls := c.shortfalls }

end Fava.Routing
