import Fava.Routing.Chain

namespace Fava.Routing

open Std Fava.Lib Fava.Nostr Fava.Relay Fava.Queries Fava.Write

/-- Relays to fall back on while few cover a target. -/
structure FallbackRelayRouter where
  name : String
  relays : BTreeSet RelayUrl
  minimum : Nat
  reads : Bool
  writes : Bool

/-- How many relays of a plan cover a target. -/
def coveredBy (plan : RoutePlan) (target : RouteTarget) : Nat :=
  match plan.coverage[target]? with
  | some (.covered relays) => relays.size
  | _ => 0

namespace FallbackRelayRouter

variable (T : TagReader) (r : FallbackRelayRouter)

def contribution (request : RouteRequest) (upstream : RoutePlan) : RouteContribution :=
  if request.isRead && !r.reads || request.isWrite && !r.writes then .none
  else
    let targets := (request.targets T).filter fun target => coveredBy upstream target < r.minimum
    if targets.isEmpty then .none
    else
      { destinations := r.relays.toList.map fun session =>
          ⟨session, targets, "", "upstream coverage below " ++ toString r.minimum⟩
        coverage := .constant targets.toList
          (if r.relays.isEmpty then .settledAbsent else .covered r.relays)
        unresolved := ∅
        shortfalls := [] }

/-- The last contribution is what a session keeps, with the request it is for. -/
structure FallbackSession where
  request : RouteRequest
  current : RouteContribution

def noInputs (inputs : List QuerySnapshot) : Except RouterError Unit :=
  require (inputs.length = 0) (.refused "fallback router accepts no query inputs")

def router : Router FallbackSession where
  name := r.name
  queries _ _ := .ok []
  preview request upstream inputs := do
    noInputs inputs
    .ok (r.contribution T request upstream)
  openSession request upstream inputs := do
    noInputs inputs
    .ok ⟨request, r.contribution T request upstream⟩
  current session := session.current
  replace session upstream inputs :=
    match noInputs inputs with
    | .ok () =>
      let next := r.contribution T session.request upstream
      (.ok next, { session with current := next })
    | .error error => (.error error, session)

end FallbackRelayRouter

end Fava.Routing
