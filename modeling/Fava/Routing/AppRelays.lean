import Fava.Routing.Answers

namespace Fava.Routing

open Std Fava.Lib Fava.Nostr Fava.Relay Fava.Queries Fava.Write

/-- Always routes to the relays of the application. -/
structure AppRelayRouter where
  name : String
  relays : BTreeSet RelayUrl
  reads : Bool
  writes : Bool

namespace AppRelayRouter

def new (name : String) (relays : List RelayUrl) : AppRelayRouter :=
  ⟨name, .ofList relays, true, true⟩

variable (T : TagReader) (r : AppRelayRouter)

def contribution (request : RouteRequest) : RouteContribution :=
  if request.isRead && !r.reads || request.isWrite && !r.writes then .none
  else
    let targets := request.targets T
    { destinations := r.relays.toList.map fun session =>
        ⟨session, targets, "", "configured application relay"⟩
      coverage := .constant targets.toList (.covered r.relays)
      unresolved := ∅
      shortfalls := [] }

def noInputs (inputs : List QuerySnapshot) : Except RouterError Unit :=
  require (inputs.length = 0) (.refused "app-relay router accepts no query inputs")

def router : Router RouteContribution where
  name := r.name
  queries _ _ := .ok []
  preview request _ inputs := do
    noInputs inputs
    .ok (r.contribution T request)
  openSession request _ inputs := do
    noInputs inputs
    .ok (r.contribution T request)
  current session := session
  replace session _ inputs :=
    match noInputs inputs with
    | .ok () => (.ok session, session)
    | .error error => (.error error, session)

variable {T r} {request : RouteRequest} {relay : RelayUrl} {target : RouteTarget}

/-- Whether a router says anything of a request. -/
def enabled (request : RouteRequest) (reads writes : Bool) : Bool :=
  !(request.isRead && !reads || request.isWrite && !writes)

theorem selects_contribution : (r.contribution T request).Selects relay target ↔
    enabled request r.reads r.writes = true ∧ relay ∈ r.relays ∧ target ∈ request.targets T := by
  unfold contribution enabled
  split
  · rename_i out
    rw [out]
    simp [RouteContribution.Selects, RouteContribution.none]
  · rename_i within
    rw [Bool.of_not_eq_true within]
    simp [RouteContribution.Selects]

theorem covered_contribution : Covered (r.contribution T request).coverage relay target ↔
    enabled request r.reads r.writes = true ∧ relay ∈ r.relays ∧ target ∈ request.targets T := by
  unfold contribution enabled Covered
  split
  · rename_i out
    rw [out]
    simp [RouteContribution.none]
  · rename_i within
    rw [Bool.of_not_eq_true within]
    simp only [BTreeMap.find_constant, ExtTreeSet.mem_toList, Option.ite_none_right_eq_some,
      Option.some.injEq, CoverageState.covered.injEq]
    constructor
    · rintro ⟨relays, ⟨known, rfl⟩, inside⟩
      exact ⟨rfl, inside, known⟩
    · rintro ⟨-, inside, known⟩
      exact ⟨_, ⟨known, rfl⟩, inside⟩

theorem contribution_exact : (r.contribution T request).Exact :=
  fun _ _ => selects_contribution.trans covered_contribution.symm

end AppRelayRouter

end Fava.Routing
