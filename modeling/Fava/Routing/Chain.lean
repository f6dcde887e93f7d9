import Mathlib.Algebra.GroupWithZero.Nat
import Fava.Lib.Text
import Fava.Routing.Contribution

namespace Fava.Routing

open Std Fava.Lib Fava.Nostr Fava.Relay Fava.Queries Fava.Write

/-- A routing policy and the sessions it opens. A call that panics counts as refused. -/
structure Router (Session : Type) where
  name : String
  queries : RouteRequest → RoutePlan → Except RouterError (List Query)
  preview : RouteRequest → RoutePlan → List QuerySnapshot → Except RouterError RouteContribution
  openSession : RouteRequest → RoutePlan → List QuerySnapshot → Except RouterError Session
  current : Session → RouteContribution
  replace : Session → RoutePlan → List QuerySnapshot →
    Except RouterError RouteContribution × Session

/-- Put the contributions of several routers together. -/
def combine (contributions : List RouteContribution) : RouteContribution where
  destinations := contributions.flatMap (·.destinations)
  coverage := contributions.foldl (fun coverage c =>
    BTreeMap.updateAll coverage (fun _ => mergeEntry) c.coverage.toList) ∅
  unresolved := contributions.foldl (fun unresolved c => unresolved ∪ c.unresolved) ∅
  shortfalls := contributions.flatMap (·.shortfalls)

/-- Say something of a target that no router mentions. -/
def completeTarget (allAnswered : Bool) (c : RouteContribution) (target : RouteTarget) :
    RouteContribution :=
  if c.coverage.contains target then c
  else if allAnswered then { c with coverage := c.coverage.insert target .settledAbsent }
  else
    { c with
      coverage := c.coverage.insert target .unresolved
      unresolved := c.unresolved.insert target }

def completeTargets (c : RouteContribution) (targets : BTreeSet RouteTarget) (allAnswered : Bool) :
    RouteContribution := targets.toList.foldl (completeTarget allAnswered) c

/-- How a failure is recorded. Where the cut would land inside a character, the call panics. -/
def boundedError (router : String) (error : RouterError) : Option String :=
  truncateText (router ++ ": " ++ error.text) maxTextBytes

/-- Put the name of its router on a contribution, and check that it is within its own
bounds. -/
def attributed (c : RouteContribution) (router : String) : Except RouterError RouteContribution := do
  let named := { c with destinations := c.destinations.map fun d => { d with router := router } }
  bounded "route shortfalls" named.shortfalls.length maxShortfalls
  named.validateBounds
  .ok named

structure Composer where
  contributions : List RouteContribution
  answered : List Bool
  shortfalls : List String
  discarded : Nat
  targets : BTreeSet RouteTarget
  -- Recording a failure panicked: the call that did so never returns.
  panicked : Bool

namespace Composer

def new (routers : Nat) (targets : BTreeSet RouteTarget) : Composer :=
  ⟨.replicate routers .none, .replicate routers false, [], 0, targets, false⟩

def record (c : Composer) (shortfall : String) : Composer :=
  if c.shortfalls.length < maxShortfalls then { c with shortfalls := c.shortfalls ++ [shortfall] }
  else { c with discarded := min (c.discarded + 1) (2 ^ 64 - 1) }

def fail (c : Composer) (router : String) (error : RouterError) : Composer :=
  match boundedError router error with
  | some text => c.record text
  | none => { c with panicked := true }

/-- What a call returns, unless it panicked. -/
def returned {α : Type} (c : Composer) (result : α) : Option α :=
  if c.panicked then none else some result

def allAnswered (c : Composer) : Bool := c.answered.all id

def merged (c : Composer) : RouteContribution :=
  completeTargets (combine c.contributions) c.targets c.allAnswered

def put (c : Composer) (index : Nat) (contribution : RouteContribution) : Composer :=
  { c with
    contributions := c.contributions.set index contribution
    answered := c.answered.set index true }

/-- A contribution that takes the whole out of its bounds is not put in. -/
def accept (c : Composer) (index : Nat) (router : String) (contribution : RouteContribution) :
    Composer :=
  match (c.put index contribution).merged.validateBounds with
  | .ok () => c.put index contribution
  | .error error => c.fail router error

def shortfallBound (discarded : Nat) : String :=
  "chain: " ++ toString discarded ++ " further route shortfalls discarded beyond the " ++
    toString maxShortfalls ++ "-entry bound"

def combined (c : Composer) : RouteContribution :=
  let merged := c.merged
  let shortfalls := merged.shortfalls ++ c.shortfalls
  let (shortfalls, discarded) :=
    if maxShortfalls ≤ shortfalls.length then
      (shortfalls.take (maxShortfalls - 1),
        min (c.discarded + (shortfalls.length - maxShortfalls + 1)) (2 ^ 64 - 1))
    else (shortfalls, c.discarded)
  { merged with
    shortfalls := if 0 < discarded then shortfalls ++ [shortfallBound discarded] else shortfalls }

/-- What the routers before one have made of the request. -/
def upstreamPlan (c : Composer) (index revision : Nat) : RoutePlan :=
  let answered := decide (c.contributions.length ≤ index) && c.allAnswered
  ((RoutePlan.fromContribution revision
    (completeTargets (combine (c.contributions.take index)) c.targets answered)).toOption).getD .none

def plan (c : Composer) (revision : Nat) : Except RouterError RoutePlan :=
  RoutePlan.fromContribution revision c.combined

/-- Take what a router contributes, or record why it contributes nothing new. -/
def take (c : Composer) (index : Nat) (router : String)
    (result : Except RouterError RouteContribution) : Composer :=
  match result.bind (attributed · router) with
  | .ok contribution => c.accept index router contribution
  | .error error => c.fail router error

end Composer

variable {Session : Type}

def validateNames (routers : List (Router Session)) : Except RouterError Unit := do
  let _ ← routers.foldlM (fun (names : BTreeSet String) router => do
    require (router.name ≠ "") (RouterError.refused "router name is empty")
    bounded "router name" router.name.utf8ByteSize maxTextBytes
    require (router.name ∉ names) (.refused ("duplicate router name: " ++ router.name))
    .ok (names.insert router.name)) ∅
  .ok ()

def exactInputs (declared : List Query) (inputs : List QuerySnapshot) : Except RouterError Unit :=
  require (declared.length = inputs.length)
    (.refused "router input count does not match declaration")

variable (T : TagReader) (request : RouteRequest)

/-- What one router makes of its inputs now. -/
def Router.previewed (router : Router Session) (upstream : RoutePlan) (inputs : List QuerySnapshot) :
    Except RouterError RouteContribution := do
  let declared ← router.queries request upstream
  exactInputs declared inputs
  router.preview request upstream inputs

/-- One pass over the routers, each of which sees what those before it contribute. -/
def previewAll (composer : Composer) (index : Nat) :
    List (Router Session × List QuerySnapshot) → Composer
  | [] => composer
  | (router, inputs) :: rest =>
    previewAll (composer.take index router.name
      (router.previewed request (composer.upstreamPlan index 1) inputs)) (index + 1) rest

/-- The names and the inputs of a chain that is asked for. -/
def validateChain (routers : List (Router Session)) (inputs : List (List QuerySnapshot)) :
    Except RouterError Unit := do
  validateNames routers
  require (inputs.length = routers.length) (.refused "router input groups do not match routers")

def preview (routers : List (Router Session)) (inputs : List (List QuerySnapshot)) :
    Option (Except RouterError RoutePlan) :=
  match validateChain routers inputs with
  | .error error => some (.error error)
  | .ok () =>
    let composer := previewAll request (.new routers.length (request.targets T)) 0 (routers.zip inputs)
    composer.returned (composer.plan 1)

/-- One router of an opened chain: how many inputs it declared, and its session if it has
one. -/
structure OpenedRouter (Session : Type) where
  router : Router Session
  count : Nat
  session : Option Session

structure OpenedChain (Session : Type) where
  routers : List (OpenedRouter Session)
  composer : Composer
  closed : Bool

/-- How many queries a router declares, and the session it opens over its inputs. -/
def Router.opened (router : Router Session) (upstream : RoutePlan) (inputs : List QuerySnapshot) :
    Nat × Except RouterError Session :=
  match router.queries request upstream with
  | .ok declared =>
    (declared.length, (exactInputs declared inputs).bind fun _ =>
      router.openSession request upstream inputs)
  | .error error => (0, .error error)

/-- A session is kept if what it contributes at first is within its own bounds. -/
def openOne (composer : Composer) (index : Nat) (router : Router Session)
    (inputs : List QuerySnapshot) : OpenedRouter Session × Composer :=
  let (count, result) := router.opened request (composer.upstreamPlan index 1) inputs
  match result with
  | .ok session =>
    match attributed (router.current session) router.name with
    | .ok contribution =>
      (⟨router, count, some session⟩, composer.accept index router.name contribution)
    | .error error => (⟨router, count, none⟩, composer.fail router.name error)
  | .error error => (⟨router, count, none⟩, composer.fail router.name error)

def openAll (composer : Composer) (index : Nat) :
    List (Router Session × List QuerySnapshot) → List (OpenedRouter Session) × Composer
  | [] => ([], composer)
  | (router, inputs) :: rest =>
    let (opened, composer) := openOne request composer index router inputs
    let (later, composer) := openAll composer (index + 1) rest
    (opened :: later, composer)

def openChain (routers : List (Router Session)) (inputs : List (List QuerySnapshot)) :
    Option (Except RouterError (OpenedChain Session)) :=
  match validateChain routers inputs with
  | .error error => some (.error error)
  | .ok () =>
    let (opened, composer) :=
      openAll request (.new routers.length (request.targets T)) 0 (routers.zip inputs)
    composer.returned (.ok ⟨opened, composer, false⟩)

omit T request

/-- A router without a session is passed by. -/
def replaceOne (composer : Composer) (index : Nat) (opened : OpenedRouter Session)
    (inputs : List QuerySnapshot) : OpenedRouter Session × Composer :=
  match opened.session with
  | none => (opened, composer)
  | some session =>
    let (result, session) := opened.router.replace session (composer.upstreamPlan index 1) inputs
    ({ opened with session := some session }, composer.take index opened.router.name result)

def replaceAll (composer : Composer) (index : Nat) :
    List (OpenedRouter Session) → List QuerySnapshot → List (OpenedRouter Session) × Composer
  | [], _ => ([], composer)
  | opened :: rest, inputs =>
    let (opened', composer) := replaceOne composer index opened (inputs.take opened.count)
    let (later, composer) := replaceAll composer (index + 1) rest (inputs.drop opened.count)
    (opened' :: later, composer)

namespace OpenedChain

def current (chain : OpenedChain Session) : RouteContribution := chain.composer.combined

def replace (chain : OpenedChain Session) (inputs : List QuerySnapshot) :
    Option (Except RouterError RouteContribution × OpenedChain Session) :=
  if chain.closed then some (.error .closed, chain)
  else if inputs.length ≠ (chain.routers.map (·.count)).sum then
    some (.error (.refused "router replacement input count changed"), chain)
  else
    let (routers, composer) := replaceAll chain.composer 0 chain.routers inputs
    let next := { chain with routers := routers, composer := composer }
    composer.returned (.ok next.current, next)

def close (chain : OpenedChain Session) : OpenedChain Session := { chain with closed := true }

end OpenedChain

end Fava.Routing
