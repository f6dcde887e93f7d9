import Fava.Observe.Slot

namespace Fava.Observe

open Std Fava.Lib Fava.Nostr Fava.Relay Fava.Subscriptions

/-- One relay's share of an observation. -/
structure Assigned where
  relay : RelayUrl
  demand : RelayDemand
  withdrawn : Bool

structure Observation where
  id : ObservationId
  access : Authority
  active : Bool
  relays : List Assigned

/-- What the application currently observes, in the order of observation ids. The
observers change it at any time; the engine reads it, and its reports may overwrite that
a share was withdrawn. -/
abbrev Registry := List Observation

namespace Registry

/-- Current demand at one relay, with the authority it needs. -/
def desired (r : Registry) (relay : RelayUrl) : List (RelayDemand × Authority) :=
  (r.filter Observation.active).flatMap fun o =>
    (o.relays.filter fun a => !a.withdrawn && a.relay = relay).map fun a => (a.demand, o.access)

/-- The relays some demand names, ascending. -/
def relays (r : Registry) : List RelayUrl :=
  (ExtTreeSet.ofList ((r.filter Observation.active).flatMap fun o =>
    (o.relays.filter fun a => !a.withdrawn).map Assigned.relay) : BTreeSet RelayUrl).toList

def filterFor (r : Registry) (owner : ObservationId) (relay : RelayUrl) : Option Filter := do
  let observation ← r.find? fun o => o.id = owner
  let assigned ← observation.relays.find? fun a => a.relay = relay
  some assigned.demand.filter

end Registry

/-- One running installation of a plan: what it was asked to open and what the
session answered so far. -/
structure Installing where
  relay : RelayUrl
  generation : Round
  revision : Nat
  plan : SubscriptionPlan
  opened : List (Option SubscriptionId)

inductive Task
  | acquire (relay : RelayUrl) (generation : Round)
  | admission (relay : RelayUrl) (generation : Round)
  | listen (relay : RelayUrl) (generation : Round)
  | fetch (relay : RelayUrl) (generation : Round)

inductive Item
  | event (event : Event)
  | endOfStoredEvents
  | closed (reason : BoundedText)
  | lost (dropped : Nat)
  | ended

/-- One provider completion, carrying the generation it was issued under. A finished
installation reports its tokens and the closed ids with the plan. -/
inductive Report
  | acquired (relay : RelayUrl) (generation : Round) (session : Session)
  | refused (relay : RelayUrl) (generation : Round)
  | installed (done : Installing)
  | flush (relay : RelayUrl) (generation : Round)
  | connectionReplaced (relay : RelayUrl) (generation : Round)
  | carried (relay : RelayUrl) (generation : Round) (subscription : SubscriptionId) (item : Item)
  | constraints (relay : RelayUrl) (generation : Round) (constraints : RelayReadConstraints)

/-- What remains of one reconciliation pass. -/
inductive Visit
  | relay (relay : RelayUrl) (items : List (RelayDemand × Authority))
  | slot (relay : RelayUrl) (generation : Round)
  | flush (relay : RelayUrl) (generation : Round)

/-- One subscription an installation opened. Beside its own token it keeps how it was
planned, whether the installation was recorded, and under which limits a later plan
last retained it; no code reads these three. -/
structure Handle where
  relay : RelayUrl
  generation : Round
  id : SubscriptionId
  planned : PlannedSubscription
  cancelled : Bool
  recorded : Bool
  replanned : Option RelayReadConstraints

def Handle.token (h : Handle) : Token := ⟨h.generation, h.id⟩

/-- One item of an opened subscription that the owner processed: who was told, and
who the subscription serves. -/
structure Delivery where
  owed : List ObservationId
  given : List ObservationId

/-- One claim that a subscription's stored window is complete. -/
structure Claim where
  generation : Round
  subscription : SubscriptionId
  owner : ObservationId

/-- The bound of the report queue. -/
def reportBound : Nat := 1024

structure Engine where
  registry : Registry
  connections : Session → Authentication
  slots : List Slot
  rounds : Nat
  revisions : Nat
  changed : Bool
  dirty : Bool
  todo : List Visit
  inbox : List Report
  tasks : List Task
  installing : List Installing
  -- Generations whose token has fired; a handle of such a generation is dropped.
  fired : List Round
  handles : List Handle
  -- Handles whose connection is over: they carry nothing more.
  finished : List Token
  deliveries : List Delivery
  claims : List Claim

/-- Code the engine calls: the planner, and what decides whether an event may be
admitted. -/
structure Providers where
  planner : SubscriptionPlanner
  verify : Event → Bool
  matchEvent : Filter → Event → Bool

namespace Engine

def start : Engine :=
  ⟨[], fun _ => .unoffered, [], 0, 0, false, true, [], [], [], [], [], [], [], [], []⟩

def isSlot (relay : RelayUrl) (generation : Round) (s : Slot) : Bool :=
  s.relay = relay && s.generation = generation

def slot (e : Engine) (relay : RelayUrl) (generation : Round) : Option Slot :=
  e.slots.find? (isSlot relay generation)

def withSlot (e : Engine) (relay : RelayUrl) (generation : Round) (change : Slot → Slot) : Engine :=
  { e with slots := adjust (isSlot relay generation) change e.slots }

/-- The first of a relay's slots that can reach `authority`. -/
def slotFor (e : Engine) (relay : RelayUrl) (authority : Authority) : Option Slot :=
  e.slots.find? fun s => s.relay = relay && s.canServe e.connections authority

def spawn (e : Engine) (task : Task) : Engine := { e with tasks := e.tasks ++ [task] }

def arm (e : Engine) (relay : RelayUrl) (generation : Round) : Engine :=
  e.spawn (.admission relay generation)

/-- Current demand this exact slot can serve: what is attached to it, and what it is
the first of its relay's slots to reach. -/
def demandForSlot (e : Engine) (relay : RelayUrl) (generation : Round) : List RelayDemand :=
  match e.slot relay generation with
  | none => []
  | some s =>
    ((e.registry.desired relay).filter fun (item, authority) =>
      s.serves item.id || (e.slotFor relay authority).any fun c => c.generation = generation).map
        Prod.fst

/-- Fire one generation's token: every handle it governs is dropped. -/
def cancel (e : Engine) (generation : Round) : Engine :=
  { e with fired := generation :: e.fired }

def cancelTokens (e : Engine) (tokens : List Token) : Engine :=
  { e with handles := e.handles.map fun h =>
      if h.token ∈ tokens then { h with cancelled := true } else h }

def releaseRelay (e : Engine) (relay : RelayUrl) : Engine :=
  { e with
    slots := e.slots.filter fun s => s.relay ≠ relay
    fired := (e.slots.filter fun s => s.relay = relay).map (·.generation) ++ e.fired }

def releaseSlot (e : Engine) (relay : RelayUrl) (generation : Round) : Engine :=
  match e.slot relay generation with
  | none => e
  | some _ => { e with slots := e.slots.eraseP (isSlot relay generation) }.cancel generation

/-- Acquire the relay connection needed to reach `authority`, once. -/
def establish (e : Engine) (relay : RelayUrl) (authority : Authority) : Engine :=
  match e.slotFor relay authority with
  | some s =>
    if s.busy || s.session.isSome then e
    else (e.withSlot relay s.generation fun s => { s with busy := true }).spawn
      (.acquire relay s.generation)
  | none =>
    match allocate e.rounds with
    | none => e
    | some generation =>
      { e with
        rounds := generation
        slots := e.slots ++ [{ Slot.new relay generation authority with busy := true }]
        tasks := e.tasks ++ [.acquire relay generation] }

/-- Remember under which limits a plan retained the subscriptions it attributes. -/
def replan (generation : Round) (constraints : RelayReadConstraints) (plan : SubscriptionPlan)
    (handles : List Handle) : List Handle :=
  handles.map fun h =>
    if h.generation = generation ∧ plan.attribution.contains h.id then
      { h with replanned := some constraints }
    else h

/-- Hand the plan's diff to the wire. -/
def execute (e : Engine) (relay : RelayUrl) (generation : Round)
    (constraints : RelayReadConstraints) (plan : SubscriptionPlan) : Engine :=
  let recorded := { e with handles := replan generation constraints plan e.handles }
  if plan.isNoop then
    recorded.withSlot relay generation fun s =>
      s.rebase ((s.recordCompleteness plan).recordInstalled plan [] [])
  else
    { recorded.withSlot relay generation fun s =>
        { s with toHolding := s.recordCompleteness plan } with
      installing := e.installing ++ [⟨relay, generation, plan.revision, plan, []⟩] }

/-- Close the admission window and plan this relay session once. -/
def flush (P : Providers) (e : Engine) (relay : RelayUrl) (generation : Round) : Engine :=
  let demand := e.demandForSlot relay generation
  match e.slot relay generation with
  | none => e
  | some s =>
    if (s.uncovered demand).isEmpty && !s.orphaned demand then
      e.withSlot relay generation fun s => { s with armed := false }
    else
      match s.session with
      | none => (e.withSlot relay generation fun s => { s with armed := true }).arm relay generation
      | some _ =>
        match allocate e.revisions with
        | none => e.withSlot relay generation fun s => { s with armed := false }
        | some revision =>
          let issued := { e with revisions := revision }.withSlot relay generation fun s =>
            { s with armed := false, revision := some revision }
          match P.planner.plan relay demand s.constraints s.installed revision with
          | .error _ => issued
          | .ok plan =>
            if validatePlan relay demand s.constraints s.installed plan = .ok () then
              issued.execute relay generation s.constraints plan
            else issued

/-- Open the slots this relay's demand still needs, then visit all of its slots. -/
def visitRelay (e : Engine) (relay : RelayUrl) (items : List (RelayDemand × Authority)) : Engine :=
  let established := items.foldl (fun e (_, authority) =>
    if (e.slotFor relay authority).isNone then e.establish relay authority else e) e
  { established with
    todo := ((established.slots.filter fun s => s.relay = relay).map fun s =>
      Visit.slot relay s.generation) ++ established.todo }

def visitSlot (e : Engine) (relay : RelayUrl) (generation : Round) : Engine :=
  let demand := e.demandForSlot relay generation
  if demand.isEmpty then e.releaseSlot relay generation
  else
    match e.slot relay generation with
    | none => e
    | some s =>
      let (installed, credited) := Holding.attach s.settled s.installed demand
      let holding := { s.toHolding with installed := installed }
      let attached := { e.withSlot relay generation fun s => { s with installed := installed } with
        claims := e.claims ++ credited.map fun (id, owner) => ⟨generation, id, owner⟩ }
      if holding.orphaned demand then
        { attached with todo := .flush relay generation :: attached.todo }
      else if (holding.uncovered demand).isEmpty || s.armed then attached
      else (attached.withSlot relay generation fun s => { s with armed := true }).arm relay generation

/-- A relay no longer named by any demand loses every slot it holds; the others are
visited. -/
def reconcile (e : Engine) : Engine :=
  let vacated := (e.slots.map (·.relay)).filter fun relay => relay ∉ e.registry.relays
  let released := vacated.foldl releaseRelay e
  { released with
    todo := e.registry.relays.map fun relay => .relay relay (e.registry.desired relay) }

def acquired (e : Engine) (relay : RelayUrl) (generation : Round) (session : Session) : Engine :=
  match e.slot relay generation with
  | none => e
  | some s =>
    let held := ((e.withSlot relay generation fun s =>
      { s with session := some session, busy := false, armed := true }).spawn
        (.listen relay generation)).spawn (.fetch relay generation)
    if s.armed then held else held.arm relay generation

def refused (e : Engine) (relay : RelayUrl) (generation : Round) : Engine :=
  match allocate e.rounds with
  | none => e
  | some next =>
    let issued := { e with rounds := next }
    match e.slot relay generation with
    | none => issued
    | some _ =>
      { (issued.withSlot relay generation fun s =>
          { s.advance next with session := none }).cancel generation with dirty := true }

/-- All of a slot's unsent demand enters admission again. -/
def enterAdmission (e : Engine) (relay : RelayUrl) (generation : Round) : Engine :=
  match e.slot relay generation with
  | none => e
  | some s =>
    if (s.uncovered (e.demandForSlot relay generation)).isEmpty then e
    else (e.withSlot relay generation fun s => { s with armed := true }).arm relay generation

/-- A new generation is live: every request is void and the demand replays. -/
def reconnected (e : Engine) (relay : RelayUrl) (generation : Round) : Engine :=
  match allocate e.rounds with
  | none => e
  | some next =>
    match e.slot relay generation with
    | none => { e with rounds := next }
    | some s =>
      let advanced := ({ e with rounds := next }.withSlot relay generation
        (·.advance next)).cancel generation
      (if s.session.isSome then advanced.spawn (.listen relay next) else advanced).enterAdmission relay next

def connectionReplaced (e : Engine) (relay : RelayUrl) (generation : Round) : Engine :=
  match e.slot relay generation with
  | none => e
  | some _ => e.reconnected relay generation

-- What was opened is looked up by value, here and where a handle is accepted.
instance : LawfulBEq (Option SubscriptionId) := inferInstance

def record (done : Installing) (handles : List Handle) : List Handle :=
  handles.map fun h =>
    if h.generation = done.generation ∧ some h.id ∈ done.opened then { h with recorded := true }
    else h

/-- Install exactly what the transport accepted. A completion of an earlier revision
is refused. -/
def installed (e : Engine) (done : Installing) : Engine :=
  match e.slot done.relay done.generation with
  | none => e
  | some s =>
    if s.revision ≠ some done.revision then e
    else
      let (attended, tokens) := s.attend (done.opened.filterMap id) done.plan.close
      let holding := attended.recordInstalled done.plan done.opened done.plan.close
      let recorded := { e with handles := record done e.handles }
      (recorded.withSlot done.relay done.generation (·.rebase holding)).cancelTokens tokens

def admits (P : Providers) (filters : List Filter) (event : Event) : Bool :=
  !filters.isEmpty && P.verify event && filters.any (P.matchEvent · event)

/-- Who the subscription serves: the demand its slot has on record for it, or before
that the demand it was opened for. A closed one serves nobody. -/
def serving (e : Engine) (relay : RelayUrl) (generation : Round) (id : SubscriptionId) :
    List ObservationId :=
  match e.slot relay generation, e.handles.find? fun h => h.token = ⟨generation, id⟩ with
  | some s, some h =>
    if h.cancelled || generation ∈ e.fired then []
    else
      match s.installed[id]? with
      | some entry => entry.serves.toList.map DemandId.owner
      | none => h.planned.serves.toList.map DemandId.owner
  | _, _ => []

/-- One event the relay attributed to one subscription. -/
def carriedEvent (P : Providers) (e : Engine) (relay : RelayUrl) (generation : Round)
    (id : SubscriptionId) (event : Event) : Engine :=
  let filters := (e.handles.find? fun h => h.token = ⟨generation, id⟩).map (·.planned.filters)
  let owed := if filters.any (admits P · event) then e.serving relay generation id else []
  let given := match e.slot relay generation with
    | none => []
    | some s =>
      match s.installed[id]? with
      | none => []
      | some entry => if admits P entry.filters event then s.owners id else []
  { e with deliveries := e.deliveries ++ [⟨owed, given⟩] }

/-- The relay has sent everything it stored for one subscription. -/
def storedComplete (e : Engine) (relay : RelayUrl) (generation : Round) (id : SubscriptionId) :
    Engine :=
  let delivered := { e with
    deliveries := e.deliveries ++ [⟨e.serving relay generation id,
      ((e.slot relay generation).map fun s => s.owners id).getD []⟩] }
  match e.slot relay generation with
  | none => delivered
  | some s =>
    let settled := delivered.withSlot relay generation fun s =>
      { s with settled := s.settled.insert id true }
    if s.provesCompleteness id = .proven then
      let covered := match s.installed[id]? with
        | none => []
        | some entry => (entry.serves.toList.map DemandId.owner).filter fun owner =>
          (e.registry.filterFor owner relay).isSome
      { settled with
        claims := e.claims ++ (covered ++ s.owners id).map fun owner => ⟨generation, id, owner⟩ }
    else settled

def carried (P : Providers) (e : Engine) (relay : RelayUrl) (generation : Round)
    (id : SubscriptionId) (item : Item) : Engine :=
  match e.slot relay generation with
  | none => e
  | some _ =>
    match item with
    | .event event => e.carriedEvent P relay generation id event
    | .endOfStoredEvents => e.storedComplete relay generation id
    | .closed _ | .lost _ | .ended => e

def accept (P : Providers) (e : Engine) : Report → Engine
  | .acquired relay generation session => e.acquired relay generation session
  | .refused relay generation => e.refused relay generation
  | .installed done => e.installed done
  | .flush relay generation => e.flush P relay generation
  | .connectionReplaced relay generation => e.connectionReplaced relay generation
  | .carried relay generation id item => e.carried P relay generation id item
  | .constraints relay generation constraints =>
    e.withSlot relay generation fun s => { s with constraints := constraints }

def post (e : Engine) (report : Report) : Option Engine :=
  if e.inbox.length < reportBound then some { e with inbox := e.inbox ++ [report] } else none

/-- The installation opens its next planned request. The session never mints an
identifier twice, and a generation keeps one session. -/
def subscribe (e : Engine) (task : Nat) (outcome : Option SubscriptionId) : Option Engine := do
  let doing ← e.installing[task]?
  let planned ← doing.plan.opens[doing.opened.length]?
  let answered := { e with
    installing := e.installing.set task { doing with opened := doing.opened ++ [outcome] } }
  match outcome with
  | none => some answered
  | some id =>
    if e.handles.any fun h => h.token = ⟨doing.generation, id⟩ then none
    else some { answered with
      handles := e.handles ++
        [⟨doing.relay, doing.generation, id, planned, false, false, none⟩] }

end Engine

/-- What can happen next: the application or a connection changes, the owner takes its
next step, or one of the tasks it spawned does. -/
inductive Action
  | observe (registry : Registry)
  -- A report of how far a relay got takes the place of a withdrawal: nobody is told.
  | revive (registry : Registry)
  | authenticate (session : Session) (authentication : Authentication)
  | wake
  | reconcile
  | visit
  | receive
  | acquire (task : Nat) (outcome : Option Session)
  | elapse (task : Nat)
  | replace (task : Nat)
  | declare (task : Nat) (constraints : RelayReadConstraints)
  | subscribe (task : Nat) (outcome : Option SubscriptionId)
  | finish (task : Nat)
  | carry (handle : Nat) (item : Item)

open Engine in
/-- The transition function; `none` when the action is not enabled. -/
def step (P : Providers) (e : Engine) : Action → Option Engine
  | .observe registry => some { e with registry := registry, changed := true }
  | .revive registry => some { e with registry := registry }
  | .authenticate session authentication =>
    some { e with connections := Function.update e.connections session authentication }
  | .wake =>
    if e.todo = [] ∧ e.dirty = false ∧ e.changed = true then
      some { e with changed := false, dirty := true }
    else none
  | .reconcile =>
    if e.todo = [] ∧ e.dirty = true then some ({ e with dirty := false }.reconcile) else none
  | .visit =>
    match e.todo with
    | [] => none
    | .relay relay items :: rest => some ({ e with todo := rest }.visitRelay relay items)
    | .slot relay generation :: rest => some ({ e with todo := rest }.visitSlot relay generation)
    | .flush relay generation :: rest => some ({ e with todo := rest }.flush P relay generation)
  | .receive =>
    match e.inbox with
    | [] => none
    | report :: rest =>
      if e.todo = [] ∧ e.dirty = false then some ({ e with inbox := rest }.accept P report)
      else none
  | .acquire task outcome =>
    match e.tasks[task]? with
    | some (.acquire relay generation) =>
      { e with tasks := e.tasks.eraseIdx task }.post (match outcome with
        | some session => .acquired relay generation session
        | none => .refused relay generation)
    | _ => none
  | .elapse task =>
    match e.tasks[task]? with
    | some (.admission relay generation) =>
      { e with tasks := e.tasks.eraseIdx task }.post (.flush relay generation)
    | _ => none
  | .replace task =>
    match e.tasks[task]? with
    | some (.listen relay generation) => e.post (.connectionReplaced relay generation)
    | _ => none
  | .declare task constraints =>
    match e.tasks[task]? with
    | some (.fetch relay generation) =>
      { e with tasks := e.tasks.eraseIdx task }.post (.constraints relay generation constraints)
    | _ => none
  | .subscribe task outcome => e.subscribe task outcome
  | .finish task => do
    let doing ← e.installing[task]?
    if doing.opened.length = doing.plan.opens.length then
      Engine.post { e with installing := e.installing.eraseIdx task } (.installed doing)
    else none
  | .carry handle item => do
    let h ← e.handles[handle]?
    if h.cancelled || h.generation ∈ e.fired || h.token ∈ e.finished then none
    else
      let finished := match item with
        | .ended => h.token :: e.finished
        | _ => e.finished
      Engine.post { e with finished := finished } (.carried h.relay h.generation h.id item)

open Engine in
/-- What each action does, where it is enabled. -/
inductive Stepped (P : Providers) (e : Engine) : Action → Engine → Prop
  | observe (registry : Registry) :
      Stepped P e (.observe registry) { e with registry := registry, changed := true }
  | revive (registry : Registry) : Stepped P e (.revive registry) { e with registry := registry }
  | authenticate (session : Session) (authentication : Authentication) :
      Stepped P e (.authenticate session authentication)
        { e with connections := Function.update e.connections session authentication }
  | wake (idle : e.todo = [] ∧ e.dirty = false ∧ e.changed = true) :
      Stepped P e .wake { e with changed := false, dirty := true }
  | reconcile (idle : e.todo = [] ∧ e.dirty = true) :
      Stepped P e .reconcile { e with dirty := false }.reconcile
  | visitRelay {relay : RelayUrl} {items : List (RelayDemand × Authority)} {rest : List Visit}
      (todo : e.todo = .relay relay items :: rest) :
      Stepped P e .visit ({ e with todo := rest }.visitRelay relay items)
  | visitSlot {relay : RelayUrl} {generation : Round} {rest : List Visit}
      (todo : e.todo = .slot relay generation :: rest) :
      Stepped P e .visit ({ e with todo := rest }.visitSlot relay generation)
  | flush {relay : RelayUrl} {generation : Round} {rest : List Visit}
      (todo : e.todo = .flush relay generation :: rest) :
      Stepped P e .visit ({ e with todo := rest }.flush P relay generation)
  | receive {report : Report} {rest : List Report} (inbox : e.inbox = report :: rest)
      (idle : e.todo = [] ∧ e.dirty = false) :
      Stepped P e .receive ({ e with inbox := rest }.accept P report)
  | acquire {e' : Engine} {task : Nat} {relay : RelayUrl} {generation : Round}
      {outcome : Option Session} (here : e.tasks[task]? = some (.acquire relay generation))
      (posted : { e with tasks := e.tasks.eraseIdx task }.post (match outcome with
        | some session => .acquired relay generation session
        | none => .refused relay generation) = some e') :
      Stepped P e (.acquire task outcome) e'
  | elapse {e' : Engine} {task : Nat} {relay : RelayUrl} {generation : Round}
      (here : e.tasks[task]? = some (.admission relay generation))
      (posted : { e with tasks := e.tasks.eraseIdx task }.post (.flush relay generation) = some e') :
      Stepped P e (.elapse task) e'
  | replace {e' : Engine} {task : Nat} {relay : RelayUrl} {generation : Round}
      (here : e.tasks[task]? = some (.listen relay generation))
      (posted : e.post (.connectionReplaced relay generation) = some e') :
      Stepped P e (.replace task) e'
  | declare {e' : Engine} {task : Nat} {relay : RelayUrl} {generation : Round}
      {constraints : RelayReadConstraints} (here : e.tasks[task]? = some (.fetch relay generation))
      (posted : { e with tasks := e.tasks.eraseIdx task }.post
        (.constraints relay generation constraints) = some e') :
      Stepped P e (.declare task constraints) e'
  | deny {task : Nat} {doing : Installing} {planned : PlannedSubscription}
      (here : e.installing[task]? = some doing)
      (next : doing.plan.opens[doing.opened.length]? = some planned) :
      Stepped P e (.subscribe task none) { e with
        installing := e.installing.set task { doing with opened := doing.opened ++ [none] } }
  | subscribe {task : Nat} {id : SubscriptionId} {doing : Installing} {planned : PlannedSubscription}
      (here : e.installing[task]? = some doing)
      (next : doing.plan.opens[doing.opened.length]? = some planned)
      (unused : ¬(e.handles.any fun h => h.token = ⟨doing.generation, id⟩) = true) :
      Stepped P e (.subscribe task (some id)) { e with
        installing := e.installing.set task { doing with opened := doing.opened ++ [some id] }
        handles := e.handles ++ [⟨doing.relay, doing.generation, id, planned, false, false, none⟩] }
  | finish {e' : Engine} {task : Nat} {doing : Installing} (here : e.installing[task]? = some doing)
      (whole : doing.opened.length = doing.plan.opens.length)
      (posted : { e with installing := e.installing.eraseIdx task }.post (.installed doing) = some e') :
      Stepped P e (.finish task) e'
  | carry {e' : Engine} {handle : Nat} {item : Item} {h : Handle}
      (here : e.handles[handle]? = some h)
      (live : ¬(h.cancelled || h.generation ∈ e.fired || h.token ∈ e.finished) = true)
      (posted : { e with finished := match item with
          | .ended => h.token :: e.finished
          | _ => e.finished }.post (.carried h.relay h.generation h.id item) = some e') :
      Stepped P e (.carry handle item) e'

theorem Stepped.of_step {P : Providers} {e e' : Engine} {a : Action}
    (stepped : step P e a = some e') : Stepped P e a e' := by
  cases a with
  | observe registry =>
    cases stepped
    exact .observe registry
  | revive registry =>
    cases stepped
    exact .revive registry
  | authenticate session authentication =>
    cases stepped
    exact .authenticate session authentication
  | wake =>
    simp only [step, Option.ite_none_right_eq_some, Option.some.injEq] at stepped
    obtain ⟨idle, rfl⟩ := stepped
    exact .wake idle
  | reconcile =>
    simp only [step, Option.ite_none_right_eq_some, Option.some.injEq] at stepped
    obtain ⟨idle, rfl⟩ := stepped
    exact .reconcile idle
  | visit =>
    unfold step at stepped
    dsimp only at stepped
    split at stepped
    · cases stepped
    · rename_i todo
      cases stepped
      exact .visitRelay todo
    · rename_i todo
      cases stepped
      exact .visitSlot todo
    · rename_i todo
      cases stepped
      exact .flush todo
  | receive =>
    unfold step at stepped
    dsimp only at stepped
    split at stepped
    · cases stepped
    · rename_i inbox
      rw [Option.ite_none_right_eq_some, Option.some.injEq] at stepped
      obtain ⟨idle, rfl⟩ := stepped
      exact .receive inbox idle
  | acquire task outcome =>
    unfold step at stepped
    dsimp only at stepped
    split at stepped
    · rename_i here
      exact .acquire here stepped
    · cases stepped
  | elapse task =>
    unfold step at stepped
    dsimp only at stepped
    split at stepped
    · rename_i here
      exact .elapse here stepped
    · cases stepped
  | replace task =>
    unfold step at stepped
    dsimp only at stepped
    split at stepped
    · rename_i here
      exact .replace here stepped
    · cases stepped
  | declare task constraints =>
    unfold step at stepped
    dsimp only at stepped
    split at stepped
    · rename_i here
      exact .declare here stepped
    · cases stepped
  | subscribe task outcome =>
    simp only [step, Engine.subscribe, Option.bind_eq_bind, Option.bind_eq_some_iff] at stepped
    obtain ⟨doing, here, planned, next, stepped⟩ := stepped
    cases outcome with
    | none =>
      cases stepped
      exact .deny here next
    | some id =>
      rw [Option.ite_none_left_eq_some, Option.some.injEq] at stepped
      obtain ⟨unused, rfl⟩ := stepped
      exact .subscribe here next unused
  | finish task =>
    simp only [step, Option.bind_eq_bind, Option.bind_eq_some_iff,
      Option.ite_none_right_eq_some] at stepped
    obtain ⟨doing, here, whole, posted⟩ := stepped
    exact .finish here whole posted
  | carry handle item =>
    simp only [step, Option.bind_eq_bind, Option.bind_eq_some_iff,
      Option.ite_none_left_eq_some] at stepped
    obtain ⟨h, here, live, posted⟩ := stepped
    exact .carry here live posted

section OneRelay

/-- The texts of the two filters below. -/
def kindEncoder : Encoder where
  canonicalEncoding filter :=
    if filter.kinds = some {1} then "\x7b\"kinds\":[1]\x7d" else "\x7b\"kinds\":[2]\x7d"
  encodedBytes _ := .ok 45

def kindProviders : Providers :=
  ⟨StandardSubscriptionPlanner.planner kindEncoder, fun _ => true, fun _ _ => true⟩

/-- An observation of one kind at one relay. -/
def observes (kind : Nat) : Observation :=
  ⟨kind, .unauthenticated, true,
    [⟨"wss://relay", ⟨kind, 0, { Filter.new with kinds := some {kind} }, ⟨none, none, none⟩⟩, false⟩]⟩

/-- The relay is connected, and its first subscription opened and reported. -/
def openFirst : List Action :=
  [.observe [observes 1], .reconcile, .visit, .visit, .acquire 0 (some 5), .wake, .reconcile, .visit,
    .visit, .receive, .elapse 0, .receive, .subscribe 0 (some 1), .finish 0, .receive]

end OneRelay

end Fava.Observe
