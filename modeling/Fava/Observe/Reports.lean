import Mathlib.Data.List.Infix
import Fava.Observe.Evidence
import Fava.Observe.Frame

namespace Fava.Observe

open Std Fava.Lib Fava.Nostr Fava.Relay Fava.Subscriptions

/-- How a reason is printed. -/
def ShortfallReason.debug : ShortfallReason → String
  | .subscriptionsExhausted required maximum =>
    "SubscriptionsExhausted \x7b required: " ++ toString required ++ ", maximum: " ++
      toString maximum ++ " \x7d"
  | .messageTooLarge bytes maximum =>
    "MessageTooLarge \x7b bytes: " ++ toString bytes ++ ", maximum: " ++ toString maximum ++ " \x7d"
  | .filterLimitExceeded required maximum =>
    "FilterLimitExceeded \x7b required: " ++ toString required ++ ", maximum: " ++
      toString maximum ++ " \x7d"

def EoseCompleteness.debug : EoseCompleteness → String
  | .proven => "Proven"
  | .limitedRequest => "LimitedRequest"
  | .relayDefaultLimit => "RelayDefaultLimit"

def roundsExhausted : String := "round sequence is exhausted"

def revisionsExhausted : String := "plan-revision sequence is exhausted"

/-- Classify a transport failure as an expired deadline, or else a disconnect. -/
def failureState (detail : BoundedText) : RelaySourceState :=
  if "EstablishTimeout".toList <:+: detail.text.toList then .timedOut .establish 0
  else if "IdleTimeout".toList <:+: detail.text.toList then .timedOut .idle 0
  else .disconnected detail

/-- The first running subscription that serves the demand. -/
def Holding.serving (h : Holding) (d : DemandId) : Option SubscriptionId :=
  (h.installed.toList.find? fun e => e.2.serves.contains d).map Prod.fst

def Registry.demandId (r : Registry) (owner : ObservationId) (relay : RelayUrl) : Option DemandId := do
  let observation ← r.find? fun o => o.id = owner
  let assigned ← observation.relays.find? fun a => a.relay = relay
  some assigned.demand.id

open Evidence.State

namespace Engine

/-- Tell the owners how far a relay has got. -/
def publishStates (relay : RelayUrl) (owners : List ObservationId) (generation : Option Round)
    (state : RelaySourceState) : List Op :=
  owners.map fun owner => .recordState owner relay generation state

/-- Tell every observation the slot currently serves how far it has got. -/
def publishStateForRelay (e : Engine) (relay : RelayUrl) (generation : Round)
    (state : RelaySourceState) : List Op :=
  publishStates relay ((e.demandForSlot relay generation).map RelayDemand.owner) (some generation) state

def publishForSubscription (e : Engine) (relay : RelayUrl) (generation : Round) (id : SubscriptionId)
    (state : RelaySourceState) : List Op :=
  match e.slot relay generation with
  | none => []
  | some s => publishStates relay (s.owners id) (some generation) state

def publishOwnerRefusal (relay : RelayUrl) (demand : List RelayDemand) (generation : Option Round)
    (error : String) : List Op :=
  publishStates relay (demand.map RelayDemand.owner) generation (.ownerRefused (.new error))

/-- What a plan could not carry of one demand. -/
def shortfall (planned : Option SubscriptionPlan) (item : RelayDemand) : Option RelayShortfall := do
  let plan ← planned
  let entry ← plan.shortfalls.find? fun entry => entry.demand = item.id
  some ⟨[item.branch], .new (ShortfallReason.debug entry.reason)⟩

/-- Publish who shares each request, and what the plan could not carry. -/
def publishPlan (e : Engine) (relay : RelayUrl) (generation : Round) (cohort : List RelayDemand)
    (planned : Option SubscriptionPlan) : List Op :=
  match e.slot relay generation with
  | none => []
  | some s =>
    let revision := match planned with
      | none => s.revision.getD 0
      | some plan => plan.revision
    cohort.flatMap fun item =>
      [.recordSharing item.owner relay revision
          (((s.serving item.id).map fun wire => s.owners wire).getD []) (shortfall planned item),
        .recordPlan item.owner ⟨revision, [relay], s.installed.size⟩]

/-- Report that an EOSE proved less than the stored window. -/
def publishShortfall (e : Engine) (relay : RelayUrl) (generation : Round) (id : SubscriptionId)
    (completeness : EoseCompleteness) (now : Timestamp) : List Op :=
  match e.slot relay generation with
  | none => []
  | some s =>
    (s.owners id).flatMap fun owner =>
      [.recordSharing owner relay (s.revision.getD 0) (s.owners id) (some
          ⟨((e.registry.demandId owner relay).map DemandId.branch).toList,
            .new (EoseCompleteness.debug completeness)⟩),
        .recordState owner relay (some generation) (.opened now)]

/-- What is told while a slot is opened for one demand. -/
def establishWrites (e : Engine) (relay : RelayUrl) (item : RelayDemand) (authority : Authority) :
    List Op :=
  match e.slotFor relay authority with
  | some s =>
    if s.busy || s.session.isSome then []
    else publishStates relay [item.owner] (some s.generation) .connecting
  | none =>
    match allocate e.rounds with
    | none => publishOwnerRefusal relay [item] none roundsExhausted
    | some generation => publishStates relay [item.owner] (some generation) .connecting

def visitRelayWrites (e : Engine) (relay : RelayUrl) (items : List (RelayDemand × Authority)) :
    List Op :=
  (items.foldl (fun (e, writes) (item, authority) =>
    if (e.slotFor relay authority).isNone then
      (e.establish relay authority, writes ++ e.establishWrites relay item authority)
    else (e, writes)) (e, [])).2

/-- What is told while current demand is attached to a slot. -/
def visitSlotWrites (e e' : Engine) (relay : RelayUrl) (generation : Round) (now : Timestamp) :
    List Op :=
  let demand := e.demandForSlot relay generation
  match e.slot relay generation with
  | none => []
  | some s =>
    if demand.any fun item => (Holding.joins s.installed item).isSome then
      e'.publishPlan relay generation demand none ++
        publishStates relay ((Holding.attach s.settled s.installed demand).2.map Prod.snd)
          (some generation) (.storedEventsComplete now)
    else []

def flushWrites (P : Providers) (e e' : Engine) (relay : RelayUrl) (generation : Round) : List Op :=
  let demand := e.demandForSlot relay generation
  match e.slot relay generation with
  | none => []
  | some s =>
    if (s.uncovered demand).isEmpty && !s.orphaned demand then []
    else
      match s.session with
      | none => []
      | some _ =>
        match allocate e.revisions with
        | none => publishOwnerRefusal relay demand (some generation) revisionsExhausted
        | some revision =>
          match P.planner.plan relay demand s.constraints s.installed revision with
          | .error _ => []
          | .ok plan =>
            if validatePlan relay demand s.constraints s.installed plan = .ok () ∧ plan.isNoop then
              e'.publishPlan relay generation demand (some plan)
            else []

def refusedWrites (e e' : Engine) (relay : RelayUrl) (generation : Round) (detail : BoundedText) :
    List Op :=
  match allocate e.rounds with
  | none =>
    publishOwnerRefusal relay (e.demandForSlot relay generation) (some generation) roundsExhausted
  | some next =>
    match e.slot relay generation with
    | none => []
    | some _ => e'.publishStateForRelay relay next (failureState detail)

def reconnectedWrites (e e' : Engine) (relay : RelayUrl) (generation : Round) : List Op :=
  match e.slot relay generation with
  | none => []
  | some _ =>
    match allocate e.rounds with
    | none =>
      publishOwnerRefusal relay (e.demandForSlot relay generation) (some generation) roundsExhausted
    | some next => e'.publishStateForRelay relay next .connecting

/-- Only a subscription the plan opened has a transition to report. -/
def installedWrites (e e' : Engine) (done : Installing) (now : Timestamp) : List Op :=
  match e.slot done.relay done.generation, e'.slot done.relay done.generation with
  | some s, some s' =>
    if s.revision ≠ some done.revision then []
    else
      e'.publishPlan done.relay done.generation (e'.demandForSlot done.relay done.generation)
          (some done.plan) ++
        publishStates done.relay ((done.opened.filterMap id).flatMap fun id => s'.owners id)
          (some done.generation) (.opened now)
  | _, _ => []

def carriedWrites (e : Engine) (relay : RelayUrl) (generation : Round) (id : SubscriptionId)
    (item : Item) (now : Timestamp) : List Op :=
  match e.slot relay generation with
  | none => []
  | some s =>
    match item with
    | .endOfStoredEvents =>
      if s.provesCompleteness id = .proven then
        e.publishForSubscription relay generation id (.storedEventsComplete now)
      else e.publishShortfall relay generation id (s.provesCompleteness id) now
    | .closed reason => e.publishForSubscription relay generation id (.refused reason now)
    | .event _ | .lost _ | .ended => []

/-- The calls of the registry a step of the owner makes, at a time `now`; a refusal comes
with the detail the transport gave. -/
def writes (P : Providers) (e e' : Engine) (a : Action) (now : Timestamp) (detail : BoundedText) :
    List Op :=
  match a with
  | .visit =>
    match e.todo with
    | .relay relay items :: _ => e.visitRelayWrites relay items
    | .slot relay generation :: _ => e.visitSlotWrites e' relay generation now
    | .flush relay generation :: _ => e.flushWrites P e' relay generation
    | [] => []
  | .receive =>
    match e.inbox with
    | .refused relay generation :: _ => e.refusedWrites e' relay generation detail
    | .installed done :: _ => e.installedWrites e' done now
    | .flush relay generation :: _ => e.flushWrites P e' relay generation
    | .connectionReplaced relay generation :: _ => e.reconnectedWrites e' relay generation
    | .carried relay generation id item :: _ => e.carriedWrites relay generation id item now
    | .acquired _ _ _ :: _ | .constraints _ _ _ :: _ | [] => []
  | _ => []

/-- What is told when the state of one session's connection changed. -/
def connectionWrites (e : Engine) (relay : RelayUrl) (generation : Round) (state : Connection)
    (now : Timestamp) : List Op :=
  match e.slot relay generation with
  | none => []
  | some s =>
    (match s.requested, state.authentication.progress with
      | .asAccount _, .requested challenge =>
        e.publishStateForRelay relay generation (.authenticationRequired (.requested challenge) now)
      | _, _ => []) ++
    match state.connectivity with
    | .disconnected detail none => e.publishStateForRelay relay generation (.disconnected detail)
    | .disconnected detail (some attempts) =>
      e.publishStateForRelay relay generation (.unreachable attempts detail)
    | .connecting | .connected => []

/-- The owner itself takes the step; the other steps are taken by its tasks. -/
def ownerTakes : Action → Bool
  | .wake | .reconcile | .visit | .receive => true
  | _ => false

end Engine

/-- Calls the application makes of the registry. -/
def Evidence.State.Op.byApplication : Op → Bool
  | .install | .installChild _ | .activateChild _ _ | .assign _ _ _ _ _ _ | .withdraw _
  | .recordCoalesced _ _ => true
  | .recordState _ _ _ _ | .recordSharing _ _ _ _ _ | .recordPlan _ _ => false

/-- The engine with the registry it shares with the application, and the calls the owner
still has to make of it. -/
structure Watch where
  engine : Engine
  registry : Evidence.State
  pending : List Op

namespace Watch

def start : Watch := ⟨.start, .start, []⟩

inductive Act
  | application (op : Op)
  | engine (a : Action) (now : Timestamp) (detail : BoundedText)
  | connection (relay : RelayUrl) (generation : Round) (state : Connection) (now : Timestamp)
  | write

/-- The registry changes; the engine sees it, and is woken if demand changed. -/
def put (w : Watch) (registry : Evidence.State) : Watch :=
  { w with
    registry := registry
    engine := { w.engine with
      registry := registry.view
      changed := w.engine.changed || decide (registry.demandChanged ≠ w.registry.demandChanged) } }

/-- Every call of the registry is one step: the application can act between any two calls
of the owner. The owner goes on once it has made its calls. -/
def step (P : Providers) (w : Watch) : Act → Option Watch
  | .application op => if op.byApplication then (w.registry.apply op).map w.put else none
  | .engine a now detail =>
    match a with
    | .observe _ | .revive _ => none
    | _ =>
      if Engine.ownerTakes a ∧ w.pending ≠ [] then none
      else (Observe.step P w.engine a).map fun e =>
        { w with engine := e, pending := w.pending ++ w.engine.writes P e a now detail }
  | .connection relay generation state now =>
    if w.pending = [] ∧ w.engine.todo = [] ∧ w.engine.dirty = false then
      some { w with pending := w.engine.connectionWrites relay generation state now }
    else none
  | .write =>
    match w.pending with
    | [] => none
    | op :: rest => (w.registry.apply op).map fun registry => { w.put registry with pending := rest }

/-- What each action does, where it is enabled. -/
inductive Stepped (P : Providers) (w : Watch) : Act → Watch → Prop
  | application {op : Op} {registry : Evidence.State} (allowed : op.byApplication = true)
      (applied : w.registry.apply op = some registry) :
      Stepped P w (.application op) (w.put registry)
  | engine {a : Action} {now : Timestamp} {detail : BoundedText} {e : Engine}
      (notObserve : ∀ registry, a ≠ .observe registry) (notRevive : ∀ registry, a ≠ .revive registry)
      (free : ¬(Engine.ownerTakes a = true ∧ w.pending ≠ []))
      (moved : Observe.step P w.engine a = some e) : Stepped P w (.engine a now detail)
        { w with engine := e, pending := w.pending ++ w.engine.writes P e a now detail }
  | connection {relay : RelayUrl} {generation : Round} {state : Connection} {now : Timestamp}
      (idle : w.pending = [] ∧ w.engine.todo = [] ∧ w.engine.dirty = false) :
      Stepped P w (.connection relay generation state now)
        { w with pending := w.engine.connectionWrites relay generation state now }
  | write {op : Op} {rest : List Op} {registry : Evidence.State} (pending : w.pending = op :: rest)
      (applied : w.registry.apply op = some registry) :
      Stepped P w .write { w.put registry with pending := rest }

theorem Stepped.of_step {P : Providers} {w w' : Watch} {act : Act}
    (stepped : step P w act = some w') : Stepped P w act w' := by
  cases act with
  | application op =>
    simp only [step, Option.ite_none_right_eq_some, Option.map_eq_some_iff] at stepped
    obtain ⟨allowed, registry, applied, rfl⟩ := stepped
    exact .application allowed applied
  | engine a now detail =>
    unfold step at stepped
    dsimp only at stepped
    split at stepped
    · cases stepped
    · cases stepped
    · rename_i notObserve notRevive
      rw [Option.ite_none_left_eq_some, Option.map_eq_some_iff] at stepped
      obtain ⟨free, e, moved, rfl⟩ := stepped
      exact .engine notObserve notRevive free moved
  | connection relay generation state now =>
    simp only [step, Option.ite_none_right_eq_some, Option.some.injEq] at stepped
    obtain ⟨idle, rfl⟩ := stepped
    exact .connection idle
  | write =>
    unfold step at stepped
    dsimp only at stepped
    split at stepped
    · cases stepped
    · rename_i op rest pending
      rw [Option.map_eq_some_iff] at stepped
      obtain ⟨registry, applied, rfl⟩ := stepped
      exact .write pending applied

/-- The call the step makes of the registry. -/
def calls (w : Watch) : Act → Option Op
  | .application op => some op
  | .write => w.pending.head?
  | _ => none

end Watch

/-- The call says how far a relay got that the registry holds as withdrawn. -/
def Evidence.State.Op.revives (registry : Evidence.State) : Op → Bool
  | .recordState id session _ _ => registry.observations[id]?.any fun i => i.holdsWithdrawn session
  | _ => false

/-- No report of a state reaches demand that was withdrawn. -/
def Unrevived (w : Watch) (a : Watch.Act) : Prop := ∀ op ∈ w.calls a, op.revives w.registry = false

instance (w : Watch) (a : Watch.Act) : Decidable (Unrevived w a) :=
  inferInstanceAs (Decidable (∀ op ∈ w.calls a, op.revives w.registry = false))

/-- What the latest assignment of an observation wants; nothing before the first one. -/
def latest (acts : List Watch.Act) (id : ObservationId) : Evidence.Wanted :=
  (acts.reverse.findSome? fun act =>
    match act with
    | .application (.assign id' _ _ wanted _ _) => if id' = id then some wanted else none
    | _ => none).getD ∅

theorem latest_append {acts : List Watch.Act} {act : Watch.Act} {id : ObservationId} :
    latest (acts ++ [act]) id = match act with
      | .application (.assign id' _ _ wanted _ _) => if id' = id then wanted else latest acts id
      | _ => latest acts id := by
  rw [latest, List.reverse_append, List.reverse_singleton, List.singleton_append, List.findSome?_cons]
  cases act with
  | application op =>
    cases op with
    | assign id' branch access wanted routeRevision withdrawal =>
      dsimp only
      by_cases same : id' = id
      · rw [if_pos same, if_pos same]
        rfl
      · rw [if_neg same, if_neg same]
        rfl
    | _ => rfl
  | _ => rfl

namespace Evidence

section Holds

variable {m : BTreeMap ObservationId Installed} {id k : ObservationId} {session : RelayUrl}
  {i : Installed} {a : Assigned} {change : Installed → Installed}

/-- The assignment an observation holds at a relay. -/
def held (m : BTreeMap ObservationId Installed) (id : ObservationId) (session : RelayUrl) :
    Option Assigned := m[id]?.bind fun i => i.relays[session]?

theorem held_insert : held (m.insert k i) id session =
    if k = id then i.relays[session]? else held m id session := by
  rw [held, BTreeMap.find_insert]
  by_cases same : k = id
  · rw [if_pos same, if_pos same, Option.bind_some]
  · rw [if_neg same, if_neg same, held]

theorem held_modify (keeps : ∀ i, (change i).relays = i.relays) :
    held (m.modify k change) id session = held m id session := by
  rw [held, held, ExtTreeMap.getElem?_modify]
  by_cases same : compare k id = .eq
  · rw [if_pos same, LawfulEqCmp.compare_eq_iff_eq.mp same]
    cases m[id]? with
    | none => rfl
    | some i => rw [Option.map_some, Option.bind_some, Option.bind_some, keeps]
  · rw [if_neg same]

theorem held_of_erase (here : held (m.erase k) id session = some a) : held m id session = some a := by
  rw [held, BTreeMap.find_erase] at here
  by_cases same : k = id
  · rw [if_pos same] at here
    cases here
  · rw [if_neg same] at here
    exact here

theorem held_of_foldl_erase {ks : List ObservationId}
    (here : held (ks.foldl (fun m k => m.erase k) m) id session = some a) :
    held m id session = some a := by
  induction ks generalizing m with
  | nil => exact here
  | cons k ks ih => exact held_of_erase (ih here)

end Holds

section Demands

variable {s s' : State} {id id' : ObservationId} {session session' : RelayUrl} {op : State.Op}

/-- The observation asks something of the relay, once it is active. -/
def State.Demands (s : State) (id : ObservationId) (session : RelayUrl) : Prop :=
  ∃ a, held s.observations id session = some a ∧ a.evidence.state.isWithdrawn = false

theorem demands_of_contribution (asked : session ∈ s.contribution id) : s.Demands id session := by
  unfold State.contribution at asked
  cases here : s.observations[id]? with
  | none =>
    rw [here] at asked
    exact (ExtTreeMap.not_mem_empty asked).elim
  | some i =>
    rw [here] at asked
    dsimp only at asked
    split at asked
    · rw [ExtTreeMap.mem_iff_isSome_getElem?, getElem?_contribution] at asked
      obtain ⟨x, found⟩ := Option.isSome_iff_exists.mp asked
      obtain ⟨a, found, current⟩ := Option.bind_eq_some_iff.mp found
      rw [Option.ite_none_left_eq_some, Bool.not_eq_true] at current
      refine ⟨a, ?_, current.1⟩
      rw [held, here, Option.bind_some, found]
    · exact (ExtTreeMap.not_mem_empty asked).elim

/-- A change of one observation's evidence at one relay keeps its demand, unless it takes
the place of a withdrawal. -/
theorem demands_updateRelay {change : RelayQueryEvidence → RelayQueryEvidence}
    (kept : ∀ a, held s.observations id session = some a → (change a.evidence).state.isWithdrawn = false →
      a.evidence.state.isWithdrawn = false)
    (demands : (s.updateRelay id session change).Demands id' session') : s.Demands id' session' := by
  obtain ⟨a, found, current⟩ := demands
  unfold State.updateRelay State.update at found
  cases here : s.observations[id]? with
  | none =>
    rw [here] at found
    exact ⟨a, found, current⟩
  | some i =>
    rw [here] at found
    dsimp only at found
    rw [held_insert] at found
    by_cases same : id = id'
    · subst same
      rw [if_pos rfl] at found
      cases assigned : i.relays[session]? with
      | none =>
        rw [assigned] at found
        refine ⟨a, ?_, current⟩
        rw [held, here, Option.bind_some]
        exact found
      | some b =>
        rw [assigned] at found
        dsimp only at found
        rw [BTreeMap.find_insert] at found
        by_cases relay : session = session'
        · subst relay
          rw [if_pos rfl, Option.some.injEq] at found
          subst found
          have before : held s.observations id session = some b := by
            rw [held, here, Option.bind_some, assigned]
          exact ⟨b, before, kept b before current⟩
        · rw [if_neg relay] at found
          refine ⟨a, ?_, current⟩
          rw [held, here, Option.bind_some]
          exact found
    · rw [if_neg same] at found
      exact ⟨a, found, current⟩

theorem demands_update {change : Installed → Installed × Bool}
    (kept : ∀ i, (change i).1.relays = i.relays)
    (demands : (s.update id change).Demands id' session') : s.Demands id' session' := by
  obtain ⟨a, found, current⟩ := demands
  refine ⟨a, ?_, current⟩
  unfold State.update at found
  cases here : s.observations[id]? with
  | none =>
    rw [here] at found
    exact found
  | some i =>
    rw [here] at found
    dsimp only at found
    rw [held_insert, kept] at found
    by_cases same : id = id'
    · subst same
      rw [held, here, Option.bind_some]
      rwa [if_pos rfl] at found
    · rwa [if_neg same] at found

theorem demands_installFor {parent : Option ObservationId} (installed : s.installFor parent = some s')
    (demands : s'.Demands id session) : s.Demands id session := by
  obtain ⟨a, found, current⟩ := demands
  refine ⟨a, ?_, current⟩
  unfold State.installFor at installed
  rw [Option.ite_none_left_eq_some, Option.some.injEq] at installed
  obtain ⟨-, rfl⟩ := installed
  have fresh : ∀ (k : ObservationId) (i : Installed), i.relays = ∅ →
      held (s.observations.insert k i) id session = some a → held s.observations id session = some a := by
    intro k i empty found
    rw [held_insert, empty, ExtTreeMap.getElem?_empty, Option.ite_none_left_eq_some] at found
    exact found.2
  cases parent with
  | none => exact fresh _ _ rfl found
  | some parent =>
    refine fresh _ _ rfl ((held_modify ?_).symm.trans found)
    exact fun _ => rfl

theorem demands_activateChild {parent child : ObservationId}
    (demands : (s.activateChild parent child).Demands id session) : s.Demands id session := by
  obtain ⟨a, found, current⟩ := demands
  refine ⟨a, ?_, current⟩
  unfold State.activateChild at found
  split at found
  · dsimp only at found
    have activated : held ((s.observations.modify parent fun p =>
        { p with activeChild := some child }).modify child fun i => { i with active := true }) id session =
          held s.observations id session := by
      rw [held_modify, held_modify]
      · exact fun _ => rfl
      · exact fun _ => rfl
    split at found
    · rwa [activated] at found
    · split at found
      · rwa [activated] at found
      · rw [← activated]
        refine (held_modify ?_).symm.trans (held_of_erase found)
        exact fun _ => rfl
  · exact found

theorem demands_withdraw (demands : (s.withdraw id').Demands id session) : s.Demands id session := by
  obtain ⟨a, found, current⟩ := demands
  refine ⟨a, ?_, current⟩
  unfold State.withdraw at found
  split at found
  · exact found
  · have kept := held_of_foldl_erase found
    split at kept
    · exact held_of_erase kept
    · refine held_of_erase ((held_modify ?_).symm.trans kept)
      exact fun _ => rfl

/-- After an assignment an observation asks only the wanted relays. -/
theorem demands_assign {branch : Nat} {access : Authority} {wanted : Wanted}
    {routeRevision : Option Nat} {withdrawal : RelayWithdrawal}
    (demands : (s.assign id' branch access wanted routeRevision withdrawal).Demands id session) :
    if id' = id then session ∈ wanted else s.Demands id session := by
  obtain ⟨a, found, current⟩ := demands
  unfold State.assign at found
  cases here : s.observations[id']? with
  | none =>
    rw [here] at found
    split
    · rename_i same
      subst same
      rw [held, here] at found
      cases found
    · exact ⟨a, found, current⟩
  | some i =>
    rw [here] at found
    have inserted : held (s.observations.insert id' { i with
        relays := BTreeMap.updateAll (i.retained wanted withdrawal) (Assigned.renew branch) wanted.toList
        access := access, routeRevision := routeRevision }) id session = some a := by
      dsimp only at found
      split at found <;> exact found
    rw [held_insert] at inserted
    by_cases same : id' = id
    · rw [if_pos same] at inserted ⊢
      by_contra left
      rw [BTreeMap.find_updateAll_toList, ExtTreeMap.getElem?_eq_none left, Option.elim_none] at inserted
      have out : wanted.contains session = false := by
        rw [← Bool.not_eq_true, ExtTreeMap.contains_iff_mem]
        exact left
      rw [retained_of_left out inserted] at current
      cases current
    · rw [if_neg same] at inserted ⊢
      exact ⟨a, inserted, current⟩

/-- Demand appears only by an assignment that wants it, or where a report of a state takes
the place of a withdrawal. -/
theorem demands_apply (applied : s.apply op = some s') (quiet : op.revives s = false)
    (demands : s'.Demands id session) :
    match op with
    | .assign id' _ _ wanted _ _ => if id' = id then session ∈ wanted else s.Demands id session
    | _ => s.Demands id session := by
  cases op with
  | install => exact demands_installFor applied demands
  | installChild parent => exact demands_installFor applied demands
  | activateChild parent child =>
    cases applied
    exact demands_activateChild demands
  | assign id' branch access wanted routeRevision withdrawal =>
    cases applied
    exact demands_assign demands
  | withdraw id' =>
    cases applied
    exact demands_withdraw demands
  | recordState id' session' generation next =>
    cases applied
    refine demands_updateRelay (fun a found _ => ?_) demands
    obtain ⟨i, here, assigned⟩ := Option.bind_eq_some_iff.mp found
    rw [Op.revives, here, Option.any_some, Installed.holdsWithdrawn, assigned, Option.any_some] at quiet
    exact quiet
  | recordSharing id' session' planRevision sharedWith shortfall =>
    cases applied
    exact demands_updateRelay (fun a _ current => current) demands
  | recordPlan id' plan =>
    cases applied
    exact demands_update (fun _ => rfl) demands
  | recordCoalesced id' dropped =>
    cases applied
    exact demands_update (fun _ => rfl) demands

end Demands

end Evidence

namespace Engine

/-- Calls the owner makes to say what it knows. -/
def Reporting (ops : List Op) : Prop := ∀ op ∈ ops, op.byApplication = false

variable {P : Providers} {e e' : Engine} {relay : RelayUrl} {generation : Round}
  {owners : List ObservationId} {demand : List RelayDemand} {now : Timestamp} {detail : BoundedText}
  {state : RelaySourceState} {id : SubscriptionId}

theorem Reporting.append {ops ops' : List Op} (first : Reporting ops) (second : Reporting ops') :
    Reporting (ops ++ ops') := List.forall_mem_append.mpr ⟨first, second⟩

theorem reporting_nil : Reporting [] := by simp [Reporting]

theorem reporting_publishStates {round : Option Round} :
    Reporting (publishStates relay owners round state) := by
  intro op told
  obtain ⟨owner, -, rfl⟩ := List.mem_map.mp told
  rfl

theorem reporting_publishPlan {planned : Option SubscriptionPlan} :
    Reporting (e.publishPlan relay generation demand planned) := by
  unfold publishPlan
  split
  · exact reporting_nil
  · intro op told
    obtain ⟨item, -, told⟩ := List.mem_flatMap.mp told
    rw [List.mem_pair] at told
    obtain rfl | rfl := told <;> rfl

theorem reporting_publishForSubscription :
    Reporting (e.publishForSubscription relay generation id state) := by
  unfold publishForSubscription
  split
  · exact reporting_nil
  · exact reporting_publishStates

theorem reporting_carriedWrites {item : Item} :
    Reporting (e.carriedWrites relay generation id item now) := by
  unfold carriedWrites
  split
  · exact reporting_nil
  · split
    · split
      · exact reporting_publishForSubscription
      · unfold publishShortfall
        split
        · exact reporting_nil
        · intro op told
          obtain ⟨owner, -, told⟩ := List.mem_flatMap.mp told
          rw [List.mem_pair] at told
          obtain rfl | rfl := told <;> rfl
    · exact reporting_publishForSubscription
    all_goals exact reporting_nil

theorem reporting_visitRelayWrites {items : List (RelayDemand × Authority)} :
    Reporting (e.visitRelayWrites relay items) := by
  unfold visitRelayWrites
  suffices all : ∀ (u : Engine) (ops : List Op), Reporting ops →
      Reporting (items.foldl (fun (e, writes) (item, authority) =>
        if (e.slotFor relay authority).isNone then
          (e.establish relay authority, writes ++ e.establishWrites relay item authority)
        else (e, writes)) (u, ops)).2 from all e [] reporting_nil
  induction items with
  | nil => exact fun _ _ told => told
  | cons item items ih =>
    intro u ops told
    rw [List.foldl_cons]
    dsimp only
    split
    · apply ih
      apply told.append
      unfold establishWrites publishOwnerRefusal
      repeat' split
      all_goals first | exact reporting_nil | exact reporting_publishStates
    · exact ih u ops told

theorem reporting_flushWrites : Reporting (e.flushWrites P e' relay generation) := by
  unfold flushWrites publishOwnerRefusal
  dsimp only
  repeat' split
  all_goals first | exact reporting_nil | exact reporting_publishStates | exact reporting_publishPlan

theorem reporting_installedWrites {done : Installing} : Reporting (e.installedWrites e' done now) := by
  unfold installedWrites
  split
  · split
    · exact reporting_nil
    · exact reporting_publishPlan.append reporting_publishStates
  · exact reporting_nil

theorem reporting_writes {a : Action} : Reporting (e.writes P e' a now detail) := by
  unfold writes
  split
  · split
    · exact reporting_visitRelayWrites
    · unfold visitSlotWrites
      dsimp only
      split
      · exact reporting_nil
      · split
        · exact reporting_publishPlan.append reporting_publishStates
        · exact reporting_nil
    · exact reporting_flushWrites
    · exact reporting_nil
  · split
    · unfold refusedWrites publishOwnerRefusal publishStateForRelay
      repeat' split
      all_goals first | exact reporting_nil | exact reporting_publishStates
    · exact reporting_installedWrites
    · exact reporting_flushWrites
    · unfold reconnectedWrites publishOwnerRefusal publishStateForRelay
      repeat' split
      all_goals first | exact reporting_nil | exact reporting_publishStates
    · exact reporting_carriedWrites
    all_goals exact reporting_nil
  · exact reporting_nil

theorem reporting_connectionWrites {state : Connection} :
    Reporting (e.connectionWrites relay generation state now) := by
  unfold connectionWrites publishStateForRelay
  split
  · exact reporting_nil
  · apply Reporting.append
    · split
      · exact reporting_publishStates
      · exact reporting_nil
    · split
      · exact reporting_publishStates
      · exact reporting_publishStates
      all_goals exact reporting_nil

end Engine

variable {P : Providers} {acts : List Watch.Act} {act : Watch.Act} {w w' : Watch}

/-- A step makes the one call of the registry it makes, and no other. -/
theorem Watch.step_registry (stepped : Watch.step P w act = some w') :
    (w.calls act = none ∧ w'.registry = w.registry) ∨
      ∃ op, w.calls act = some op ∧ w.registry.apply op = some w'.registry := by
  cases Watch.Stepped.of_step stepped with
  | @application op _ _ applied => exact .inr ⟨op, rfl, applied⟩
  | engine | connection => exact .inl ⟨rfl, rfl⟩
  | @write op _ _ pending applied =>
    refine .inr ⟨op, ?_, applied⟩
    rw [Watch.calls, pending]
    rfl

/-- The owner only ever has to say what it knows. -/
theorem Watch.step_pending (reporting : Engine.Reporting w.pending)
    (stepped : Watch.step P w act = some w') : Engine.Reporting w'.pending := by
  cases Watch.Stepped.of_step stepped with
  | application => exact reporting
  | engine => exact reporting.append Engine.reporting_writes
  | connection => exact Engine.reporting_connectionWrites
  | write pending =>
    intro op' later
    apply reporting
    rw [pending]
    exact List.mem_cons_of_mem _ later

/-- A call of the registry is a change of demand for the engine, signalled or not. -/
theorem Watch.put_engine (registry : Evidence.State) :
    ∃ a, Observe.step P w.engine a = some (w.put registry).engine := by
  by_cases told : registry.demandChanged ≠ w.registry.demandChanged
  · refine ⟨.observe registry.view, ?_⟩
    rw [Watch.put, decide_eq_true told, Bool.or_true]
    rfl
  · refine ⟨.revive registry.view, ?_⟩
    rw [Watch.put, decide_eq_false told, Bool.or_false]
    rfl

/-- What the engine does with its registry beside it is a run of the engine. -/
theorem Watch.run_engine {guard : Watch → Watch.Act → Prop}
    (run : Run (Watch.step P) guard .start acts w) :
    w.engine.registry = w.registry.view ∧
      ∃ taken, Run (Observe.step P) Free Engine.start taken w.engine := by
  induction run with
  | nil =>
    exact ⟨rfl, [], .nil⟩
  | @snoc acts t u act run meets stepped ih =>
    obtain ⟨same, taken, before⟩ := ih
    have put : ∀ registry, (t.put registry).engine.registry = (t.put registry).registry.view ∧
        ∃ taken, Run (Observe.step P) Free Engine.start taken (t.put registry).engine := by
      intro registry
      obtain ⟨a, changed⟩ := Watch.put_engine (P := P) (w := t) registry
      exact ⟨rfl, taken ++ [a], before.snoc trivial changed⟩
    cases Watch.Stepped.of_step stepped with
    | @application _ registry => exact put registry
    | @engine a _ _ _ notObserve notRevive _ moved =>
      refine ⟨?_, taken ++ [a], before.snoc trivial moved⟩
      cases step_frame moved with
      | observe registry is => exact (notObserve registry is).elim
      | revive registry is => exact (notRevive registry is).elim
      | authenticate _ _ _ result | wake _ result =>
        subst result
        exact same
      | own registry => exact registry.trans same
    | connection => exact ⟨same, taken, before⟩
    | @write _ _ registry => exact put registry

/-- As long as no report of a state reaches demand that was withdrawn, an observation asks
only the relays its latest assignment wants. -/
theorem desired_of_unrevived (run : Run (Watch.step P) Unrevived .start acts w) :
    ∀ id, ∀ relay ∉ latest acts id, relay ∉ w.registry.contribution id := by
  suffices all : Engine.Reporting w.pending ∧
      ∀ id relay, w.registry.Demands id relay → relay ∈ latest acts id from
    fun id relay left asked => left (all.2 id relay (Evidence.demands_of_contribution asked))
  induction run with
  | nil =>
    refine ⟨Engine.reporting_nil, ?_⟩
    rintro id relay ⟨a, found, -⟩
    cases found
  | @snoc acts t u act run meets stepped ih =>
    obtain ⟨reporting, wants⟩ := ih
    refine ⟨Watch.step_pending reporting stepped, fun id relay demands => ?_⟩
    obtain ⟨silent, same⟩ | ⟨op, called, applied⟩ := Watch.step_registry stepped
    · rw [same] at demands
      rw [latest_append]
      cases act with
      | application op => cases silent
      | engine | connection | write => exact wants id relay demands
    · have origin := Evidence.demands_apply applied (meets op called) demands
      rw [latest_append]
      cases act with
      | engine | connection => cases called
      | application op' =>
        cases called
        cases op with
        | assign id' branch access wanted routeRevision withdrawal =>
          dsimp only at origin ⊢
          split at origin
          · rename_i same
            rw [if_pos same]
            exact origin
          · rename_i other
            rw [if_neg other]
            exact wants id relay origin
        | _ => exact wants id relay origin
      | write =>
        have told := reporting op (List.mem_of_head? called)
        cases op with
        | assign => cases told
        | _ => exact wants id relay origin

section Revived

/-- What the first observation wants of the relay. -/
def wantKind : Evidence.Wanted :=
  (∅ : Evidence.Wanted).insert "wss://relay"
    (⟨1, 0, { Filter.new with kinds := some {1} }, ⟨none, none, none⟩⟩, .automatic 1)

def Watch.Act.plain (a : Action) : Watch.Act := .engine a 0 ⟨"", 0⟩

/-- The relay is connected for the first observation, and its subscription opened, reported
and told of. -/
def watchFirst : List Watch.Act :=
  [.application .install, .application (.assign 1 0 .unauthenticated wantKind (some 1) .routeWithdrawn),
    .plain .reconcile, .plain .visit, .write, .plain .visit, .plain (.acquire 0 (some 5)), .plain .wake,
    .plain .reconcile, .plain .visit, .plain .visit, .plain .receive, .plain (.elapse 0),
    .plain .receive, .plain (.subscribe 0 (some 1)), .plain (.finish 0), .plain .receive, .write,
    .write, .write]

/-- The route withdraws the relay after the owner took the end of its stored events, and
before it tells the registry. -/
def completeWithdrawn : List Watch.Act :=
  watchFirst ++ [.plain (.carry 0 .endOfStoredEvents), .plain .receive,
    .application (.assign 1 0 .unauthenticated ∅ (some 2) .routeWithdrawn), .write]

/-- The report brings the withdrawn relay back. -/
theorem completion_revives_withdrawn :
    ∃ acts w, Run (Watch.step kindProviders) Free .start acts w ∧
      ¬∀ id, ∀ relay ∉ latest acts id, relay ∉ w.registry.contribution id := by
  obtain ⟨w, run, checked⟩ := Run.of_any (show (exec (Watch.step kindProviders) Free .start
    completeWithdrawn).any (fun w => (w.registry.contribution 1).contains "wss://relay") = true by
      decide +kernel)
  refine ⟨_, w, run, fun gone => gone 1 "wss://relay" ?_ (ExtTreeMap.contains_iff_mem.mp checked)⟩
  exact ExtTreeMap.not_mem_empty

theorem desired_after_watchFirst :
    ∃ w, Run (Watch.step kindProviders) Unrevived .start watchFirst w ∧
      "wss://relay" ∈ w.registry.contribution 1 ∧
      ∀ id, ∀ relay ∉ latest watchFirst id, relay ∉ w.registry.contribution id := by
  obtain ⟨w, run, checked⟩ := Run.of_any (show (exec (Watch.step kindProviders) Unrevived .start
    watchFirst).any (fun w => (w.registry.contribution 1).contains "wss://relay") = true by
      decide +kernel)
  exact ⟨w, run, ExtTreeMap.contains_iff_mem.mp checked, desired_of_unrevived run⟩

end Revived

end Fava.Observe
