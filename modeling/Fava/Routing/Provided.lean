import Fava.Routing.Accounts
import Fava.Routing.AppRelays
import Fava.Routing.Hints
import Fava.Routing.Outbox

namespace Fava.Routing

open Std Fava.Lib Fava.Nostr Fava.Relay Fava.Queries Fava.Write

/-- The routers that there are. -/
inductive ProvidedRouter
  | appRelays (router : AppRelayRouter)
  | fallback (router : FallbackRelayRouter)
  | hints (router : HintRouter)
  | outbox (router : OutboxRouter)

/-- A session of one of them. -/
inductive ProvidedSession
  | appRelays (current : RouteContribution)
  | fallback (session : FallbackRelayRouter.FallbackSession)
  | hints (session : HintRouter.HintSession)
  | outbox (session : OutboxRouter.OutboxSession)

namespace ProvidedSession

def appRelays? : ProvidedSession → Option RouteContribution
  | .appRelays current => some current
  | _ => none

def fallback? : ProvidedSession → Option FallbackRelayRouter.FallbackSession
  | .fallback session => some session
  | _ => none

def hints? : ProvidedSession → Option HintRouter.HintSession
  | .hints session => some session
  | _ => none

def outbox? : ProvidedSession → Option OutboxRouter.OutboxSession
  | .outbox session => some session
  | _ => none

end ProvidedSession

/-- A router whose sessions are kept among others. It is only ever given its own. -/
def Router.among {Session All : Type} (router : Router Session) (put : Session → All)
    (get : All → Option Session) : Router All where
  name := router.name
  queries := router.queries
  preview := router.preview
  openSession request upstream inputs := (router.openSession request upstream inputs).map put
  current session := ((get session).map router.current).getD .none
  replace session upstream inputs :=
    match get session with
    | some own =>
      let (result, next) := router.replace own upstream inputs
      (result, put next)
    | none => (.error .closed, session)

namespace ProvidedRouter

variable (N : Library) (T : TagReader) (complete : QuerySnapshot → Bool)

def router : ProvidedRouter → Router ProvidedSession
  | .appRelays r => (r.router T).among .appRelays ProvidedSession.appRelays?
  | .fallback r => (r.router T).among .fallback ProvidedSession.fallback?
  | .hints r => (r.router N T).among .hints ProvidedSession.hints?
  | .outbox r => (r.router N T complete).among .outbox ProvidedSession.outbox?

/-- What a session keeps of the request it was opened for. -/
def Serves (p : ProvidedRouter) (session : ProvidedSession) (request : RouteRequest) : Prop :=
  match p with
  | .appRelays r => ∃ own, session.appRelays? = some own ∧ own = r.contribution T request
  | .fallback _ => ∃ own, session.fallback? = some own ∧ own.request = request
  | .hints _ => ∃ own, session.hints? = some own ∧ own.request = request
  | .outbox _ => ∃ own, session.outbox? = some own ∧ own.request = request

/-- What makes a router select a relay for a target: its configuration, a tag of the event
that is written, a record of the event that served it, or the latest relay list of a key. -/
def Justifies (p : ProvidedRouter) (request : RouteRequest) (inputs : List QuerySnapshot)
    (relay : RelayUrl) (target : RouteTarget) (reason : String) : Prop :=
  match p with
  | .appRelays r => AppRelayRouter.enabled request r.reads r.writes = true ∧ relay ∈ r.relays ∧
      reason = "configured application relay"
  | .fallback r => AppRelayRouter.enabled request r.reads r.writes = true ∧ relay ∈ r.relays ∧
      reason = "upstream coverage below " ++ toString r.minimum
  | .hints _ => reason = "Nostr reference hint or admitted relay evidence" ∧
      ∃ id, target = .referencedEvent id ∧
        ((∃ event, request.event = some event ∧ ∃ tag ∈ event.tags,
            HintRouter.hint N T tag = some (id, relay)) ∨
          ∃ snapshot ∈ inputs, ∃ record ∈ snapshot.events, record.id = id ∧
            relay ∈ HintRouter.servedBy record)
  | .outbox _ => ∃ key marker, OutboxRouter.wanted target = some (key, marker, reason) ∧
      ∃ snapshot ∈ inputs, ∃ record ∈ snapshot.events, record.event.author = key ∧
        record.event.kind = relayListKind ∧
        record.event.tags.any (RelayList.names N marker relay) = true ∧
        ∀ other ∈ snapshot.events, other.event.author = key → other.event.kind = relayListKind →
          other.createdAt ≤ record.createdAt

/-- A contribution is exact, and all that it selects is asked for and justified. -/
structure Contributes (p : ProvidedRouter) (request : RouteRequest) (inputs : List QuerySnapshot)
    (c : RouteContribution) : Prop where
  exact : c.Exact
  justified : ∀ d ∈ c.destinations, ∀ target ∈ d.targets, target ∈ request.targets T ∧
    p.Justifies N T request inputs d.session target d.reason

end ProvidedRouter

section Yields

variable {Session All : Type} {router : Router Session} {put : Session → All}
  {get : All → Option Session} {serves : Session → RouteRequest → Prop}
  {P : RouteRequest → List QuerySnapshot → RouteContribution → Prop}

theorem Router.Yields.among (yields : router.Yields serves P) (kept : ∀ own, get (put own) = some own) :
    (router.among put get).Yields
      (fun session request => ∃ own, get session = some own ∧ serves own request) P where
  preview := yields.preview
  opens request upstream inputs session opened := by
    replace opened : (router.openSession request upstream inputs).map put = .ok session := opened
    cases own : router.openSession request upstream inputs with
    | error error =>
      rw [own] at opened
      cases opened
    | ok session' =>
      rw [own] at opened
      cases opened
      obtain ⟨serving, holds⟩ := yields.opens request upstream inputs session' own
      refine ⟨⟨session', kept session', serving⟩, ?_⟩
      change P request inputs (((get (put session')).map router.current).getD .none)
      rw [kept]
      exact holds
  replaces session request upstream inputs serving := by
    obtain ⟨own, is, serving⟩ := serving
    obtain ⟨still, holds⟩ := yields.replaces own request upstream inputs serving
    unfold Router.among
    dsimp only
    rw [is]
    exact ⟨⟨_, kept _, still⟩, holds⟩

end Yields

namespace ProvidedRouter

variable {N : Library} {T : TagReader} {complete : QuerySnapshot → Bool}

theorem contributes_none {p : ProvidedRouter} {request : RouteRequest} {inputs : List QuerySnapshot} :
    p.Contributes N T request inputs .none :=
  ⟨RouteContribution.exact_none, fun _ listed => absurd listed List.not_mem_nil⟩

theorem appRelays_contributes (r : AppRelayRouter) (request : RouteRequest) (inputs : List QuerySnapshot) :
    (appRelays r).Contributes N T request inputs (r.contribution T request) := by
  refine ⟨AppRelayRouter.contribution_exact, fun d listed target inside => ?_⟩
  have selected : (r.contribution T request).Selects d.session target := ⟨d, listed, rfl, inside⟩
  obtain ⟨within, relay, known⟩ := AppRelayRouter.selects_contribution.mp selected
  refine ⟨known, within, relay, ?_⟩
  unfold AppRelayRouter.contribution at listed
  split at listed
  · cases listed
  · obtain ⟨session, -, rfl⟩ := List.mem_map.mp listed
    rfl

theorem appRelays_yields (r : AppRelayRouter) : (r.router T).Yields
    (fun own request => own = r.contribution T request) ((appRelays r).Contributes N T) where
  preview request upstream inputs c previewed := by
    obtain ⟨-, -, is⟩ := bind_eq_ok.mp previewed
    cases is
    exact appRelays_contributes r request inputs
  opens request upstream inputs session opened := by
    obtain ⟨-, -, is⟩ := bind_eq_ok.mp opened
    cases is
    exact ⟨rfl, appRelays_contributes r request inputs⟩
  replaces session request upstream inputs serving := by
    subst serving
    unfold AppRelayRouter.router
    dsimp only
    split
    · refine ⟨rfl, fun c same => ?_⟩
      cases same
      exact appRelays_contributes r request inputs
    · refine ⟨rfl, fun c same => ?_⟩
      cases same

theorem fallback_contributes (r : FallbackRelayRouter) (request : RouteRequest) (upstream : RoutePlan)
    (inputs : List QuerySnapshot) :
    (fallback r).Contributes N T request inputs (r.contribution T request upstream) := by
  unfold FallbackRelayRouter.contribution
  split
  · exact contributes_none
  rename_i within
  dsimp only
  split
  · exact contributes_none
  constructor
  · intro relay target
    simp only [RouteContribution.Selects, Covered, List.mem_map, BTreeMap.find_constant,
      ExtTreeSet.mem_toList, Option.ite_none_right_eq_some]
    constructor
    · rintro ⟨d, ⟨session, listed, rfl⟩, rfl, inside⟩
      refine ⟨r.relays, ⟨inside, ?_⟩, listed⟩
      rw [if_neg fun none => BTreeSet.isEmpty_iff.mp none session listed]
    · rintro ⟨relays, ⟨inside, is⟩, listed⟩
      split at is
      · cases is
      · cases is
        exact ⟨_, ⟨relay, listed, rfl⟩, rfl, inside⟩
  · intro d listed target inside
    obtain ⟨session, selected, rfl⟩ := List.mem_map.mp listed
    refine ⟨(ExtTreeSet.mem_filter.mp inside).choose, ?_, ExtTreeSet.mem_toList.mp selected, rfl⟩
    unfold AppRelayRouter.enabled
    rw [Bool.of_not_eq_true within]
    rfl

theorem fallback_yields (r : FallbackRelayRouter) : (r.router T).Yields
    (fun own request => own.request = request) ((fallback r).Contributes N T) where
  preview request upstream inputs c previewed := by
    obtain ⟨-, -, is⟩ := bind_eq_ok.mp previewed
    cases is
    exact fallback_contributes r request upstream inputs
  opens request upstream inputs session opened := by
    obtain ⟨-, -, is⟩ := bind_eq_ok.mp opened
    cases is
    exact ⟨rfl, fallback_contributes r request upstream inputs⟩
  replaces session request upstream inputs serving := by
    subst serving
    unfold FallbackRelayRouter.router
    dsimp only
    split
    · refine ⟨rfl, fun c same => ?_⟩
      cases same
      exact fallback_contributes r session.request upstream inputs
    · refine ⟨rfl, fun c same => ?_⟩
      cases same

theorem hints_contributes {request : RouteRequest} {inputs : List QuerySnapshot} {c : RouteContribution}
    (r : HintRouter) (h : HintRouter.project N T request inputs = .ok c) :
    (hints r).Contributes N T request inputs c := by
  unfold HintRouter.project at h
  split at h
  · cases h
  cases h
  refine ⟨answerTargets_exact, fun d listed target inside => ?_⟩
  obtain ⟨asked, known, relays, reason, is, relay, there, rfl⟩ :=
    mem_answerTargets_destinations.mp listed
  obtain rfl := BTreeSet.mem_singleton.mp inside
  obtain ⟨id, refers, is⟩ := Option.map_eq_some_iff.mp is
  cases is
  refine ⟨known, rfl, id, ?_, ?_⟩
  · cases target with
    | referencedEvent other =>
      cases refers
      rfl
    | wholeRequest => cases refers
    | author key => cases refers
    | recipient key => cases refers
  · obtain hinted | ⟨record, served, same, from'⟩ := HintRouter.mem_gathered.mp there
    · exact .inl hinted
    · cases inputs with
      | nil => cases served
      | cons snapshot rest => exact .inr ⟨snapshot, List.mem_cons_self, record, served, same, from'⟩

theorem hints_yields (r : HintRouter) : (r.router N T).Yields
    (fun own request => own.request = request) ((hints r).Contributes N T) where
  preview request upstream inputs c previewed := hints_contributes r previewed
  opens request upstream inputs session opened := by
    obtain ⟨c, projected, is⟩ := bind_eq_ok.mp opened
    cases is
    exact ⟨rfl, hints_contributes r projected⟩
  replaces session request upstream inputs serving := by
    subst serving
    unfold HintRouter.router
    dsimp only
    split
    · rename_i next projected
      refine ⟨rfl, fun c same => ?_⟩
      cases same
      exact hints_contributes r projected
    · refine ⟨rfl, fun c same => ?_⟩
      cases same

theorem outbox_contributes {request : RouteRequest} {inputs : List QuerySnapshot} {c : RouteContribution}
    (r : OutboxRouter) (h : OutboxRouter.project N T complete request inputs = .ok c) :
    (outbox r).Contributes N T request inputs c := by
  obtain ⟨-, rfl⟩ | ⟨-, rfl⟩ := OutboxRouter.project_eq_ok h
  · exact contributes_none
  refine ⟨answerTargets_exact, fun d listed target inside => ?_⟩
  obtain ⟨asked, known, relays, reason, is, relay, there, rfl⟩ :=
    mem_answerTargets_destinations.mp listed
  obtain rfl := BTreeSet.mem_singleton.mp inside
  obtain ⟨⟨key, marker, reason'⟩, wants, is⟩ := Option.map_eq_some_iff.mp is
  dsimp only at is
  split at is
  · rename_i list found
    cases is
    cases inputs with
    | nil =>
      change (∅ : BTreeMap PublicKey RelayList)[key]? = some list at found
      rw [ExtTreeMap.getElem?_empty] at found
      cases found
    | cons snapshot rest =>
      obtain ⟨record, here, read, author, latest⟩ := OutboxRouter.mem_of_find_decode (N := N) found
      obtain ⟨kind, -, reads, writes⟩ := RelayList.fromEvent_eq_ok read
      refine ⟨known, key, marker, wants, snapshot, List.mem_cons_self, record, here, author, kind, ?_,
        latest⟩
      obtain rfl | rfl := OutboxRouter.wanted_marker wants
      · exact (writes relay).mp there
      · exact (reads relay).mp there
  · split at is
    · cases is
    · cases is

theorem outbox_yields (r : OutboxRouter) : (r.router N T complete).Yields
    (fun own request => own.request = request) ((outbox r).Contributes N T) where
  preview request upstream inputs c previewed := outbox_contributes r previewed
  opens request upstream inputs session opened := by
    obtain ⟨c, projected, is⟩ := bind_eq_ok.mp opened
    cases is
    exact ⟨rfl, outbox_contributes r projected⟩
  replaces session request upstream inputs serving := by
    subst serving
    unfold OutboxRouter.router OutboxRouter.OutboxSession.replace
    dsimp only
    split
    · refine ⟨rfl, fun c same => ?_⟩
      cases same
    · split
      · rename_i next projected
        refine ⟨rfl, fun c same => ?_⟩
        cases same
        exact outbox_contributes r projected
      · refine ⟨rfl, fun c same => ?_⟩
        cases same

theorem yields (p : ProvidedRouter) :
    (p.router N T complete).Yields (p.Serves T) (p.Contributes N T) := by
  cases p with
  | appRelays r => exact (appRelays_yields r).among fun _ => rfl
  | fallback r => exact (fallback_yields r).among fun _ => rfl
  | hints r => exact (hints_yields r).among fun _ => rfl
  | outbox r => exact (outbox_yields r).among fun _ => rfl

theorem Justifies.mono {p : ProvidedRouter} {request : RouteRequest} {inputs given : List QuerySnapshot}
    {relay : RelayUrl} {target : RouteTarget} {reason : String}
    (justified : p.Justifies N T request inputs relay target reason) (subset : inputs ⊆ given) :
    p.Justifies N T request given relay target reason := by
  cases p with
  | appRelays r => exact justified
  | fallback r => exact justified
  | hints r =>
    obtain ⟨is, id, same, hinted | ⟨snapshot, here, served⟩⟩ := justified
    · exact ⟨is, id, same, .inl hinted⟩
    · exact ⟨is, id, same, .inr ⟨snapshot, subset here, served⟩⟩
  | outbox r =>
    obtain ⟨key, marker, wants, snapshot, here, listed⟩ := justified
    exact ⟨key, marker, wants, snapshot, subset here, listed⟩

section Plans

variable {provided : List ProvidedRouter} {request : RouteRequest} {given : List QuerySnapshot}
  {plan : RoutePlan} {relay : RelayUrl} {target : RouteTarget}

/-- The contributions behind a plan of a chain of these routers. -/
theorem contributed_of_plan
    (planned : PlanOf T request (provided.map (router N T complete)) given plan) :
    ∃ (C : Composer) (revision : Nat), (∀ c ∈ C.contributions, c = .none ∨ ∃ p ∈ provided, ∃ inputs, inputs ⊆ given ∧
        ∃ made, p.Contributes N T request inputs made ∧ c = made.under (p.router N T complete).name) ∧
      RoutePlan.fromContribution revision C.combined = .ok plan := by
  have yields : ∀ r ∈ provided.map (router N T complete), r.Yields
      (fun session request => ∃ p ∈ provided, router N T complete p = r ∧ p.Serves T session request)
      fun request inputs c => ∃ p ∈ provided, router N T complete p = r ∧
        p.Contributes N T request inputs c := by
    intro r listed
    obtain ⟨p, here, rfl⟩ := List.mem_map.mp listed
    refine ⟨fun request upstream inputs c previewed => ?_, fun request upstream inputs session opened => ?_,
      fun session request upstream inputs serving => ?_⟩
    · exact ⟨p, here, rfl, (yields p).preview request upstream inputs c previewed⟩
    · obtain ⟨serving, contributes⟩ := (yields p).opens request upstream inputs session opened
      exact ⟨⟨p, here, rfl, serving⟩, p, here, rfl, contributes⟩
    · obtain ⟨q, there, same, serving⟩ := serving
      rw [← same]
      obtain ⟨still, contributes⟩ := (@yields N T complete q).replaces session request upstream inputs
        serving
      exact ⟨⟨q, there, rfl, still⟩, fun c made => ⟨q, there, rfl, contributes c made⟩⟩
  obtain ⟨C, revision, accounted, made⟩ := accounted_of_plan yields planned
  refine ⟨C, revision, fun c listed => ?_, made⟩
  obtain rfl | ⟨r, -, inputs, inside, made, ⟨p, here, rfl, contributes⟩, is⟩ := accounted c listed
  · exact .inl rfl
  · exact .inr ⟨p, here, inputs, inside, made, contributes, is⟩

/-- A chain of these routers plans a relay for a target if and only if it has the relay cover
the target. -/
theorem provided_plan_exact (planned : PlanOf T request (provided.map (router N T complete)) given plan) :
    plan.Exact := by
  obtain ⟨C, revision, contributed, made⟩ := contributed_of_plan planned
  refine exact_fromContribution made ?_
  have exact : (combine C.contributions).Exact := by
    refine RouteContribution.exact_combine fun c listed => ?_
    obtain rfl | ⟨p, -, inputs, -, made, contributes, rfl⟩ := contributed c listed
    · exact RouteContribution.exact_none
    · exact contributes.exact.under
  exact exact.completeTargets

/-- No relay is planned but for a target of the request, and for a reason that the plan names:
a router of the chain selected it, and had cause to. -/
theorem provided_plan_justified
    (planned : PlanOf T request (provided.map (router N T complete)) given plan)
    (plans : plan.Plans relay target) : target ∈ request.targets T ∧
      ∃ p ∈ provided, ∃ reason, p.Justifies N T request given relay target reason ∧
        ∃ planned, plan.destinations[relay]? = some planned ∧
          ⟨(p.router N T complete).name, reason⟩ ∈ planned.reasons := by
  obtain ⟨C, revision, contributed, made⟩ := contributed_of_plan planned
  obtain ⟨d, selected, rfl, inside⟩ := (plans_iff made).mp plans
  have kept : Kept (C.combined.destinations.foldl planDestination ∅) d := kept_run (.inl selected)
  replace selected : d ∈ C.merged.destinations := selected
  unfold Composer.merged at selected
  rw [completeTargets_destinations] at selected
  obtain ⟨c, listed, selected⟩ := List.mem_flatMap.mp selected
  obtain rfl | ⟨p, here, inputs, inside', made', contributes, rfl⟩ := contributed c listed
  · cases selected
  obtain ⟨own, there, rfl⟩ := List.mem_map.mp selected
  obtain ⟨asked, justified⟩ := contributes.justified own there target inside
  obtain ⟨-, rfl⟩ := fromContribution_eq_ok made
  obtain ⟨planned, found, -, reasons⟩ := kept
  exact ⟨asked, p, here, own.reason, justified.mono inside', planned, found, reasons⟩

end Plans

section Samples

/-- Relays of the application beside those of references and of relay lists. -/
def bundled : List ProvidedRouter :=
  [.appRelays (.new "app" ["wss://app.example/"]), .hints ⟨"hints"⟩, .outbox ⟨"outbox", ∅⟩]

def bundledPlan : Option (Except RouterError RoutePlan) :=
  preview noTags plainWrite (bundled.map (router plainLibrary noTags fun _ => true)) [[], [], []]

theorem bundled_planned : ∃ plan, bundledPlan = some (.ok plan) ∧
    plan.Plans "wss://app.example/" (.author 4) := by
  have computed : (bundledPlan.any fun result => result.toOption.any fun plan =>
      plan.destinations["wss://app.example/"]?.any fun planned =>
        planned.targets.contains (.author 4)) = true := by
    decide +kernel
  obtain ⟨result, made, is⟩ := (Option.any_eq_true _ _).mp computed
  obtain ⟨plan, ok, is⟩ := (Option.any_eq_true _ _).mp is
  obtain ⟨planned, found, inside⟩ := (Option.any_eq_true _ _).mp is
  cases result with
  | error error => cases ok
  | ok plan' =>
    cases ok
    exact ⟨plan, made, planned, found, ExtTreeSet.contains_iff_mem.mp inside⟩

theorem bundled_plan_exact : ∃ plan, bundledPlan = some (.ok plan) ∧ plan.Exact := by
  obtain ⟨plan, made, -⟩ := bundled_planned
  exact ⟨plan, made, provided_plan_exact (.previewed made)⟩

theorem bundled_plan_justified : ∃ plan, bundledPlan = some (.ok plan) ∧ ∃ p ∈ bundled, ∃ reason,
    p.Justifies plainLibrary noTags plainWrite [] "wss://app.example/" (.author 4) reason := by
  obtain ⟨plan, made, plans⟩ := bundled_planned
  obtain ⟨-, p, here, reason, justified, -⟩ := provided_plan_justified (.previewed made) plans
  exact ⟨plan, made, p, here, reason, justified⟩

end Samples

end ProvidedRouter

end Fava.Routing
