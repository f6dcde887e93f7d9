import Fava.Routing.Exact
import Fava.Routing.Shortfalls

namespace Fava.Routing

open Std Fava.Lib Fava.Nostr Fava.Relay Fava.Queries Fava.Write

variable {Session : Type}

/-- A contribution under the name of its router. -/
def RouteContribution.under (c : RouteContribution) (router : String) : RouteContribution :=
  { c with destinations := c.destinations.map fun d => { d with router := router } }

/-- A name selects nothing. -/
theorem RouteContribution.Exact.under {c : RouteContribution} {router : String} (exact : c.Exact) :
    (c.under router).Exact := by
  intro relay target
  refine Iff.trans ?_ (exact relay target)
  unfold Selects RouteContribution.under
  simp

/-- Whatever a router contributes has a property, which may speak of the request and of the
inputs it was given. -/
structure Router.Yields (router : Router Session) (serves : Session → RouteRequest → Prop)
    (P : RouteRequest → List QuerySnapshot → RouteContribution → Prop) : Prop where
  preview : ∀ request upstream inputs c, router.preview request upstream inputs = .ok c →
    P request inputs c
  opens : ∀ request upstream inputs session, router.openSession request upstream inputs = .ok session →
    serves session request ∧ P request inputs (router.current session)
  replaces : ∀ session request upstream inputs, serves session request →
    serves (router.replace session upstream inputs).2 request ∧
      ∀ c, (router.replace session upstream inputs).1 = .ok c → P request inputs c

/-- A contribution is empty, or one that a router of the chain made of inputs it was given. -/
def Accounted (P : Router Session → RouteRequest → List QuerySnapshot → RouteContribution → Prop)
    (routers : List (Router Session)) (request : RouteRequest) (given : List QuerySnapshot)
    (c : RouteContribution) : Prop :=
  c = .none ∨ ∃ router ∈ routers, ∃ inputs, inputs ⊆ given ∧
    ∃ made, P router request inputs made ∧ c = made.under router.name

/-- A plan that a chain makes, at once or after any replacements, and what it was given. -/
inductive PlanOf (T : TagReader) (request : RouteRequest) (routers : List (Router Session)) :
    List QuerySnapshot → RoutePlan → Prop
  | previewed {inputs : List (List QuerySnapshot)} {plan : RoutePlan}
    (made : Routing.preview T request routers inputs = some (.ok plan)) :
    PlanOf T request routers inputs.flatten plan
  | kept {initial history : List (List QuerySnapshot)} {chain last : OpenedChain Session}
    {revision : Nat} {plan : RoutePlan} (opened : openChain T request routers initial = some (.ok chain))
    (reached : chain.after history = some last)
    (made : RoutePlan.fromContribution revision last.current = .ok plan) :
    PlanOf T request routers (initial.flatten ++ history.flatten) plan

namespace Composer

variable {C : Composer} {index : Nat} {router : String} {contribution c : RouteContribution}
  {result : Except RouterError RouteContribution}

theorem attributed_eq_ok {named : RouteContribution} (h : attributed contribution router = .ok named) :
    named = contribution.under router := by
  unfold attributed at h
  obtain ⟨-, -, h⟩ := bind_eq_ok.mp h
  obtain ⟨-, -, h⟩ := bind_eq_ok.mp h
  exact (Except.ok.inj h).symm

/-- What a composer has after a turn it had before, or the router contributed it. -/
theorem mem_take (listed : c ∈ (C.take index router result).contributions) :
    c ∈ C.contributions ∨ ∃ made, result = .ok made ∧ c = made.under router := by
  have failing (error : RouterError) (listed : c ∈ (C.fail router error).contributions) :
      c ∈ C.contributions := by
    rw [(alike_fail (C := C)).1] at listed
    exact listed
  unfold take at listed
  cases contributed : result.bind (attributed · router) with
  | error error =>
    rw [contributed] at listed
    exact .inl (failing error listed)
  | ok named =>
    rw [contributed] at listed
    obtain ⟨made, is, kept⟩ := bind_eq_ok.mp contributed
    dsimp only [accept] at listed
    split at listed
    · obtain before | rfl := List.mem_or_eq_of_mem_set listed
      · exact .inl before
      · exact .inr ⟨made, is, attributed_eq_ok kept⟩
    · exact .inl (failing _ listed)

end Composer

variable {P : Router Session → RouteRequest → List QuerySnapshot → RouteContribution → Prop}
  {serves : Router Session → Session → RouteRequest → Prop} {routers : List (Router Session)}
  {T : TagReader} {request : RouteRequest} {given more : List QuerySnapshot} {C : Composer}
  {index : Nat} {router : Router Session} {inputs : List QuerySnapshot} {c : RouteContribution}
  {chain last : OpenedChain Session} {result : Except RouterError RouteContribution}

theorem Accounted.mono (accounted : Accounted P routers request given c) (subset : given ⊆ more) :
    Accounted P routers request more c := by
  obtain rfl | ⟨router, here, inputs, inside, made, holds, is⟩ := accounted
  · exact .inl rfl
  · exact .inr ⟨router, here, inputs, List.Subset.trans inside subset, made, holds, is⟩

/-- A turn of a router of the chain leaves all contributions accounted for. -/
theorem accounted_take (accounted : ∀ c ∈ C.contributions, Accounted P routers request given c)
    (here : router ∈ routers) (inside : inputs ⊆ given)
    (holds : ∀ made, result = .ok made → P router request inputs made) :
    ∀ c ∈ (C.take index router.name result).contributions, Accounted P routers request given c := by
  intro c listed
  obtain before | ⟨made, is, named⟩ := Composer.mem_take listed
  · exact accounted c before
  · exact .inr ⟨router, here, inputs, inside, made, holds made is, named⟩

/-- A session is one that its router opened, over the inputs it contributes from. -/
theorem openOne_take (C : Composer) (index : Nat) (router : Router Session) (inputs : List QuerySnapshot) :
    ∃ opened : Except RouterError Session,
      (∀ session, opened = .ok session →
        router.openSession request (C.upstreamPlan index 1) inputs = .ok session) ∧
      (openOne request C index router inputs).2 = C.take index router.name (opened.map router.current) ∧
      (openOne request C index router inputs).1.router = router ∧
      ∀ session, (openOne request C index router inputs).1.session = some session →
        opened = .ok session := by
  refine ⟨(router.opened request (C.upstreamPlan index 1) inputs).2, fun session h => ?_, ?_, ?_, ?_⟩
  · unfold Router.opened at h
    split at h
    · obtain ⟨-, -, h⟩ := bind_eq_ok.mp h
      exact h
    · cases h
  · unfold openOne Composer.take
    dsimp only
    cases (router.opened request (C.upstreamPlan index 1) inputs).2 with
    | error error => rfl
    | ok session =>
      dsimp only [Except.map, Except.bind]
      cases attributed (router.current session) router.name <;> rfl
  · unfold openOne
    dsimp only
    split
    · split <;> rfl
    · rfl
  · intro session h
    unfold openOne at h
    dsimp only at h
    split at h
    · rename_i session' opened
      split at h
      · cases h
        exact opened
      · cases h
    · cases h

section Yields

variable (yields : ∀ router ∈ routers, router.Yields (serves router) (P router))
include yields

theorem previewAll_accounted {inputs : List (Router Session × List QuerySnapshot)}
    (accounted : ∀ c ∈ C.contributions, Accounted P routers request given c)
    (listed : ∀ e ∈ inputs, e.1 ∈ routers ∧ e.2 ⊆ given) :
    ∀ c ∈ (previewAll request C index inputs).contributions, Accounted P routers request given c := by
  induction inputs generalizing C index with
  | nil => exact accounted
  | cons first rest ih =>
    obtain ⟨here, inside⟩ := listed first List.mem_cons_self
    refine ih (accounted_take accounted here inside fun made previewed => ?_)
      fun e later => listed e (List.mem_cons_of_mem _ later)
    obtain ⟨declared, -, previewed⟩ := bind_eq_ok.mp previewed
    obtain ⟨-, -, previewed⟩ := bind_eq_ok.mp previewed
    exact (yields first.1 here).preview _ _ _ _ previewed

/-- The routers that a pass opens belong to the chain and serve its request. -/
theorem openAll_accounted {inputs : List (Router Session × List QuerySnapshot)}
    (accounted : ∀ c ∈ C.contributions, Accounted P routers request given c)
    (listed : ∀ e ∈ inputs, e.1 ∈ routers ∧ e.2 ⊆ given) :
    (∀ c ∈ (openAll request C index inputs).2.contributions, Accounted P routers request given c) ∧
      ∀ opened ∈ (openAll request C index inputs).1, opened.router ∈ routers ∧
        ∀ session, opened.session = some session → serves opened.router session request := by
  induction inputs generalizing C index with
  | nil => exact ⟨accounted, fun _ listed => absurd listed List.not_mem_nil⟩
  | cons first rest ih =>
    obtain ⟨router, inputs⟩ := first
    obtain ⟨here, inside⟩ := listed _ List.mem_cons_self
    obtain ⟨opened, opens, taken, is, session⟩ :=
      @openOne_take _ request C index router inputs
    have turn : ∀ c ∈ (openOne request C index router inputs).2.contributions,
        Accounted P routers request given c := by
      rw [taken]
      refine accounted_take accounted here inside fun made contributed => ?_
      cases same : opened with
      | error error =>
        rw [same] at contributed
        cases contributed
      | ok session =>
        rw [same] at contributed
        cases contributed
        exact ((yields router here).opens _ _ _ _ (opens session same)).2
    obtain ⟨later, rest⟩ := @ih _ (index + 1) turn fun e later =>
      listed e (List.mem_cons_of_mem _ later)
    refine ⟨later, fun other member => ?_⟩
    obtain same | after := List.mem_cons.mp member
    · replace same : other = (openOne request C index router inputs).1 := same
      rw [same, is]
      exact ⟨here, fun s kept => ((yields router here).opens _ _ _ _ (opens s (session s kept))).1⟩
    · exact rest other after

theorem replaceAll_accounted {opened : List (OpenedRouter Session)} {inputs : List QuerySnapshot}
    (accounted : ∀ c ∈ C.contributions, Accounted P routers request given c) (inside : inputs ⊆ given)
    (serving : ∀ o ∈ opened, o.router ∈ routers ∧
      ∀ session, o.session = some session → serves o.router session request) :
    (∀ c ∈ (replaceAll C index opened inputs).2.contributions, Accounted P routers request given c) ∧
      ∀ o ∈ (replaceAll C index opened inputs).1, o.router ∈ routers ∧
        ∀ session, o.session = some session → serves o.router session request := by
  induction opened generalizing C index inputs with
  | nil => exact ⟨accounted, serving⟩
  | cons first rest ih =>
    obtain ⟨here, serves'⟩ := serving first List.mem_cons_self
    have own : inputs.take first.count ⊆ given :=
      List.Subset.trans (List.take_subset _ _) inside
    have turn : (∀ c ∈ (replaceOne C index first (inputs.take first.count)).2.contributions,
          Accounted P routers request given c) ∧
        (replaceOne C index first (inputs.take first.count)).1.router ∈ routers ∧
          ∀ session, (replaceOne C index first (inputs.take first.count)).1.session = some session →
            serves (replaceOne C index first (inputs.take first.count)).1.router session request := by
      unfold replaceOne
      cases opened : first.session with
      | none =>
        refine ⟨accounted, here, fun session kept => ?_⟩
        rw [opened] at kept
        cases kept
      | some session =>
        have replaces := (yields first.router here).replaces session request (C.upstreamPlan index 1)
          (inputs.take first.count) (serves' session opened)
        refine ⟨accounted_take accounted here own replaces.2, here, fun next kept => ?_⟩
        cases kept
        exact replaces.1
    obtain ⟨contributed, is, session⟩ := turn
    obtain ⟨later, rest⟩ := @ih _ (index + 1) _ contributed
      (List.Subset.trans (List.drop_subset _ _) inside)
      fun o listed => serving o (List.mem_cons_of_mem _ listed)
    refine ⟨later, fun other member => ?_⟩
    obtain rfl | after := List.mem_cons.mp member
    · exact ⟨is, session⟩
    · exact rest other after

/-- Whatever a chain was given since it was opened, its contributions are accounted for. -/
theorem accounted_after {initial history : List (List QuerySnapshot)}
    (opened : openChain T request routers initial = some (.ok chain))
    (reached : chain.after history = some last) :
    ∀ c ∈ last.composer.contributions,
      Accounted P routers request (initial.flatten ++ history.flatten) c := by
  have begun : (∀ c ∈ chain.composer.contributions, Accounted P routers request initial.flatten c) ∧
      ∀ o ∈ chain.routers, o.router ∈ routers ∧
        ∀ session, o.session = some session → serves o.router session request := by
    unfold openChain at opened
    split at opened
    · cases opened
    · obtain ⟨-, made⟩ := Composer.returned_eq_some.mp opened
      cases made
      refine openAll_accounted yields (fun c listed => .inl (List.eq_of_mem_replicate listed)) ?_
      rintro ⟨router, inputs⟩ listed
      obtain ⟨here, there⟩ := List.of_mem_zip listed
      exact ⟨here, fun s member => List.mem_flatten.mpr ⟨inputs, there, member⟩⟩
  generalize initial.flatten = given at begun ⊢
  clear opened
  induction history generalizing chain given with
  | nil =>
    obtain rfl := Option.some.inj reached
    rw [List.flatten_nil, List.append_nil]
    exact begun.1
  | cons inputs rest ih =>
    obtain ⟨next, replaced, reached⟩ := Option.bind_eq_some_iff.mp reached
    obtain ⟨⟨result, after⟩, returned, same⟩ := Option.map_eq_some_iff.mp replaced
    obtain rfl : next = after := same.symm
    rw [List.flatten_cons, ← List.append_assoc]
    have grown : ∀ c ∈ chain.composer.contributions,
        Accounted P routers request (given ++ inputs) c :=
      fun c listed => (begun.1 c listed).mono (List.subset_append_left _ _)
    have turned : (∀ c ∈ next.composer.contributions, Accounted P routers request (given ++ inputs) c) ∧
        ∀ o ∈ next.routers, o.router ∈ routers ∧
          ∀ session, o.session = some session → serves o.router session request := by
      unfold OpenedChain.replace at returned
      split at returned
      · cases returned
        exact ⟨grown, begun.2⟩
      · split at returned
        · cases returned
          exact ⟨grown, begun.2⟩
        · obtain ⟨-, made⟩ := Composer.returned_eq_some.mp returned
          cases made
          exact replaceAll_accounted yields grown (List.subset_append_right _ _) begun.2
    exact ih reached _ turned

/-- Every plan of a chain is made of contributions that are accounted for. -/
theorem accounted_of_plan {plan : RoutePlan} (planned : PlanOf T request routers given plan) :
    ∃ (C : Composer) (revision : Nat), (∀ c ∈ C.contributions, Accounted P routers request given c) ∧
      RoutePlan.fromContribution revision C.combined = .ok plan := by
  cases planned with
  | previewed made =>
    rename_i inputs
    unfold Routing.preview at made
    split at made
    · cases made
    · obtain ⟨-, made⟩ := Composer.returned_eq_some.mp made
      refine ⟨_, 1, previewAll_accounted yields (fun c listed => .inl (List.eq_of_mem_replicate listed)) ?_,
        made⟩
      rintro ⟨router, own⟩ listed
      obtain ⟨here, there⟩ := List.of_mem_zip listed
      exact ⟨here, fun s member => List.mem_flatten.mpr ⟨own, there, member⟩⟩
  | kept opened reached made => exact ⟨_, _, accounted_after yields opened reached, made⟩

end Yields

end Fava.Routing
