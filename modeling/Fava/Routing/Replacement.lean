import Mathlib.Algebra.GroupWithZero.Nat
import Fava.Routing.Bounds

namespace Fava.Routing

open Std Fava.Lib Fava.Nostr Fava.Relay Fava.Queries Fava.Write

variable {Session : Type}

/-- A router that never fails on as many inputs as it declares, and whose contribution is a
function of the request, of what the routers before it contribute and of its inputs. -/
structure Steady (router : Router Session)
    (contribute : RouteRequest → RoutePlan → List QuerySnapshot → RouteContribution)
    (serves : Session → RouteRequest → Nat → Prop) : Prop where
  queries : ∀ request upstream, ∃ declared, router.queries request upstream = .ok declared
  preview : ∀ request upstream inputs declared, router.queries request upstream = .ok declared →
    declared.length = inputs.length →
      router.preview request upstream inputs = .ok (contribute request upstream inputs)
  opens : ∀ request upstream inputs declared, router.queries request upstream = .ok declared →
    declared.length = inputs.length →
      ∃ session, router.openSession request upstream inputs = .ok session ∧
        serves session request inputs.length ∧
        router.current session = contribute request upstream inputs
  replaces : ∀ session request upstream inputs, serves session request inputs.length →
    ∃ session', router.replace session upstream inputs = (.ok (contribute request upstream inputs), session') ∧
      serves session' request inputs.length

/-- The inputs of every router, cut from one list. -/
def groups {α : Type} : List Nat → List α → List (List α)
  | [], _ => []
  | count :: rest, inputs => inputs.take count :: groups rest (inputs.drop count)

namespace Composer

variable {C F : Composer} {index : Nat} {router : String} {contribution : RouteContribution}
  {result : Except RouterError RouteContribution}

/-- Two composers that differ at most in what they recorded. -/
def Alike (C F : Composer) : Prop :=
  F.contributions = C.contributions ∧ F.answered = C.answered ∧ F.targets = C.targets

/-- A router's result is put in. -/
def Takes (C : Composer) (index : Nat) (router : String)
    (result : Except RouterError RouteContribution) : Prop :=
  ∃ contribution, result.bind (attributed · router) = .ok contribution ∧
    (C.put index contribution).merged.validateBounds = .ok ()

/-- The composer of a pass that has come to a router and knows nothing of the later ones. -/
def restart (C : Composer) (index : Nat) : Composer :=
  { C with
    contributions := C.contributions.take index ++
      .replicate (C.contributions.length - index) .none
    answered := C.answered.take index ++ .replicate (C.answered.length - index) false }

theorem Alike.refl : C.Alike C := ⟨rfl, rfl, rfl⟩

theorem alike_record {shortfall : String} : C.Alike (C.record shortfall) := by
  unfold record
  split <;> exact ⟨rfl, rfl, rfl⟩

theorem alike_fail {error : RouterError} : C.Alike (C.fail router error) := by
  unfold fail
  split
  · exact alike_record
  · exact ⟨rfl, rfl, rfl⟩

theorem Alike.put (alike : C.Alike F) : (C.put index contribution).Alike (F.put index contribution) := by
  obtain ⟨contributions, answered, targets⟩ := alike
  exact ⟨congrArg (List.set · _ _) contributions, congrArg (List.set · _ _) answered, targets⟩

theorem Alike.merged (alike : C.Alike F) : F.merged = C.merged := by
  obtain ⟨contributions, answered, targets⟩ := alike
  unfold Composer.merged allAnswered
  rw [contributions, answered, targets]

theorem Alike.combined (alike : C.Alike F) : F.combined.destinations = C.combined.destinations ∧
    F.combined.coverage = C.combined.coverage ∧ F.combined.unresolved = C.combined.unresolved := by
  change F.merged.destinations = C.merged.destinations ∧ F.merged.coverage = C.merged.coverage ∧
    F.merged.unresolved = C.merged.unresolved
  rw [alike.merged]
  exact ⟨rfl, rfl, rfl⟩

theorem Alike.takes (alike : C.Alike F) : F.Takes index router result ↔ C.Takes index router result := by
  unfold Takes
  simp only [alike.put.merged]

/-- A result that is taken is put in, and one that is not changes nothing. -/
theorem take_of_takes (contributed : result.bind (attributed · router) = .ok contribution)
    (fits : (C.put index contribution).merged.validateBounds = .ok ()) :
    C.take index router result = C.put index contribution := by
  unfold take accept
  rw [contributed]
  simp only [fits]

theorem fail_of_not_takes (refused : ¬C.Takes index router result) :
    ∃ error, C.take index router result = C.fail router error := by
  unfold take
  cases contributed : result.bind (attributed · router) with
  | error error => exact ⟨_, rfl⟩
  | ok contribution =>
    simp only [accept]
    split
    · rename_i fits
      exact absurd ⟨contribution, contributed, fits⟩ refused
    · exact ⟨_, rfl⟩

theorem take_of_not_takes (refused : ¬C.Takes index router result) :
    C.Alike (C.take index router result) := by
  obtain ⟨error, failed⟩ := fail_of_not_takes refused
  rw [failed]
  exact alike_fail

theorem returned_eq_some {α : Type} {made given : α} :
    C.returned made = some given ↔ C.panicked = false ∧ made = given := by
  unfold returned
  cases C.panicked <;> simp

/-- There is an entry for every router, and nothing in the entry of one that did not
answer. -/
structure Tidy (C : Composer) (n : Nat) (targets : BTreeSet RouteTarget) : Prop where
  targets : C.targets = targets
  contributions : C.contributions.length = n
  answered : C.answered.length = n
  blank : ∀ i : Nat, C.answered[i]? = some false → C.contributions[i]? = some RouteContribution.none

variable {n : Nat} {targets : BTreeSet RouteTarget}

theorem tidy_new : (new n targets).Tidy n targets := by
  refine ⟨rfl, List.length_replicate, List.length_replicate, fun i unanswered => ?_⟩
  obtain ⟨within, -⟩ := List.getElem?_eq_some_iff.mp unanswered
  change i < (List.replicate n false).length at within
  rw [List.length_replicate] at within
  change (List.replicate n RouteContribution.none)[i]? = _
  rw [List.getElem?_replicate, if_pos within]

theorem Tidy.alike (tidy : C.Tidy n targets) (alike : C.Alike F) : F.Tidy n targets := by
  obtain ⟨contributions, answered, targets⟩ := alike
  refine ⟨targets.trans tidy.targets, contributions ▸ tidy.contributions,
    answered ▸ tidy.answered, fun i unanswered => ?_⟩
  rw [contributions]
  rw [answered] at unanswered
  exact tidy.blank i unanswered

theorem Tidy.put (tidy : C.Tidy n targets) : (C.put index contribution).Tidy n targets := by
  refine ⟨tidy.targets, ?_, ?_, fun i unanswered => ?_⟩
  · exact (List.length_set).trans tidy.contributions
  · exact (List.length_set).trans tidy.answered
  · change (C.answered.set index true)[i]? = _ at unanswered
    change (C.contributions.set index contribution)[i]? = _
    rw [List.getElem?_set] at unanswered ⊢
    split at unanswered
    · split at unanswered <;> cases unanswered
    · rename_i other
      rw [if_neg other]
      exact tidy.blank i unanswered

theorem Tidy.take (tidy : C.Tidy n targets) : (C.take index router result).Tidy n targets := by
  by_cases taken : C.Takes index router result
  · obtain ⟨contribution, contributed, fits⟩ := taken
    rw [take_of_takes contributed fits]
    exact tidy.put
  · exact tidy.alike (take_of_not_takes taken)

theorem restart_alike_new (tidy : C.Tidy n targets) : (C.restart 0).Alike (new n targets) := by
  refine ⟨?_, ?_, tidy.targets.symm⟩
  · simp [new, restart, tidy.contributions]
  · simp [new, restart, tidy.answered]

theorem restart_all (tidy : C.Tidy n targets) : C.Alike (C.restart n) := by
  refine ⟨?_, ?_, rfl⟩
  · simp [restart, ← tidy.contributions]
  · simp [restart, ← tidy.answered]

theorem restart_alike (alike : C.Alike F) : (C.restart index).Alike (F.restart index) := by
  obtain ⟨contributions, answered, targets⟩ := alike
  unfold restart
  rw [contributions, answered]
  exact ⟨rfl, rfl, targets⟩

theorem Alike.trans {G : Composer} (first : C.Alike F) (second : F.Alike G) : C.Alike G :=
  ⟨second.1.trans first.1, second.2.1.trans first.2.1, second.2.2.trans first.2.2⟩

theorem Alike.symm (alike : C.Alike F) : F.Alike C :=
  ⟨alike.1.symm, alike.2.1.symm, alike.2.2.symm⟩

/-- What was put in is there when the pass comes to the next router. -/
theorem restart_put (tidy : C.Tidy n targets) (within : index < n) :
    ((C.restart index).put index contribution).Alike ((C.put index contribution).restart (index + 1)) := by
  have at_length {α : Type} {l : List α} {a b : α} (length : l.length = n) :
      (l.set index b).take (index + 1) ++ List.replicate ((l.set index b).length - (index + 1)) a =
        (l.take index ++ List.replicate (l.length - index) a).set index b := by
    apply List.ext_getElem?
    intro i
    have room : index < l.length := length ▸ within
    grind
  exact ⟨at_length tidy.contributions, at_length tidy.answered, rfl⟩

/-- Nothing is there of a router that did not answer. -/
theorem restart_skip (tidy : C.Tidy n targets) (unanswered : C.answered[index]? = some false) :
    (C.restart index).Alike (C.restart (index + 1)) := by
  have at_blank {α : Type} {l : List α} {a : α} (blank : l[index]? = some a) :
      l.take (index + 1) ++ List.replicate (l.length - (index + 1)) a =
        l.take index ++ List.replicate (l.length - index) a := by
    apply List.ext_getElem?
    intro i
    grind
  exact ⟨at_blank (tidy.blank index unanswered), at_blank unanswered, rfl⟩

theorem Alike.upstreamPlan {revision : Nat} (alike : C.Alike F) :
    F.upstreamPlan index revision = C.upstreamPlan index revision := by
  obtain ⟨contributions, answered, targets⟩ := alike
  unfold Composer.upstreamPlan allAnswered
  rw [contributions, answered, targets]

theorem restart_upstreamPlan {revision : Nat} (tidy : C.Tidy n targets) (within : index < n) :
    (C.restart index).upstreamPlan index revision = C.upstreamPlan index revision := by
  have room : index < C.contributions.length := tidy.contributions ▸ within
  have same : (C.contributions.take index ++
      List.replicate (C.contributions.length - index) RouteContribution.none).take index =
        C.contributions.take index := by
    rw [List.take_append_of_le_length (by simp; omega), List.take_take, Nat.min_self]
  have length : (C.contributions.take index ++
      List.replicate (C.contributions.length - index) RouteContribution.none).length =
        C.contributions.length := by
    simp
    omega
  unfold Composer.upstreamPlan restart
  rw [same, length, decide_eq_false (Nat.not_le_of_lt room), Bool.false_and, Bool.false_and]

end Composer

/-- A router of an opened chain: its session, if it has one, serves the request with as many
inputs as were declared. -/
structure Serving (contribute : Router Session → RouteRequest → RoutePlan → List QuerySnapshot →
    RouteContribution) (serves : Router Session → Session → RouteRequest → Nat → Prop)
    (request : RouteRequest) (opened : OpenedRouter Session) : Prop where
  steady : Steady opened.router (contribute opened.router) (serves opened.router)
  session : ∀ session, opened.session = some session →
    serves opened.router session request opened.count

section Agreement

variable (contribute : Router Session → RouteRequest → RoutePlan → List QuerySnapshot →
  RouteContribution) (request : RouteRequest)

/-- A router's new contribution is taken both beside what the later routers had contributed
and beside nothing of them, or it is taken in neither way and none of it ever was. -/
def Agrees (C : Composer) (index : Nat) (opened : OpenedRouter Session)
    (inputs : List QuerySnapshot) : Prop :=
  let upstream := C.upstreamPlan index 1
  let replaced := opened.session.isSome = true ∧
    C.Takes index opened.router.name (.ok (contribute opened.router request upstream inputs))
  let fresh := (C.restart index).Takes index opened.router.name
    (opened.router.previewed request upstream inputs)
  replaced ∧ fresh ∨ ¬replaced ∧ ¬fresh ∧ C.answered[index]? = some false

/-- The routers of one replacement agree, one after the other. -/
def AllAgree (C : Composer) (index : Nat) : List (OpenedRouter Session) → List QuerySnapshot → Prop
  | [], _ => True
  | opened :: rest, inputs => Agrees contribute request C index opened (inputs.take opened.count) ∧
    AllAgree (replaceOne C index opened (inputs.take opened.count)).2 (index + 1) rest
      (inputs.drop opened.count)

end Agreement

section Pass

variable {contribute : Router Session → RouteRequest → RoutePlan → List QuerySnapshot →
    RouteContribution} {serves : Router Session → Session → RouteRequest → Nat → Prop}
  {request : RouteRequest} {C F : Composer} {index n : Nat} {opened : OpenedRouter Session}
  {inputs : List QuerySnapshot} {targets : BTreeSet RouteTarget}

theorem Serving.replaceOne (serving : Serving contribute serves request opened)
    (count : inputs.length = opened.count) :
    Serving contribute serves request (replaceOne C index opened inputs).1 ∧
      (replaceOne C index opened inputs).1.router = opened.router ∧
      (replaceOne C index opened inputs).1.count = opened.count ∧
      (replaceOne C index opened inputs).2 = if opened.session.isSome then
        C.take index opened.router.name
          (.ok (contribute opened.router request (C.upstreamPlan index 1) inputs)) else C := by
  unfold Fava.Routing.replaceOne
  cases kept : opened.session with
  | none =>
    simp only
    exact ⟨serving, trivial, trivial, rfl⟩
  | some session =>
    have served := serving.session session kept
    rw [← count] at served
    obtain ⟨session', replaced, served'⟩ :=
      serving.steady.replaces session request (C.upstreamPlan index 1) inputs served
    simp only [replaced]
    refine ⟨⟨serving.steady, ?_⟩, trivial, trivial, rfl⟩
    rintro _ is
    cases is
    rw [count] at served'
    exact served'

/-- What a router's preview contributes if it is taken. -/
theorem previewed_of_takes (steady : Steady opened.router (contribute opened.router) (serves opened.router))
    {upstream : RoutePlan} {contribution : RouteContribution}
    (previewed : (opened.router.previewed request upstream inputs).bind (attributed · opened.router.name) =
      .ok contribution) :
    attributed (contribute opened.router request upstream inputs) opened.router.name = .ok contribution := by
  cases result : opened.router.previewed request upstream inputs with
  | error error =>
    rw [result] at previewed
    cases previewed
  | ok value =>
    rw [result] at previewed
    obtain ⟨declared, queries, result⟩ := bind_eq_ok.mp result
    obtain ⟨_, exact', result⟩ := bind_eq_ok.mp result
    have count : declared.length = inputs.length := of_require exact'
    rw [steady.preview request upstream inputs declared queries count] at result
    obtain rfl := Except.ok.inj result
    exact previewed

/-- One router's turn: the fresh pass stays with the one that replaces. -/
theorem Agrees.step (serving : Serving contribute serves request opened)
    (count : inputs.length = opened.count) (tidy : C.Tidy n targets) (within : index < n)
    (alike : (C.restart index).Alike F) (agrees : Agrees contribute request C index opened inputs) :
    (replaceOne C index opened inputs).2.Tidy n targets ∧
      ((replaceOne C index opened inputs).2.restart (index + 1)).Alike
        (F.take index opened.router.name
          (opened.router.previewed request (F.upstreamPlan index 1) inputs)) := by
  have upstream : F.upstreamPlan index 1 = C.upstreamPlan index 1 := by
    rw [alike.upstreamPlan, Composer.restart_upstreamPlan tidy within]
  obtain ⟨-, -, -, after⟩ := serving.replaceOne count
  rw [after, upstream]
  refine ⟨?_, ?_⟩
  · split
    · exact tidy.take
    · exact tidy
  · obtain ⟨⟨kept, contribution, contributed, fits⟩, contribution', previewed, fits'⟩ |
      ⟨refused, refused', unanswered⟩ := agrees
    · obtain rfl : contribution' = contribution := by
        have same := previewed_of_takes serving.steady previewed
        exact Except.ok.inj (same.symm.trans contributed)
      rw [if_pos kept, Composer.take_of_takes contributed fits]
      have fits'' : (F.put index contribution').merged.validateBounds = .ok () := by
        rw [alike.put.merged]
        exact fits'
      rw [Composer.take_of_takes previewed fits'']
      exact (Composer.restart_put tidy within).symm.trans alike.put
    · have refused'' : ¬F.Takes index opened.router.name
          (opened.router.previewed request (C.upstreamPlan index 1) inputs) := by
        rw [alike.takes]
        exact refused'
      have skipped := (Composer.restart_skip tidy unanswered).symm.trans
        (alike.trans (Composer.take_of_not_takes refused''))
      split
      · rename_i kept
        have same := Composer.take_of_not_takes fun taken => refused ⟨kept, taken⟩
        exact (Composer.restart_alike same).symm.trans skipped
      · exact skipped

/-- A replacement leaves the routers and the numbers of their inputs as they are, and their
sessions go on serving. -/
theorem replaceAll_keeps {routers : List (OpenedRouter Session)}
    (serving : ∀ opened ∈ routers, Serving contribute serves request opened) (tidy : C.Tidy n targets)
    (length : inputs.length = (routers.map (·.count)).sum) :
    (∀ opened ∈ (replaceAll C index routers inputs).1, Serving contribute serves request opened) ∧
      (replaceAll C index routers inputs).1.map (·.router) = routers.map (·.router) ∧
      (replaceAll C index routers inputs).1.map (·.count) = routers.map (·.count) ∧
      (replaceAll C index routers inputs).2.Tidy n targets := by
  induction routers generalizing C index inputs with
  | nil => exact ⟨serving, rfl, rfl, tidy⟩
  | cons opened rest ih =>
    rw [List.map_cons, List.sum_cons] at length
    rw [List.forall_mem_cons] at serving
    have first : (inputs.take opened.count).length = opened.count := by
      rw [List.length_take]
      omega
    obtain ⟨served, router, count, after⟩ :=
      serving.1.replaceOne first
    have tidy' : (replaceOne C index opened (inputs.take opened.count)).2.Tidy n targets := by
      rw [after]
      split
      · exact tidy.take
      · exact tidy
    have later : (inputs.drop opened.count).length = (rest.map (·.count)).sum := by
      rw [List.length_drop]
      omega
    obtain ⟨served', routers', counts, tidy''⟩ := ih serving.2 tidy' later
    refine ⟨List.forall_mem_cons.mpr ⟨served, served'⟩, ?_, ?_, tidy''⟩
    · exact congrArg₂ List.cons router routers'
    · exact congrArg₂ List.cons count counts

/-- The run of a replacement: a fresh pass over the same routers and inputs ends alike. -/
theorem replaceAll_alike {routers : List (OpenedRouter Session)}
    (serving : ∀ opened ∈ routers, Serving contribute serves request opened) (tidy : C.Tidy n targets)
    (length : inputs.length = (routers.map (·.count)).sum) (within : index + routers.length = n)
    (alike : (C.restart index).Alike F) (agree : AllAgree contribute request C index routers inputs) :
    (replaceAll C index routers inputs).2.Alike
      (previewAll request F index
        ((routers.map (·.router)).zip (groups (routers.map (·.count)) inputs))) := by
  induction routers generalizing C F index inputs with
  | nil =>
    obtain rfl : index = n := within
    exact (Composer.restart_all tidy).trans alike
  | cons opened rest ih =>
    rw [List.map_cons, List.sum_cons] at length
    rw [List.forall_mem_cons] at serving
    rw [List.length_cons] at within
    have first : (inputs.take opened.count).length = opened.count := by
      rw [List.length_take]
      omega
    obtain ⟨agrees, later⟩ := agree
    obtain ⟨tidy', alike'⟩ := agrees.step serving.1 first tidy (by omega) alike
    refine ih serving.2 tidy' ?_ ?_ alike' later
    · rw [List.length_drop]
      omega
    · omega

/-- A router is opened with what it would preview. -/
theorem openOne_eq {router : Router Session}
    (steady : Steady router (contribute router) (serves router)) :
    (openOne request C index router inputs).2 = C.take index router.name
        (router.previewed request (C.upstreamPlan index 1) inputs) ∧
      Serving contribute serves request (openOne request C index router inputs).1 ∧
      (openOne request C index router inputs).1.router = router := by
  obtain ⟨declared, queries⟩ := steady.queries request (C.upstreamPlan index 1)
  unfold openOne Router.opened Router.previewed Composer.take
  rw [queries]
  by_cases count : declared.length = inputs.length
  · have exact' : exactInputs declared inputs = .ok () := if_pos count
    obtain ⟨session, opens, served, current⟩ :=
      steady.opens request (C.upstreamPlan index 1) inputs declared queries count
    have previewed := steady.preview request (C.upstreamPlan index 1) inputs declared queries count
    simp only [exact', bind, Except.bind, opens, previewed, current]
    cases attributed (contribute router request (C.upstreamPlan index 1) inputs) router.name with
    | ok contribution =>
      refine ⟨rfl, ⟨steady, ?_⟩, rfl⟩
      rintro _ is
      cases is
      exact count ▸ served
    | error error => exact ⟨rfl, ⟨steady, nofun⟩, rfl⟩
  · have exact' : exactInputs declared inputs =
        .error (.refused "router input count does not match declaration") := if_neg count
    simp only [exact', bind, Except.bind]
    exact ⟨trivial, ⟨steady, nofun⟩, trivial⟩

theorem openAll_eq {routers : List (Router Session)} {inputs : List (List QuerySnapshot)}
    (steady : ∀ router ∈ routers, Steady router (contribute router) (serves router))
    (length : inputs.length = routers.length) (tidy : C.Tidy n targets) :
    (openAll request C index (routers.zip inputs)).2 =
        previewAll request C index (routers.zip inputs) ∧
      (openAll request C index (routers.zip inputs)).2.Tidy n targets ∧
      (∀ opened ∈ (openAll request C index (routers.zip inputs)).1,
        Serving contribute serves request opened) ∧
      (openAll request C index (routers.zip inputs)).1.map (·.router) = routers := by
  induction routers generalizing C index inputs with
  | nil => exact ⟨rfl, tidy, fun _ listed => absurd listed List.not_mem_nil, rfl⟩
  | cons router rest ih =>
    cases inputs with
    | nil => cases length
    | cons first later =>
      rw [List.forall_mem_cons] at steady
      obtain ⟨composer, serving, is⟩ :=
        openOne_eq steady.1
      have tidy' : (openOne request C index router first).2.Tidy n targets := by
        rw [composer]
        exact tidy.take
      obtain ⟨same, tidy'', servings, routers⟩ := ih steady.2 (Nat.succ.inj length) tidy'
      refine ⟨?_, tidy'', List.forall_mem_cons.mpr ⟨serving, servings⟩, ?_⟩
      · refine same.trans ?_
        rw [composer]
        rfl
      · exact congrArg₂ List.cons is routers

end Pass

/-- A chain after a history of replacements, none of which panicked. -/
def OpenedChain.after (chain : OpenedChain Session) (history : List (List QuerySnapshot)) :
    Option (OpenedChain Session) :=
  history.foldlM (fun chain inputs => (chain.replace inputs).map Prod.snd) chain

/-- A plan has the destinations, the coverage and the unresolved targets of a contribution. -/
def Planned (current : RouteContribution) (planned : Option (Except RouterError RoutePlan)) :
    Prop :=
  ∃ plan, planned = some (.ok plan) ∧
    plan.destinations = current.destinations.foldl planDestination ∅ ∧
    plan.coverage = current.destinations.foldl coverDestination current.coverage ∧
    plan.unresolved = current.unresolved ∪ unresolvedTargets current.coverage

/-- A chain whose routers were opened and serve a request. -/
structure Running (contribute : Router Session → RouteRequest → RoutePlan → List QuerySnapshot →
    RouteContribution) (serves : Router Session → Session → RouteRequest → Nat → Prop)
    (T : TagReader) (request : RouteRequest) (routers : List (Router Session)) (counts : List Nat)
    (chain : OpenedChain Session) : Prop where
  valid : validateNames routers = .ok ()
  unclosed : chain.closed = false
  routers : chain.routers.map (·.router) = routers
  counts : chain.routers.map (·.count) = counts
  serving : ∀ opened ∈ chain.routers, Serving contribute serves request opened
  tidy : chain.composer.Tidy chain.routers.length (request.targets T)

section Histories

variable {contribute : Router Session → RouteRequest → RoutePlan → List QuerySnapshot →
    RouteContribution} {serves : Router Session → Session → RouteRequest → Nat → Prop}
  {T : TagReader} {request : RouteRequest} {routers : List (Router Session)} {counts : List Nat}
  {chain : OpenedChain Session} {C F : Composer}

theorem length_groups {α : Type} {l : List α} : (groups counts l).length = counts.length := by
  induction counts generalizing l with
  | nil => rfl
  | cons count rest ih => exact congrArg (· + 1) ih

theorem planned_of_alike (alike : C.Alike F) (sound : F.Sound) (calm : F.panicked = false) :
    Planned C.combined (F.returned (F.plan 1)) := by
  obtain ⟨destinations, coverage, unresolved⟩ := alike.combined
  refine ⟨_, Composer.returned_eq_some.mpr ⟨calm, sound.plan⟩, ?_, ?_, ?_⟩
  · rw [destinations]
  · rw [destinations, coverage]
  · rw [unresolved, coverage]

theorem preview_eq {inputs : List (List QuerySnapshot)} (valid : validateNames routers = .ok ())
    (length : inputs.length = routers.length) : preview T request routers inputs =
      let composer := previewAll request (.new routers.length (request.targets T)) 0 (routers.zip inputs)
      composer.returned (composer.plan 1) := by
  unfold preview validateChain
  rw [valid, require, if_pos length]
  rfl

theorem Running.replace {inputs : List QuerySnapshot} {next : OpenedChain Session}
    {result : Except RouterError RouteContribution}
    (running : Running contribute serves T request routers counts chain)
    (replaced : chain.replace inputs = some (result, next)) :
    Running contribute serves T request routers counts next := by
  unfold OpenedChain.replace at replaced
  rw [if_neg (Bool.eq_false_iff.mp running.unclosed)] at replaced
  split at replaced
  · cases replaced
    exact running
  · rename_i length
    obtain ⟨-, made⟩ := Composer.returned_eq_some.mp replaced
    cases made
    obtain ⟨serving, kept, counted, tidy⟩ := replaceAll_keeps running.serving running.tidy (Decidable.not_not.mp length)
    have size := congrArg List.length kept
    rw [List.length_map, List.length_map] at size
    refine ⟨running.valid, running.unclosed, kept.trans running.routers,
      counted.trans running.counts, serving, ?_⟩
    exact size ▸ tidy

/-- The run of a history. -/
theorem Running.after {history : List (List QuerySnapshot)} {last : OpenedChain Session}
    (running : Running contribute serves T request routers counts chain)
    (reached : chain.after history = some last) :
    Running contribute serves T request routers counts last := by
  induction history generalizing chain with
  | nil =>
    obtain rfl := Option.some.inj reached
    exact running
  | cons inputs rest ih =>
    obtain ⟨next, replaced, reached⟩ := Option.bind_eq_some_iff.mp reached
    obtain ⟨⟨result, _⟩, returned, rfl⟩ := Option.map_eq_some_iff.mp replaced
    exact ih (running.replace returned) reached

theorem openChain_running {initial : List (List QuerySnapshot)}
    (steady : ∀ router ∈ routers, Steady router (contribute router) (serves router))
    (opened : openChain T request routers initial = some (.ok chain)) :
    Running contribute serves T request routers (chain.routers.map (·.count)) chain ∧
      Planned chain.current (preview T request routers initial) := by
  unfold openChain at opened
  split at opened
  · cases opened
  rename_i valid
  obtain ⟨_, valid, length⟩ := bind_eq_ok.mp valid
  have length := of_require length
  obtain ⟨calm, made⟩ := Composer.returned_eq_some.mp opened
  cases made
  obtain ⟨same, tidy, serving, is⟩ := openAll_eq steady length Composer.tidy_new
  refine ⟨⟨valid, rfl, is, rfl, serving, ?_⟩, ?_⟩
  · have size := congrArg List.length is
    rw [List.length_map] at size
    rw [size]
    exact tidy
  rw [preview_eq valid length]
  rw [← same]
  refine planned_of_alike Composer.Alike.refl ?_ calm
  rw [same]
  exact previewAll_sound Composer.sound_new

/-- Whatever was replaced before, a replacement in which every router's new contribution is
put in exactly where a fresh pass puts it in ends where that pass ends. -/
theorem replacement_forgets_history {initial : List (List QuerySnapshot)}
    (steady : ∀ router ∈ routers, Steady router (contribute router) (serves router))
    (opened : openChain T request routers initial = some (.ok chain)) :
    Planned chain.current (preview T request routers initial) ∧
      ∀ history last inputs current next, chain.after history = some last →
        last.replace inputs = some (.ok current, next) →
        AllAgree contribute request last.composer 0 last.routers inputs →
        (preview T request routers (groups (chain.routers.map (·.count)) inputs)).isSome = true →
        Planned current (preview T request routers (groups (chain.routers.map (·.count)) inputs)) := by
  obtain ⟨running, first⟩ := openChain_running steady opened
  refine ⟨first, fun history last inputs current next reached replaced agree calm => ?_⟩
  have now := running.after reached
  unfold OpenedChain.replace at replaced
  rw [if_neg (Bool.eq_false_iff.mp now.unclosed)] at replaced
  split at replaced
  · cases replaced
  · rename_i length
    obtain ⟨-, made⟩ := Composer.returned_eq_some.mp replaced
    cases made
    have size := congrArg List.length now.routers
    have sizes := congrArg List.length now.counts
    rw [List.length_map] at size sizes
    have alike := replaceAll_alike now.serving now.tidy (Decidable.not_not.mp length)
      (Nat.zero_add _) (Composer.restart_alike_new now.tidy) agree
    rw [now.routers, now.counts, size] at alike
    rw [preview_eq now.valid (length_groups.trans (sizes.symm.trans size))] at calm ⊢
    obtain ⟨_, returned⟩ := Option.isSome_iff_exists.mp calm
    exact planned_of_alike alike (previewAll_sound Composer.sound_new)
      (Composer.returned_eq_some.mp returned).1

end Histories

section Samples

/-- Relays that differ in their paths. -/
def relay (k : Nat) : RelayUrl := "wss://relay.example/" ++ String.ofList (List.replicate k 'x')

theorem relay_injective : Function.Injective relay := by
  intro k j same
  have length := congrArg String.length same
  unfold relay at length
  simp only [String.length_append, String.length_ofList, List.length_replicate] at length
  exact Nat.add_left_cancel length

/-- The relays of one router are those of its name. -/
def shelf (name : String) (n : Nat) : List Nat := List.range' (if name = "first" then 0 else 1000) n

def listing (name : String) (n : Nat) : RouteContribution :=
  ⟨(shelf name n).map fun k => ⟨relay k, {.author 4}, name, "listed"⟩, ∅, ∅, []⟩

/-- As many relays as the revisions of the inputs say. -/
def counted (name : String) (inputs : List QuerySnapshot) : RouteContribution :=
  listing name (inputs.map (·.revision)).sum

/-- A router that reads one query, keeps nothing and never fails. -/
def counting (name : String) : Router RouteContribution where
  name := name
  queries _ _ := .ok [.events]
  preview _ _ inputs := .ok (counted name inputs)
  openSession _ _ inputs := .ok (counted name inputs)
  current session := session
  replace _ _ inputs := (.ok (counted name inputs), counted name inputs)

theorem counting_steady (name : String) :
    Steady (counting name) (fun _ _ inputs => counted name inputs) fun _ _ _ => True where
  queries _ _ := ⟨_, rfl⟩
  preview _ _ _ _ _ _ := rfl
  opens _ _ _ _ _ _ := ⟨_, rfl, trivial, rfl⟩
  replaces _ _ _ _ _ := ⟨_, rfl, trivial⟩

def snapshot (revision : Nat) : QuerySnapshot := ⟨revision, [], []⟩

/-- What two such routers have come to. -/
def crowd (m n : Nat) (shortfalls : List String) : Composer :=
  ⟨[listing "first" m, listing "second" n], [true, true], shortfalls, 0, plainWrite.targets noTags, false⟩

variable {m n : Nat}

theorem sessions_size {c : RouteContribution} (few : m ≤ 1000)
    (listed : c.destinations = (listing "first" m).destinations ++ (listing "second" n).destinations) :
    c.sessions.size = m + n := by
  unfold RouteContribution.sessions
  have names : c.destinations.map (·.session) = (shelf "first" m ++ shelf "second" n).map relay := by
    rw [listed, List.map_append, List.map_append]
    simp only [listing, List.map_map, Function.comp_def]
  have apart : (shelf "first" m ++ shelf "second" n).Nodup := by
    refine List.nodup_append.mpr ⟨List.nodup_range', List.nodup_range', fun a first b second => ?_⟩
    have below := List.mem_range'_1.mp first
    have above := List.mem_range'_1.mp second
    simp only [reduceIte, String.reduceEq] at below above
    omega
  have distinct := List.Nodup.map relay_injective apart
  rw [names]
  refine (ExtTreeSet.size_ofList ?_).trans ?_
  · exact distinct.imp fun different same => different (LawfulEqOrd.eq_of_compare same)
  · simp [shelf]

theorem listing_plain {name : String} : Plain (listing name n) := by
  refine ⟨fun d listed => ?_, rfl, rfl⟩
  obtain ⟨k, -, rfl⟩ := List.mem_map.mp listed
  exact (by decide : "listed".utf8ByteSize ≤ maxTextBytes)

/-- Two such routers fit while they name at most 256 relays together. -/
theorem crowd_fits {C : Composer} (few : m ≤ 1000)
    (is : C.contributions = [listing "first" m, listing "second" n]) :
    C.merged.validateBounds = .ok () ↔ m + n ≤ 256 := by
  unfold Composer.merged
  rw [is, validateBounds_of_plain]
  · rw [sessions_size (n := n) few (by simp [combine])]
    rfl
  · intro c listed
    simp only [List.mem_cons, List.not_mem_nil, or_false] at listed
    obtain rfl | rfl := listed
    · exact listing_plain
    · exact listing_plain

theorem attributed_listing {name : String} (few : n ≤ 256) :
    attributed (listing name n) name = .ok (listing name n) := by
  have named : { listing name n with
      destinations := (listing name n).destinations.map fun d => { d with router := name } } =
        listing name n := by
    simp only [listing, List.map_map, Function.comp_def]
  have within : (listing name n).validateBounds = .ok () := by
    refine validateBounds_eq_ok.mpr ⟨?_, listing_plain.reasons, ?_, ?_⟩
    · refine Nat.le_trans ExtTreeSet.size_ofList_le ?_
      simpa [listing, shelf, maxDestinations] using few
    · intro state listed
      obtain ⟨target, entry⟩ := BTreeMap.mem_values.mp listed
      cases ExtTreeMap.getElem?_empty.symm.trans entry
    · exact fun _ listed => absurd listed List.not_mem_nil
  unfold attributed
  simp only [named, within]
  rfl

theorem accept_of_fits {C : Composer} {index : Nat} {router : String}
    {contribution : RouteContribution}
    (fits : (C.put index contribution).merged.validateBounds = .ok ()) :
    C.accept index router contribution = C.put index contribution := by
  unfold Composer.accept
  rw [fits]

theorem openOne_counting {C : Composer} {index : Nat} {name : String} (few : n ≤ 256)
    (fits : (C.put index (listing name n)).merged.validateBounds = .ok ()) :
    openOne plainWrite C index (counting name) [snapshot n] =
      (⟨counting name, 1, some (listing name n)⟩, C.put index (listing name n)) := by
  have sent : attributed ((counting name).current (listing name n)) (counting name).name =
      .ok (listing name n) := attributed_listing few
  have opened : (counting name).opened plainWrite (C.upstreamPlan index 1) [snapshot n] =
      (1, .ok (listing name n)) := rfl
  simp only [openOne, opened, sent]
  exact congrArg (Prod.mk _) (accept_of_fits fits)

theorem samples_valid : validateNames [counting "first", counting "second"] = .ok () := by
  have valid : (validateNames [counting "first", counting "second"]).isOk = true := by
    decide +kernel
  obtain ⟨_, valid⟩ := isOk_iff.mp valid
  exact valid

/-- The chain of two such routers. -/
def counters (m n : Nat) (composer : Composer) : OpenedChain RouteContribution :=
  ⟨[⟨counting "first", 1, some (listing "first" m)⟩, ⟨counting "second", 1, some (listing "second" n)⟩],
    composer, false⟩

theorem counters_opened (few : m + n ≤ 256) :
    openChain noTags plainWrite [counting "first", counting "second"]
      [[snapshot m], [snapshot n]] = some (.ok (counters m n (crowd m n []))) := by
  have first : ((Composer.new 2 (plainWrite.targets noTags)).put 0 (listing "first" m)).merged.validateBounds =
      .ok () := (crowd_fits (n := 0) (by omega) rfl).mpr (by omega)
  have second : (((Composer.new 2 (plainWrite.targets noTags)).put 0 (listing "first" m)).put 1
      (listing "second" n)).merged.validateBounds = .ok () := (crowd_fits (by omega) rfl).mpr few
  have pass : openAll plainWrite (.new 2 (plainWrite.targets noTags)) 0
      [(counting "first", [snapshot m]), (counting "second", [snapshot n])] =
        ((counters m n (crowd m n [])).routers, crowd m n []) := by
    simp only [openAll]
    rw [openOne_counting (by omega) first, openOne_counting (by omega) second]
    rfl
  have valid : validateChain [counting "first", counting "second"] [[snapshot m], [snapshot n]] =
      .ok () := by
    unfold validateChain
    rw [samples_valid]
    rfl
  unfold openChain
  rw [valid]
  exact congrArg (fun pass => Composer.returned pass.2 (Except.ok (OpenedChain.mk pass.1 pass.2 false))) pass

theorem replaceOne_counting {C : Composer} {index k : Nat} {name : String} {session : RouteContribution} :
    replaceOne C index ⟨counting name, 1, some session⟩ [snapshot k] =
      (⟨counting name, 1, some (listing name k)⟩, C.take index name (.ok (listing name k))) := rfl

theorem refusal_fits {actual maximum : Nat} (word : actual < 2 ^ 64) (word' : maximum < 2 ^ 64) :
    ("first" ++ ": " ++ (RouterError.refused ("route destinations exceed bound: " ++ toString actual ++
      " > " ++ toString maximum)).text).utf8ByteSize ≤ maxTextBytes := by
  have digits := utf8ByteSize_toString_le word
  have digits' := utf8ByteSize_toString_le word'
  have words : "first".utf8ByteSize + ": ".utf8ByteSize + "router refused work: ".utf8ByteSize +
      "route destinations exceed bound: ".utf8ByteSize + " > ".utf8ByteSize ≤ 100 := by decide
  unfold RouterError.text maxTextBytes
  simp only [String.utf8ByteSize_append]
  omega

/-- A contribution that does not fit beside the other's is recorded in a few words. -/
theorem crowd_refuses {k : Nat} (alone : k ≤ 256) (few : n ≤ 256) (beyond : 256 < k + n) :
    ∃ shortfall, (crowd m n []).take 0 "first" (.ok (listing "first" k)) = crowd m n [shortfall] := by
  have size : ((crowd m n []).put 0 (listing "first" k)).merged.sessions.size = k + n := by
    refine sessions_size (by omega) ?_
    change (completeTargets (combine _) _ _).destinations = _
    rw [completeTargets_destinations]
    simp [combine, crowd, Composer.put]
  have many : maxDestinations < ((crowd m n []).put 0 (listing "first" k)).merged.sessions.size := by
    rw [size]
    exact beyond
  have recorded := boundedError_of_short (refusal_fits (show k + n < 2 ^ 64 by omega)
    (show maxDestinations < 2 ^ 64 by decide))
  refine ⟨"first" ++ ": " ++ (RouterError.refused ("route destinations exceed bound: " ++
    toString (k + n) ++ " > " ++ toString maxDestinations)).text, ?_⟩
  unfold Composer.take Composer.accept Composer.fail
  simp only [Except.bind, attributed_listing alone, validateBounds_of_crowded many, size, recorded]
  rfl

/-- A router whose new contribution does not fit beside the other's keeps its old one. -/
theorem counters_replaced {k j : Nat} (few : m ≤ 256) (others : n ≤ 256) (alone : k ≤ 256)
    (beyond : 256 < k + n) (fits : m + j ≤ 256) :
    ∃ shortfall, (counters m n (crowd m n [])).replace [snapshot k, snapshot j] =
      some (.ok (crowd m j [shortfall]).combined, counters k j (crowd m j [shortfall])) := by
  obtain ⟨shortfall, kept⟩ := crowd_refuses (m := m) alone others beyond
  have put : (crowd m n [shortfall]).take 1 "second" (.ok (listing "second" j)) = crowd m j [shortfall] :=
    Composer.take_of_takes (attributed_listing (by omega)) ((crowd_fits (by omega) rfl).mpr fits)
  have pass : replaceAll (crowd m n []) 0 (counters m n (crowd m n [])).routers [snapshot k, snapshot j] =
      ((counters k j (crowd m j [shortfall])).routers, crowd m j [shortfall]) := by
    simp only [counters, replaceAll, List.take_succ_cons, List.take_zero, List.drop_succ_cons,
      List.drop_zero, replaceOne_counting, kept, put]
  refine ⟨shortfall, ?_⟩
  exact congrArg (fun pass => Composer.returned pass.2
    (Except.ok pass.2.combined, OpenedChain.mk pass.1 pass.2 false)) pass

theorem mem_planDestinations {destinations : List RouteDestination}
    {planned : BTreeMap RelayUrl PlannedRelay} {session : RelayUrl}
    (listed : session ∈ planned ∨ ∃ d ∈ destinations, d.session = session) :
    session ∈ destinations.foldl planDestination planned := by
  induction destinations generalizing planned with
  | nil =>
    obtain here | ⟨_, listed, -⟩ := listed
    · exact here
    · cases listed
  | cons d rest ih =>
    refine ih ?_
    unfold planDestination
    rw [ExtTreeMap.mem_insert, LawfulEqOrd.compare_eq_iff_eq]
    obtain here | ⟨e, listed, rfl⟩ := listed
    · exact .inl (.inr here)
    · obtain rfl | listed := List.mem_cons.mp listed
      · exact .inl (.inl rfl)
      · exact .inr ⟨e, listed, rfl⟩

theorem samples_steady : ∀ router ∈ [counting "first", counting "second"], Steady router
    (fun _ _ inputs => counted router.name inputs) fun _ _ _ => True := by
  intro router listed
  simp only [List.mem_cons, List.not_mem_nil, or_false] at listed
  obtain rfl | rfl := listed
  · exact counting_steady "first"
  · exact counting_steady "second"

/-- Routers that never fail, and a replacement that leaves out what a fresh pass plans. -/
theorem replacement_remembers_refusal :
    ∃ (chain next : OpenedChain RouteContribution) (current : RouteContribution),
      (∀ router ∈ [counting "first", counting "second"], Steady router
        (fun _ _ inputs => counted router.name inputs) fun _ _ _ => True) ∧
      openChain noTags plainWrite [counting "first", counting "second"]
        [[snapshot 0], [snapshot 128]] = some (.ok chain) ∧
      chain.replace [snapshot 129, snapshot 0] = some (.ok current, next) ∧
      ¬Planned current (preview noTags plainWrite [counting "first", counting "second"]
        [[snapshot 129], [snapshot 0]]) := by
  obtain ⟨shortfall, replaced⟩ := counters_replaced (m := 0) (n := 128) (k := 129) (j := 0)
    (by decide) (by decide) (by decide) (by decide) (by decide)
  refine ⟨_, _, _, samples_steady, counters_opened (by decide), replaced, ?_⟩
  rintro ⟨plan, planned, forgotten, -⟩
  obtain ⟨-, plan', planned', destinations, -⟩ := openChain_running samples_steady
    (counters_opened (m := 129) (n := 0) (by decide))
  obtain rfl := Except.ok.inj (Option.some.inj (planned.symm.trans planned'))
  have nothing : (crowd 0 0 [shortfall]).combined.destinations = [] := by
    change (completeTargets (combine _) _ _).destinations = []
    rw [completeTargets_destinations]
    rfl
  rw [nothing] at forgotten
  have there : relay 0 ∈ plan.destinations := by
    rw [destinations]
    refine mem_planDestinations (.inr ⟨⟨relay 0, {.author 4}, "first", "listed"⟩, ?_, rfl⟩)
    change _ ∈ (completeTargets (combine _) _ _).destinations
    rw [completeTargets_destinations]
    exact List.mem_flatMap.mpr ⟨listing "first" 129, List.mem_cons_self,
      List.mem_map.mpr ⟨0, List.mem_range'_1.mpr (by decide), rfl⟩⟩
  rw [forgotten] at there
  exact ExtTreeMap.not_mem_empty there

theorem samples_agree {a b k j : Nat} {shortfalls : List String} (alone : k ≤ 256) (beside : k + n ≤ 256)
    (fits : k + j ≤ 256) : AllAgree (fun router _ _ inputs => counted router.name inputs) plainWrite
      (crowd m n shortfalls) 0 (counters a b (crowd m n shortfalls)).routers [snapshot k, snapshot j] := by
  have few : j ≤ 256 := by omega
  have put : (crowd m n shortfalls).take 0 "first" (.ok (listing "first" k)) = crowd k n shortfalls :=
    Composer.take_of_takes (attributed_listing alone) ((crowd_fits (n := n) (by omega) rfl).mpr beside)
  refine ⟨.inl ⟨⟨rfl, _, attributed_listing alone, ?_⟩, _, attributed_listing alone, ?_⟩, ?_⟩
  · exact (crowd_fits (m := k) (n := n) (by omega) rfl).mpr beside
  · exact (crowd_fits (m := k) (n := 0) (by omega) rfl).mpr (by omega)
  · change AllAgree _ _ ((crowd m n shortfalls).take 0 "first" (.ok (listing "first" k))) 1
      [⟨counting "second", 1, some (listing "second" b)⟩] [snapshot j]
    rw [put]
    refine ⟨.inl ⟨⟨rfl, _, attributed_listing few, ?_⟩, _, attributed_listing few, ?_⟩, trivial⟩
    · exact (crowd_fits (m := k) (by omega) rfl).mpr fits
    · exact (crowd_fits (m := k) (by omega) rfl).mpr fits

/-- Contributions that fit beside the others are all put in. -/
theorem counters_replaced_within {a b k j : Nat} (shortfalls : List String) (alone : k ≤ 256)
    (beside : k + n ≤ 256) (fits : k + j ≤ 256) :
    (counters a b (crowd m n shortfalls)).replace [snapshot k, snapshot j] =
      some (.ok (crowd k j shortfalls).combined, counters k j (crowd k j shortfalls)) := by
  have first : (crowd m n shortfalls).take 0 "first" (.ok (listing "first" k)) = crowd k n shortfalls :=
    Composer.take_of_takes (attributed_listing alone) ((crowd_fits (n := n) (by omega) rfl).mpr beside)
  have second : (crowd k n shortfalls).take 1 "second" (.ok (listing "second" j)) =
      crowd k j shortfalls :=
    Composer.take_of_takes (attributed_listing (by omega)) ((crowd_fits (by omega) rfl).mpr fits)
  have pass : replaceAll (crowd m n shortfalls) 0 (counters a b (crowd m n shortfalls)).routers
      [snapshot k, snapshot j] =
        ((counters k j (crowd k j shortfalls)).routers, crowd k j shortfalls) := by
    simp only [counters, replaceAll, List.take_succ_cons, List.take_zero, List.drop_succ_cons,
      List.drop_zero, replaceOne_counting, first, second]
  exact congrArg (fun pass => Composer.returned pass.2
    (Except.ok pass.2.combined, OpenedChain.mk pass.1 pass.2 false)) pass

/-- The same inputs once more, and the chain has come to what is planned for them. -/
theorem replacement_forgets_history_twice :
    ∃ last current next,
      (counters 0 128 (crowd 0 128 [])).after [[snapshot 129, snapshot 0]] = some last ∧
      last.replace [snapshot 129, snapshot 0] = some (.ok current, next) ∧
      Planned current (preview noTags plainWrite [counting "first", counting "second"]
        [[snapshot 129], [snapshot 0]]) := by
  obtain ⟨shortfall, replaced⟩ := counters_replaced (m := 0) (n := 128) (k := 129) (j := 0)
    (by decide) (by decide) (by decide) (by decide) (by decide)
  have once : (counters 0 128 (crowd 0 128 [])).after [[snapshot 129, snapshot 0]] =
      some (counters 129 0 (crowd 0 0 [shortfall])) := by
    rw [OpenedChain.after, List.foldlM_cons, replaced]
    rfl
  obtain ⟨-, plan, planned, -⟩ := openChain_running samples_steady
    (counters_opened (m := 129) (n := 0) (by decide))
  have replaced := counters_replaced_within (m := 0) (n := 0) (a := 129) (b := 0) (k := 129) (j := 0)
    [shortfall] (by decide) (by decide) (by decide)
  refine ⟨_, _, _, once, replaced, ?_⟩
  exact (replacement_forgets_history samples_steady (counters_opened (by decide))).2
    [[snapshot 129, snapshot 0]] _ [snapshot 129, snapshot 0] _ _ once replaced
    (samples_agree (n := 0) (by decide) (by decide) (by decide)) (Option.isSome_of_eq_some planned)

end Samples

end Fava.Routing
