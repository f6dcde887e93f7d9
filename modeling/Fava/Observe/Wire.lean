import Fava.Lib.Run
import Fava.Observe.Slot
import Fava.Subscriptions.Shares

namespace Fava.Observe

open Std Fava.Lib Fava.Nostr Fava.Subscriptions

/-- One planning pass: what is planned for, and the identifiers the transport's
counter gave to the requests it sent. -/
structure Pass where
  demand : List RelayDemand
  constraints : RelayReadConstraints
  revision : Nat
  names : List SubscriptionId

/-- What one relay session runs when every plan is executed in full, with a bound on
the identifiers minted so far and what the last plan fell short of. -/
structure Wire where
  installed : InstalledSubscriptions
  minted : Nat
  shortfalls : List SubscriptionShortfall

namespace Wire

def new : Wire := ⟨∅, 0, []⟩

def execute (w : Wire) (plan : SubscriptionPlan) (names : List SubscriptionId) : Wire where
  installed := Holding.accepted w.installed plan (names.map some) plan.close
  minted := names.getLast?.elim w.minted (· + 1)
  shortfalls := plan.shortfalls

/-- The counter only ever counts up. -/
def mints (w : Wire) (plan : SubscriptionPlan) (names : List SubscriptionId) : Prop :=
  names.length = plan.opens.length ∧ names.Pairwise (· < ·) ∧ ∀ n ∈ names, w.minted ≤ n

instance {w : Wire} {plan : SubscriptionPlan} {names : List SubscriptionId} :
    Decidable (w.mints plan names) :=
  inferInstanceAs (Decidable (_ ∧ _ ∧ _))

def step (planner : SubscriptionPlanner) (relay : RelayUrl) (w : Wire) (a : Pass) : Option Wire :=
  match planner.plan relay a.demand a.constraints w.installed a.revision with
  | .error _ => none
  | .ok plan => if w.mints plan a.names then some (w.execute plan a.names) else none

end Wire

variable {planner : SubscriptionPlanner} {relay : RelayUrl} {revision : Nat}
  {constraints : RelayReadConstraints} {w w' : Wire} {a : Pass} {plan : SubscriptionPlan}
  {names : List SubscriptionId} {opened : List PlannedSubscription} {id : SubscriptionId}
  {entry : InstalledSubscription} {x : DemandId}

theorem Wire.step_eq_some : Wire.step planner relay w a = some w' ↔
    ∃ plan, planner.plan relay a.demand a.constraints w.installed a.revision = .ok plan ∧
      w.mints plan a.names ∧ w' = w.execute plan a.names := by
  unfold step
  cases planner.plan relay a.demand a.constraints w.installed a.revision with
  | error e => simp
  | ok plan => simp [eq_comm]

/-- Every identifier in use has been minted. -/
def Wire.Below (w : Wire) : Prop := ∀ id ∈ w.installed, id < w.minted

theorem opening_eq_zip (counted : names.length = opened.length) :
    Holding.opening opened (names.map some) = names.zip opened := by
  induction opened generalizing names with
  | nil =>
    rw [List.eq_nil_of_length_eq_zero counted]
    rfl
  | cons p opened ih =>
    obtain - | ⟨n, names⟩ := names
    · cases counted
    · have rest := ih (Nat.succ.inj counted)
      simp only [Holding.opening, List.map_cons, List.zip_cons_cons, List.filterMap_cons,
        Option.map_some] at rest ⊢
      rw [rest]

/-- The bound on what was minted passes what is minted now. -/
theorem Wire.mints.bound (mints : w.mints plan names) :
    w.minted ≤ (w.execute plan names).minted ∧
      ∀ n ∈ names, n < (w.execute plan names).minted := by
  obtain ⟨-, ascending, above⟩ := mints
  unfold execute
  induction names using List.reverseRecOn with
  | nil => exact ⟨Nat.le_refl _, by simp⟩
  | append_singleton names last _ =>
    rw [List.getLast?_concat, Option.elim_some]
    rw [List.pairwise_append] at ascending
    refine ⟨Nat.le_succ_of_le (above last (by simp)), fun n hn => ?_⟩
    obtain hn | hn := List.mem_append.mp hn
    · exact Nat.lt_succ_of_lt (ascending.2.2 n hn last (by simp))
    · exact List.mem_singleton.mp hn ▸ Nat.lt_succ_self _

section Executed

variable {admissible : List RelayDemand} {attached : Attached}
  {shortfalls : List SubscriptionShortfall}

/-- What runs once a plan has been executed: what was opened, under its new identifier,
and what keeps an owner, with the filters it had. -/
theorem Wire.installed_execute (below : w.Below)
    (mints : w.mints (assemble relay revision opened constraints w.installed
      (survivingOwners admissible w.installed attached) shortfalls) names) :
    (w.execute (assemble relay revision opened constraints w.installed
        (survivingOwners admissible w.installed attached) shortfalls) names).installed[id]? =
        some entry ↔
      (∃ p, (id, p) ∈ names.zip opened ∧ entry = ⟨p.filters, p.serves⟩) ∨
      ∃ before serves, w.installed[id]? = some before ∧
        (survivingOwners admissible w.installed attached)[id]? = some serves ∧
        entry = ⟨before.filters, serves⟩ := by
  obtain ⟨counted, ascending, above⟩ := mints
  change names.length = opened.length at counted
  -- A subscription is retained exactly when it keeps an owner.
  have retained : (w.installed.filterMap fun id current =>
      if id ∈ withdrawals w.installed (survivingOwners admissible w.installed attached) then none
      else (attributed constraints w.installed
        (survivingOwners admissible w.installed attached))[id]?.map fun attributed =>
          (⟨current.filters, attributed.serves⟩ : InstalledSubscription))[id]? = some entry ↔
        ∃ before serves, w.installed[id]? = some before ∧
          (survivingOwners admissible w.installed attached)[id]? = some serves ∧
          entry = ⟨before.filters, serves⟩ := by
    simp only [ExtTreeMap.getElem?_filterMap', Option.bind_eq_some_iff,
      Option.ite_none_left_eq_some, Option.map_eq_some_iff, mem_withdrawals]
    constructor
    · rintro ⟨before, here, -, att, found, rfl⟩
      obtain ⟨serves, -, owned, -, rfl⟩ := attributed_eq_some.mp found
      exact ⟨before, serves, here, owned, rfl⟩
    · rintro ⟨before, serves, here, owned, rfl⟩
      refine ⟨before, here, fun dropped => dropped.2 ?_, _,
        attributed_eq_some.mpr ⟨serves, before, owned, here, rfl⟩, rfl⟩
      rw [ExtTreeMap.mem_iff_isSome_getElem?, owned]
      rfl
  unfold execute Holding.accepted
  simp only [assemble]
  rw [opening_eq_zip counted, ← retained]
  constructor
  · intro found
    obtain ⟨p, listed, rfl⟩ | ⟨kept, -⟩ := BTreeMap.insertAll_eq_some found
    · exact .inl ⟨p, listed, rfl⟩
    · exact .inr kept
  · rintro (⟨p, listed, rfl⟩ | kept)
    · have member : id ∈ names := (List.of_mem_zip listed).1
      apply BTreeMap.find_insertAll_of_mem _ listed
      rw [List.map_fst_zip counted.le]
      exact ascending.imp Nat.ne_of_lt
    · rw [BTreeMap.getElem?_insertAll_of_forall_not_mem fun p listed => ?_]
      · exact kept
      · obtain ⟨before, serves, here, -⟩ := retained.mp kept
        have old := below id (by rw [ExtTreeMap.mem_iff_isSome_getElem?, here]; rfl)
        exact Nat.not_lt_of_le (above id (List.of_mem_zip listed).1) old

theorem Wire.Below.execute (below : w.Below)
    (mints : w.mints (assemble relay revision opened constraints w.installed
      (survivingOwners admissible w.installed attached) shortfalls) names) :
    (w.execute (assemble relay revision opened constraints w.installed
      (survivingOwners admissible w.installed attached) shortfalls) names).Below := by
  intro id member
  obtain ⟨entry, here⟩ := Option.isSome_iff_exists.mp
    (ExtTreeMap.mem_iff_isSome_getElem?.mp member)
  obtain ⟨p, listed, -⟩ | ⟨before, serves, old, -⟩ := (Wire.installed_execute below mints).mp here
  · exact mints.bound.2 id (List.of_mem_zip listed).1
  · refine Nat.lt_of_lt_of_le (below id ?_) mints.bound.1
    rw [ExtTreeMap.mem_iff_isSome_getElem?, old]
    rfl

end Executed

/-- Some running subscription serves this demand. -/
def Wire.serves (w : Wire) (x : DemandId) : Prop :=
  ∃ (id : SubscriptionId) (entry : InstalledSubscription),
    w.installed[id]? = some entry ∧ x ∈ entry.serves

theorem exists_name (counted : names.length = opened.length) {p : PlannedSubscription}
    (member : p ∈ opened) : ∃ id, (id, p) ∈ names.zip opened := by
  rw [← List.map_snd_zip counted.ge] at member
  obtain ⟨⟨id, q⟩, listed, rfl⟩ := List.mem_map.mp member
  exact ⟨id, listed⟩

/-- Says which running subscription is to carry a demand. -/
abbrev Host := RelayDemand → InstalledSubscriptions → Option SubscriptionId

variable {host : Host} {demand : List RelayDemand} {installed : InstalledSubscriptions}

/-- A host runs, and serves the demand already or asks for all it wants. -/
def Host.Lawful (host : Host) : Prop :=
  ∀ (d : RelayDemand) (installed : InstalledSubscriptions) (id : SubscriptionId),
    host d installed = some id → ∃ entry, installed[id]? = some entry ∧
      (d.id ∈ entry.serves ∨ ∃ f ∈ entry.filters, filterCovers f d.filter = true)

/-- A plan that attaches demand to its hosts and opens requests that carry the rest. -/
def Answered (host : Host) (relay : RelayUrl) (demand : List RelayDemand)
    (constraints : RelayReadConstraints) (installed : InstalledSubscriptions) (revision : Nat)
    (plan : SubscriptionPlan) : Prop :=
  ∃ opened shortfalls, plan = assemble relay revision opened constraints installed
      (survivingOwners (admitFilterLimits demand constraints).1 installed
        (attach (host · installed) (admitFilterLimits demand constraints).1).1) shortfalls ∧
    Subscriptions.Answers demand (admitFilterLimits demand constraints).1 constraints installed
      (attach (host · installed) (admitFilterLimits demand constraints).1).1 opened shortfalls ∧
    ∀ p ∈ opened, Carries demand p

section Answered

variable (answered : Answered host relay demand constraints w.installed revision plan)
  (below : w.Below) (mints : w.mints plan names)

include answered below mints

theorem Answered.bounded : (w.execute plan names).Below := by
  obtain ⟨opened, shortfalls, rfl, -, -⟩ := answered
  exact below.execute mints

/-- What runs afterwards serves requested demand, and all of it that is not short. -/
theorem Answered.serves :
    (∀ x, (w.execute plan names).serves x → ∃ d ∈ demand, d.id = x) ∧
      ∀ d ∈ demand, (w.execute plan names).serves d.id ∨
        ∃ s ∈ (w.execute plan names).shortfalls, s.demand = d.id := by
  obtain ⟨opened, shortfalls, rfl, answers, -⟩ := answered
  constructor
  · rintro x ⟨id, entry, here, member⟩
    obtain ⟨p, listed, rfl⟩ | ⟨before, serves, old, owned, rfl⟩ :=
      (Wire.installed_execute below mints).mp here
    · exact (answers.asked p (List.of_mem_zip listed).2).2 x member
    · exact answers.attributed_serves (attributed_eq_some.mpr ⟨serves, before, owned, old, rfl⟩) x
        member
  · intro d hd
    obtain ⟨p, hp, member⟩ | short | ⟨id, entry, old, joined⟩ := answers.accounted d hd
    · obtain ⟨id, listed⟩ := exists_name mints.1 hp
      exact .inl ⟨id, _, (Wire.installed_execute below mints).mpr (.inl ⟨p, listed, rfl⟩), member⟩
    · exact .inr short
    · have owner : Owns (admitFilterLimits demand constraints).1 (attach (host · w.installed)
          (admitFilterLimits demand constraints).1).1 id entry d.id := .inr joined
      obtain ⟨serves, owned⟩ := Option.isSome_iff_exists.mp (ExtTreeMap.mem_iff_isSome_getElem?.mp
        ((mem_survivingOwners old).mpr ⟨d.id, owner⟩))
      obtain ⟨entry', old', -, owns⟩ := survivingOwners_eq_some.mp owned
      rw [old, Option.some.injEq] at old'
      subst old'
      exact .inl ⟨id, _, (Wire.installed_execute below mints).mpr
        (.inr ⟨entry, serves, old, owned, rfl⟩), (owns d.id).mpr owner⟩

end Answered

/-- What a plan opens or keeps serves demand that it covers, or that it served before. -/
theorem Answered.covers (lawful : host.Lawful)
    (answered : Answered host relay demand constraints installed revision plan) :
    (∀ p ∈ plan.opens, ∀ x ∈ p.serves,
      ∃ d ∈ demand, d.id = x ∧ ∃ f ∈ p.filters, filterCovers f d.filter = true) ∧
    ∀ (id : SubscriptionId) (a : AttributedSubscription), plan.attribution[id]? = some a →
      ∀ x ∈ a.serves,
        (∃ entry : InstalledSubscription, installed[id]? = some entry ∧ x ∈ entry.serves) ∨
          ∃ d ∈ demand, d.id = x ∧ ∃ f ∈ a.filters, filterCovers f d.filter = true := by
  obtain ⟨opened, shortfalls, rfl, answers, carries⟩ := answered
  constructor
  · intro p hp x served
    obtain ⟨-, filter, filters, covers⟩ := carries p hp
    obtain ⟨d, hd, rfl, covered⟩ := covers x served
    exact ⟨d, hd, rfl, filter, by simp [filters], covered⟩
  · intro id a found x served
    obtain ⟨serves, entry, owned, old, rfl⟩ := attributed_eq_some.mp found
    obtain ⟨entry', old', -, owns⟩ := survivingOwners_eq_some.mp owned
    rw [old, Option.some.injEq] at old'
    subst old'
    obtain ⟨held, -⟩ | joined := (owns x).mp served
    · exact .inl ⟨entry, old, held⟩
    · obtain ⟨d, hd, hosted, rfl⟩ := attach_joined.mp joined
      obtain ⟨entry', old', covered⟩ := lawful d installed id hosted
      rw [old, Option.some.injEq] at old'
      subst old'
      obtain held | covers := covered
      · exact .inl ⟨entry, old, held⟩
      · exact .inr ⟨d, answers.within d hd, rfl, covers⟩

/-- What runs asks for all that the demand it serves wants, where each demand keeps the
filter `filterOf` gives it. -/
def Wire.Covering (filterOf : DemandId → Filter) (w : Wire) : Prop :=
  ∀ (id : SubscriptionId) (entry : InstalledSubscription), w.installed[id]? = some entry →
    ∀ x ∈ entry.serves, ∃ f ∈ entry.filters, filterCovers f (filterOf x) = true

theorem Answered.covering {filterOf : DemandId → Filter} (lawful : host.Lawful)
    (answered : Answered host relay demand constraints w.installed revision plan)
    (below : w.Below) (mints : w.mints plan names)
    (keeps : ∀ d ∈ demand, d.filter = filterOf d.id) (covering : w.Covering filterOf) :
    (w.execute plan names).Covering filterOf := by
  obtain ⟨opens, attributes⟩ := answered.covers lawful
  obtain ⟨opened, shortfalls, rfl, answers, carries⟩ := answered
  intro id entry here x member
  obtain ⟨p, listed, rfl⟩ | ⟨before, serves, old, owned, rfl⟩ :=
    (Wire.installed_execute below mints).mp here
  · obtain ⟨d, hd, rfl, filter, inside, covered⟩ := opens p (List.of_mem_zip listed).2 x member
    exact ⟨filter, inside, keeps d hd ▸ covered⟩
  · obtain ⟨entry, here', held⟩ | ⟨d, hd, rfl, filter, inside, covered⟩ :=
      attributes id _ (attributed_eq_some.mpr ⟨serves, before, owned, old, rfl⟩) x member
    · rw [old, Option.some.injEq] at here'
      exact covering id before old x (here' ▸ held)
    · exact ⟨filter, inside, keeps d hd ▸ covered⟩

theorem hostFor_lawful : Host.Lawful hostFor := by
  intro d installed id hosted
  obtain ⟨e, found, rfl⟩ := Option.map_eq_some_iff.mp hosted
  obtain found | ⟨-, found⟩ := (Option.orElse_eq_some _ _ _).mp found
  · have serves := List.find?_some found
    exact ⟨e.2, BTreeMap.find_of_first found, .inl (ExtTreeSet.contains_iff_mem.mp serves)⟩
  · have covers := List.find?_some found
    exact ⟨e.2, BTreeMap.find_of_first found, .inr (List.any_eq_true.mp covers)⟩

theorem runningHost_lawful : Host.Lawful OnePerDemand.runningHost := by
  intro d installed id hosted
  obtain ⟨e, found, rfl⟩ := Option.map_eq_some_iff.mp hosted
  refine ⟨e.2, BTreeMap.find_of_first found, ?_⟩
  have carries := List.find?_some found
  obtain serves | same := Bool.or_eq_true_iff.mp carries
  · exact .inl (ExtTreeSet.contains_iff_mem.mp serves)
  · exact .inr ⟨d.filter, by simp [of_decide_eq_true same], filterCovers_refl⟩

theorem standard_answered {encoder : Encoder} (distinct : Distinguishes encoder demand)
    (h : StandardSubscriptionPlanner.plan encoder relay demand constraints installed revision =
      .ok plan) : Answered hostFor relay demand constraints installed revision plan := by
  obtain ⟨opened, shortfalls, rfl, answers⟩ := StandardSubscriptionPlanner.answers distinct h
  obtain ⟨candidates, large, eq, answered⟩ := StandardSubscriptionPlanner.plan_answered distinct h
  refine ⟨opened, shortfalls, rfl, answers, fun p hp => ?_⟩
  have fitted := (answered _ _ fitted_answering fun sub within => (group_grouped
    (distinct.subset fun d hd => (mem_pending.mp (within d hd)).1.1)).covering).fold
  have same := congrArg SubscriptionPlan.opens eq
  simp only [assemble] at same
  rw [same] at hp
  exact (fitted.carries p (fitResidualCount_sublist.subset
    ((List.perm_insertionSort _ _).mem_iff.mp hp))).mono fun d hd => (mem_pending.mp hd).1.1

theorem single_answered {encoder : Encoder}
    (h : OnePerDemand.plan encoder relay demand constraints installed revision = .ok plan) :
    Answered OnePerDemand.runningHost relay demand constraints installed revision plan := by
  obtain ⟨items, required, carried, dropped, ordered, -, held, rfl⟩ := OnePerDemand.plan_carried h
  refine ⟨carried, _, rfl, Fitted.answers (fun d id => OnePerDemand.runningHost_known)
    (held.fitted.congr fun d => ordered.mem_iff) held.apart held.fresh held.room, fun p hp => ?_⟩
  exact (held.fitted.carries p hp).mono fun d hd => (mem_pending.mp (ordered.mem_iff.mp hd)).1.1

end Fava.Observe
