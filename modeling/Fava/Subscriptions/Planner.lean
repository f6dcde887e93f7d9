import Fava.Subscriptions.Conforms

namespace Fava.Subscriptions

open Std Fava.Lib Fava.Nostr

/-- What the owner of the wire relies on in a plan: every running subscription is
either closed or attributed with its own filters, and every completeness is the one
the filters and the declared limits give. -/
structure PlanLawful (constraints : RelayReadConstraints) (installed : InstalledSubscriptions)
    (revision : Nat) (plan : SubscriptionPlan) : Prop where
  revised : plan.revision = revision
  kept : ∀ id ∈ installed, id ∈ plan.close ∨ id ∈ plan.attribution
  closes : ∀ id ∈ plan.close, id ∈ installed
  attributes : ∀ (id : SubscriptionId) (a : AttributedSubscription),
    plan.attribution[id]? = some a → id ∉ plan.close ∧
      a.completeness = completeness a.filters constraints ∧
        ∃ entry : InstalledSubscription, installed[id]? = some entry ∧ a.filters = entry.filters
  opened : ∀ p ∈ plan.opens, p.completeness = completeness p.filters constraints

/-- A grouping policy. -/
structure SubscriptionPlanner where
  plan : RelayUrl → List RelayDemand → RelayReadConstraints → InstalledSubscriptions → Nat →
    Except SubscriptionPlanError SubscriptionPlan
  lawful : ∀ relay demand constraints installed revision p,
    plan relay demand constraints installed revision = .ok p →
      PlanLawful constraints installed revision p

variable {encoder : Encoder} {relay : RelayUrl} {revision : Nat}
  {constraints : RelayReadConstraints} {demand : List RelayDemand}
  {installed : InstalledSubscriptions} {plan : SubscriptionPlan}
  {planned : List PlannedSubscription} {shortfalls : List SubscriptionShortfall}

/-- Every request says what its own filters and the declared limits give. -/
def Stated (constraints : RelayReadConstraints) (planned : List PlannedSubscription) : Prop :=
  ∀ p ∈ planned, p.completeness = completeness p.filters constraints

theorem Stated.upsert {same : PlannedSubscription → Bool}
    {join : PlannedSubscription → PlannedSubscription} {new : PlannedSubscription}
    (stated : Stated constraints planned)
    (kept : ∀ c, (join c).filters = c.filters ∧ (join c).completeness = c.completeness)
    (first : new.completeness = completeness new.filters constraints) :
    Stated constraints (upsert same join new planned) := by
  intro p hp
  obtain old | ⟨rfl, -⟩ | ⟨c, hc, -, rfl⟩ := mem_upsert hp
  · exact stated p old
  · exact first
  · rw [(kept c).1, (kept c).2]
    exact stated c hc

theorem assemble_lawful {attached : Attached} (stated : Stated constraints planned) :
    PlanLawful constraints installed revision (assemble relay revision planned constraints installed
      (survivingOwners demand installed attached) shortfalls) where
  revised := rfl
  kept id member := by
    have known : ∀ id ∈ survivingOwners demand installed attached,
        ∃ entry, installed[id]? = some entry := fun id => survivingOwners_known
    by_cases owned : id ∈ survivingOwners demand installed attached
    · exact .inr (ExtTreeMap.mem_keys.mp ((mem_attributed_keys known).mpr owned))
    · refine .inl (mem_withdrawals.mpr ⟨?_, owned⟩)
      exact Option.isSome_iff_exists.mp (ExtTreeMap.mem_iff_isSome_getElem?.mp member)
  closes id dropped := by
    obtain ⟨entry, here⟩ := (mem_withdrawals.mp dropped).1
    rw [ExtTreeMap.mem_iff_isSome_getElem?, here]
    rfl
  attributes id a found := by
    obtain ⟨serves, entry, owned, here, rfl⟩ := attributed_eq_some.mp found
    refine ⟨fun dropped => (mem_withdrawals.mp dropped).2 ?_, rfl, entry, here, rfl⟩
    rw [ExtTreeMap.mem_iff_isSome_getElem?, owned]
    rfl
  opened := stated

theorem fitMessageBound_stated {steps : Nat} {queue : List Candidate}
    {carried carried' : List PlannedSubscription} {shortfalls' : List SubscriptionShortfall}
    (stated : Stated constraints carried)
    (h : fitMessageBound encoder constraints steps queue carried shortfalls =
      .ok (carried', shortfalls')) : Stated constraints carried' := by
  induction steps generalizing queue carried shortfalls with
  | zero =>
    cases h
    exact stated
  | succ steps ih =>
    obtain - | ⟨⟨filter, held⟩, queue⟩ := queue
    · cases h
      exact stated
    · rw [fitMessageBound] at h
      split at h
      · exact ih stated h
      · split at h
        · cases h
        · split at h
          · refine ih (fun p hp => ?_) h
            obtain hp | hp := List.mem_append.mp hp
            · exact stated p hp
            · rw [List.mem_singleton.mp hp]
          · split at h
            · exact ih stated h
            · exact ih stated h

theorem foldIdenticalFilters_stated (stated : Stated constraints planned) :
    Stated constraints (foldIdenticalFilters planned) := by
  induction planned using List.reverseRecOn with
  | nil => exact stated
  | append_singleton planned p ih =>
    rw [foldIdenticalFilters_append_singleton]
    exact (ih fun q hq => stated q (by simp [hq])).upsert (fun c => ⟨rfl, rfl⟩)
      (stated p (by simp))

theorem foldIntoRunning_sublist {attached : Attached} :
    List.Sublist (foldIntoRunning planned installed attached).1 planned := by
  unfold foldIntoRunning
  induction planned using List.reverseRecOn with
  | nil => exact .slnil
  | append_singleton planned p ih =>
    rw [List.foldl_append, List.foldl_cons, List.foldl_nil]
    split
    rename_i kept attached eq
    rw [eq] at ih
    split
    · exact ih.trans (List.sublist_append_left _ _)
    · exact ih.append (.refl _)

/-- The grouping policy the engine is assembled with. -/
def StandardSubscriptionPlanner.planner (encoder : Encoder) : SubscriptionPlanner where
  plan := StandardSubscriptionPlanner.plan encoder
  lawful relay demand constraints installed revision p h := by
    obtain ⟨candidates, shortfalls, found, opened, attached, folded, rfl⟩ := plan_eq_ok h
    refine assemble_lawful fun q hq => ?_
    have stated := foldIdenticalFilters_stated (fitMessageBound_stated (by simp [Stated]) found)
    have kept : List.Sublist opened (foldIdenticalFilters candidates) := by
      have sub : List.Sublist (foldIntoRunning (foldIdenticalFilters candidates) installed
          (attach (hostFor · installed) (admitFilterLimits demand constraints).1).1).1
          (foldIdenticalFilters candidates) := foldIntoRunning_sublist
      rwa [folded] at sub
    exact stated q (kept.subset
      (fitResidualCount_sublist.subset ((List.perm_insertionSort _ _).mem_iff.mp hq)))

theorem OnePerDemand.carry_stated {running required : Nat} {item : RelayDemand}
    (stated : Stated constraints planned) : Stated constraints
      (carry encoder constraints running required installed (planned, shortfalls) item).1 := by
  unfold carry
  dsimp only
  split
  · exact stated
  · split
    · exact stated.upsert (fun c => ⟨rfl, rfl⟩) rfl
    · split
      · exact stated
      · split
        · exact stated
        · intro p hp
          obtain hp | hp := List.mem_append.mp hp
          · exact stated p hp
          · rw [List.mem_singleton.mp hp]

theorem OnePerDemand.foldl_carry_stated {running required : Nat} {items : List RelayDemand} :
    Stated constraints (items.foldl (carry encoder constraints running required installed)
      ([], shortfalls)).1 := by
  induction items using List.reverseRecOn with
  | nil => simp [Stated]
  | append_singleton items item ih =>
    rw [List.foldl_append, List.foldl_cons, List.foldl_nil]
    exact carry_stated ih

/-- The policy that never groups. -/
def OnePerDemand.planner (encoder : Encoder) : SubscriptionPlanner where
  plan := OnePerDemand.plan encoder
  lawful relay demand constraints installed revision p h := by
    unfold OnePerDemand.plan at h
    cases unique : refuseDuplicateDemand demand with
    | error e => simp [unique, bind, Except.bind] at h
    | ok u =>
      simp only [unique, bind, Except.bind, pure, Except.pure, Except.ok.injEq] at h
      subst h
      exact assemble_lawful foldl_carry_stated

end Fava.Subscriptions
