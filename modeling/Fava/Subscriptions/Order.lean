import Fava.Subscriptions.Exact

namespace Fava.Subscriptions

open Std Fava.Lib Fava.Nostr

variable {encoder : Encoder} {relay : RelayUrl} {revision steps : Nat}
  {constraints : RelayReadConstraints} {demand demand' : List RelayDemand}
  {installed : InstalledSubscriptions} {plan : SubscriptionPlan} {queue : List Candidate}
  {carried : List PlannedSubscription} {shortfalls : List SubscriptionShortfall}

section Canonical

/-- The order demand is put in: by the text of its filter, then by its identifier. -/
def canonicalCmp (encoder : Encoder) : RelayDemand → RelayDemand → Ordering :=
  compareLex (compareOn fun d => encoder.canonicalEncoding d.filter) (compareOn RelayDemand.id)

instance : TransCmp (canonicalCmp encoder) :=
  inferInstanceAs (TransCmp (compareLex _ _))

instance : Std.Total fun left right => (canonicalCmp encoder left right).isLE = true where
  total left right := by
    cases h : canonicalCmp encoder left right with
    | lt => exact .inl rfl
    | eq => exact .inl rfl
    | gt =>
      right
      rw [OrientedCmp.gt_iff_lt.mp h]
      rfl

instance : IsTrans RelayDemand fun left right => (canonicalCmp encoder left right).isLE = true where
  trans _ _ _ := TransCmp.isLE_trans

/-- Demand with distinct identifiers has one canonical order. -/
theorem canonicalOrder_eq (nodup : (ids demand).Nodup) (same : demand.Perm demand') :
    canonicalOrder encoder demand = canonicalOrder encoder demand' := by
  have first := List.pairwise_insertionSort
    (fun left right => (canonicalCmp encoder left right).isLE = true) demand
  have second := List.pairwise_insertionSort
    (fun left right => (canonicalCmp encoder left right).isLE = true) demand'
  have perm : (canonicalOrder encoder demand).Perm (canonicalOrder encoder demand') :=
    canonicalOrder_perm.trans (same.trans canonicalOrder_perm.symm)
  refine perm.eq_of_pairwise (fun a b ha hb le ge => ?_) first second
  have equal := OrientedCmp.isLE_antisymm le ge
  rw [canonicalCmp, compareLex_eq_eq] at equal
  have alike : a.id = b.id := LawfulEqCmp.compare_eq_iff_eq.mp equal.2
  refine List.inj_on_of_nodup_map nodup (canonicalOrder_perm.mem_iff.mp ha) ?_ alike
  exact same.mem_iff.mpr (canonicalOrder_perm.mem_iff.mp hb)

theorem group_eq (nodup : (ids demand).Nodup) (same : demand.Perm demand') :
    group encoder demand constraints = group encoder demand' constraints := by
  rw [group, group, canonicalOrder_eq nodup same]

end Canonical

theorem attach_mem {host : RelayDemand → Option SubscriptionId} {id : SubscriptionId} :
    id ∈ (attach host demand).1 ↔ ∃ d ∈ demand, host d = some id := by
  induction demand using List.reverseRecOn with
  | nil => simp [attach]
  | append_singleton demand item ih =>
    rw [attach_append_singleton]
    simp only [List.mem_append, List.mem_singleton, or_and_right, exists_or, exists_eq_left]
    cases hosted : host item with
    | none => simp [ih]
    | some at' =>
      simp only [Attached.add, ExtTreeMap.mem_insert, LawfulEqCmp.compare_eq_iff_eq, ih,
        Option.some.injEq]
      exact or_comm

/-- Whom demand is attached to does not depend on the order it is looked at in. -/
theorem attach_eq {host : RelayDemand → Option SubscriptionId} (same : demand.Perm demand') :
    (attach host demand).1 = (attach host demand').1 := by
  have listed : ∀ id : SubscriptionId,
      id ∈ (attach host demand).1 ↔ id ∈ (attach host demand').1 := by
    intro id
    simp only [attach_mem, same.mem_iff]
  have joined : ∀ id : SubscriptionId,
      (attach host demand).1.joined id = (attach host demand').1.joined id := by
    intro id
    apply ExtTreeSet.ext_mem
    intro x
    simp only [attach_joined, same.mem_iff]
  apply ExtTreeMap.ext_getElem?
  intro id
  have here := joined id
  unfold Attached.joined at here
  by_cases member : id ∈ (attach host demand).1
  · obtain ⟨serves, found⟩ := Option.isSome_iff_exists.mp
      (ExtTreeMap.mem_iff_isSome_getElem?.mp member)
    obtain ⟨serves', found'⟩ := Option.isSome_iff_exists.mp
      (ExtTreeMap.mem_iff_isSome_getElem?.mp ((listed id).mp member))
    rw [found, found'] at here ⊢
    exact congrArg some here
  · have absent : id ∉ (attach host demand').1 := fun there => member ((listed id).mpr there)
    rw [ExtTreeMap.mem_iff_isSome_getElem?, Option.not_isSome_iff_eq_none] at member absent
    rw [member, absent]

theorem requestedIds_eq (same : demand.Perm demand') : requestedIds demand = requestedIds demand' := by
  apply ExtTreeSet.ext_mem
  intro x
  rw [mem_requestedIds, mem_requestedIds]
  simp only [same.mem_iff]

theorem survivingOwners_eq {attached : Attached} (same : demand.Perm demand') :
    survivingOwners demand installed attached = survivingOwners demand' installed attached := by
  unfold survivingOwners
  rw [requestedIds_eq same]

/-- The splitting loop only adds to what it is given. -/
theorem fitMessageBound_from : fitMessageBound encoder constraints steps queue carried shortfalls =
    (fitMessageBound encoder constraints steps queue [] []).map
      fun fitted => (carried ++ fitted.1, shortfalls ++ fitted.2) := by
  induction steps generalizing queue carried shortfalls with
  | zero => simp [fitMessageBound, Except.map]
  | succ steps ih =>
    obtain - | ⟨⟨filter, held⟩, queue⟩ := queue
    · simp [fitMessageBound, Except.map]
    · have regroup : ∀ (queue : List Candidate) (carried planned : List PlannedSubscription)
          (shortfalls dropped : List SubscriptionShortfall),
          fitMessageBound encoder constraints steps queue (carried ++ planned)
            (shortfalls ++ dropped) = (fitMessageBound encoder constraints steps queue planned
              dropped).map fun fitted => (carried ++ fitted.1, shortfalls ++ fitted.2) := by
        intro queue carried planned shortfalls dropped
        rw [@ih queue (carried ++ planned) (shortfalls ++ dropped), @ih queue planned dropped]
        cases fitMessageBound encoder constraints steps queue [] [] with
        | error e => rfl
        | ok fitted => simp [Except.map]
      simp only [fitMessageBound]
      split
      · exact ih
      · split
        · rfl
        · split
          · have more := fun planned => regroup queue carried planned shortfalls []
            rw [List.append_nil] at more
            exact more _
          · split
            · have more := regroup queue carried [] shortfalls
              rw [List.append_nil] at more
              exact more _
            · exact ih

namespace StandardSubscriptionPlanner

theorem pending_perm (same : demand.Perm demand') :
    (pending demand constraints installed).Perm (pending demand' constraints installed) := by
  rw [pending, pending, attach_pending, attach_pending]
  exact (same.filter _).filter _

/-- A plan is a function of the demand and not of the order it comes in. -/
theorem plan_order_independent (encoder : Encoder) (relay : RelayUrl)
    (constraints : RelayReadConstraints) (installed : InstalledSubscriptions) (revision : Nat)
    (same : demand.Perm demand')
    (h : StandardSubscriptionPlanner.plan encoder relay demand constraints installed revision =
      .ok plan) :
    ∃ plan', StandardSubscriptionPlanner.plan encoder relay demand' constraints installed revision =
        .ok plan' ∧
      plan'.opens = plan.opens ∧ plan'.retain = plan.retain ∧ plan'.close = plan.close ∧
      plan'.attribution = plan.attribution ∧ plan'.shortfalls.Perm plan.shortfalls := by
  have nodup := nodup_of_plan h
  have nodup' : (ids demand').Nodup := (same.map _).nodup_iff.mp nodup
  have admitted : (admitFilterLimits demand constraints).1.Perm
      (admitFilterLimits demand' constraints).1 := same.filter _
  have limited : (admitFilterLimits demand' constraints).2.Perm
      (admitFilterLimits demand constraints).2 := same.symm.filterMap _
  have grouped : group encoder (pending demand constraints installed) constraints =
      group encoder (pending demand' constraints installed) constraints :=
    group_eq (pending_nodup nodup) (pending_perm same)
  unfold pending at grouped
  unfold StandardSubscriptionPlanner.plan at h ⊢
  rw [refuseDuplicateDemand_ok.mpr nodup] at h
  rw [refuseDuplicateDemand_ok.mpr nodup']
  simp only [bind, Except.bind, pure, Except.pure] at h ⊢
  rw [fitMessageBound_from, grouped] at h
  rw [fitMessageBound_from]
  cases fitted : fitMessageBound encoder constraints (splitBound (group encoder
      (attach (hostFor · installed) (admitFilterLimits demand' constraints).1).2 constraints))
      (group encoder (attach (hostFor · installed) (admitFilterLimits demand' constraints).1).2
        constraints) [] [] with
  | error e =>
    rw [fitted] at h
    cases h
  | ok fitted' =>
    rw [fitted] at h
    simp only [Except.map, Except.ok.injEq] at h ⊢
    subst h
    rw [attach_eq admitted, survivingOwners_eq admitted]
    refine ⟨_, rfl, rfl, rfl, rfl, rfl, ?_⟩
    exact (limited.append_right _).append_right _

theorem two_kinds_either_way :
    ∃ plan plan', StandardSubscriptionPlanner.plan kindsEncoder "wss://relay" [kindDemand 1 1,
        kindDemand 2 2] .unknown ∅ 1 = .ok plan ∧
      StandardSubscriptionPlanner.plan kindsEncoder "wss://relay" [kindDemand 2 2, kindDemand 1 1]
        .unknown ∅ 1 = .ok plan' ∧ plan'.opens = plan.opens := by
  obtain ⟨plan, found⟩ : ∃ plan, StandardSubscriptionPlanner.plan kindsEncoder "wss://relay"
      [kindDemand 1 1, kindDemand 2 2] .unknown ∅ 1 = .ok plan :=
    plan_total (by decide +kernel) fun filters => ⟨_, rfl⟩
  obtain ⟨plan', found', opens, -⟩ := plan_order_independent kindsEncoder "wss://relay" .unknown ∅ 1
    (List.Perm.swap (kindDemand 2 2) (kindDemand 1 1) []) found
  exact ⟨plan, plan', found, found', opens⟩

end StandardSubscriptionPlanner

end Fava.Subscriptions
