import Fava.Subscriptions.Owners

namespace Fava.Subscriptions

open Std Fava.Lib Fava.Nostr

variable {relay : RelayUrl} {revision : Nat} {constraints : RelayReadConstraints}
  {demand admissible : List RelayDemand} {installed : InstalledSubscriptions} {attached : Attached}
  {opened : List PlannedSubscription} {shortfalls : List SubscriptionShortfall}
  {plan : SubscriptionPlan} {ids : List SubscriptionId}

theorem checkBucket_ok {seen : List SubscriptionId} (nodup : ids.Nodup)
    (apart : ∀ id ∈ ids, id ∉ seen) (known : ∀ id ∈ ids, installed[id]? ≠ none) :
    checkBucket installed seen ids = .ok () := by
  induction ids generalizing seen with
  | nil => rfl
  | cons id ids ih =>
    rw [checkBucket, if_neg (apart id (by simp)), if_neg (known id (by simp))]
    rw [List.nodup_cons] at nodup
    refine ih nodup.2 (fun other member => ?_) fun other member => known other (by simp [member])
    rw [List.mem_cons, not_or]
    refine ⟨?_, apart other (by simp [member])⟩
    rintro rfl
    exact nodup.1 member

theorem checkRetainedFilters_ok (same : ∀ id ∈ ids, ∃ entry a, installed[id]? = some entry ∧
    plan.attribution[id]? = some a ∧ a.filters = entry.filters) :
    checkRetainedFilters installed plan ids = .ok () := by
  induction ids with
  | nil => rfl
  | cons id ids ih =>
    obtain ⟨entry, a, here, found, eq⟩ := same id (by simp)
    simp only [checkRetainedFilters, here, found, eq, ne_eq, not_true, if_false]
    exact ih fun other member => same other (by simp [member])

theorem checkRunningSubscriptions_ok :
    checkRunningSubscriptions demand installed ids = .ok () ↔
      ∀ id ∈ ids, ∀ entry, installed[id]? = some entry →
        ∀ x ∈ entry.serves, x ∉ requestedIds demand := by
  induction ids with
  | nil => simp [checkRunningSubscriptions]
  | cons id ids ih =>
    rw [checkRunningSubscriptions, List.forall_mem_cons, ← ih]
    cases here : installed[id]? with
    | none => simp
    | some entry =>
      simp only [Option.some.injEq, forall_eq']
      cases found : entry.serves.toList.find? fun served => (requestedIds demand).contains served with
      | some x =>
        have member := List.mem_of_find?_eq_some found
        have wanted := List.find?_some found
        rw [ExtTreeSet.mem_toList] at member
        rw [ExtTreeSet.contains_iff_mem] at wanted
        simp only [reduceCtorEq, false_iff, not_and]
        exact fun none => (none x member wanted).elim
      | none =>
        rw [List.find?_eq_none] at found
        simp only [iff_and_self]
        intro _ x member wanted
        exact found x (ExtTreeSet.mem_toList.mpr member) (ExtTreeSet.contains_iff_mem.mpr wanted)

theorem checkDistinct_ok {retained : List (SubscriptionId × List Filter)}
    {planned : List (List Filter)} {position : Nat}
    (apart : opened.Pairwise fun p q => p.filters ≠ q.filters)
    (fresh : ∀ p ∈ opened, ∀ e ∈ retained, e.2 ≠ p.filters)
    (new : ∀ p ∈ opened, p.filters ∉ planned) :
    checkDistinct retained planned position opened = .ok () := by
  induction opened generalizing planned position with
  | nil => rfl
  | cons p opened ih =>
    rw [List.pairwise_cons] at apart
    have absent : (retained.find? fun e => e.2 = p.filters) = none := by
      rw [List.find?_eq_none]
      intro e he
      simpa using fresh p (by simp) e he
    simp only [checkDistinct, absent, if_neg (new p (by simp))]
    refine ih apart.2 (fun q hq => fresh q (by simp [hq])) fun q hq => ?_
    rw [List.mem_cons, not_or]
    exact ⟨fun eq => apart.1 q hq eq.symm, new q (by simp [hq])⟩

theorem find?_not_requested {γ : Type} {l : List γ} {f : γ → DemandId} :
    l.find? (fun x => !(requestedIds demand).contains (f x)) = none ↔
      ∀ x ∈ l, ∃ d ∈ demand, d.id = f x := by
  rw [List.find?_eq_none]
  simp only [Bool.not_eq_true', Bool.not_eq_false, contains_requestedIds]

/-- A plan invents no demand, accounts for all of it, and falls short of none else. -/
theorem checkDemand_ok : checkDemand demand plan = .ok () ↔
    (∀ x ∈ servedBy plan, ∃ d ∈ demand, d.id = x) ∧
      (∀ d ∈ demand, (∃ s ∈ plan.shortfalls, s.demand = d.id) ∨ d.id ∈ servedBy plan) ∧
      ∀ s ∈ plan.shortfalls, ∃ d ∈ demand, d.id = s.demand := by
  have complete : (requestedIds demand).toList.find? (fun x => decide (x ∉
      plan.shortfalls.map SubscriptionShortfall.demand ++ servedBy plan)) = none ↔
        ∀ d ∈ demand, (∃ s ∈ plan.shortfalls, s.demand = d.id) ∨ d.id ∈ servedBy plan := by
    rw [List.find?_eq_none]
    simp only [decide_eq_true_eq, not_not, List.mem_append, List.mem_map, ExtTreeSet.mem_toList,
      mem_requestedIds, forall_exists_index, and_imp, forall_apply_eq_imp_iff₂]
  have honest : (servedBy plan).find? (fun x => !(requestedIds demand).contains x) = none ↔
      ∀ x ∈ servedBy plan, ∃ d ∈ demand, d.id = x := find?_not_requested (f := fun x => x)
  rw [← complete, ← honest, ← find?_not_requested (f := SubscriptionShortfall.demand)]
  unfold checkDemand
  dsimp only
  split
  · rename_i invented
    simp only [invented, reduceCtorEq, false_and]
  · rename_i served
    split
    · rename_i lost
      simp only [lost, reduceCtorEq, false_and, and_false]
    · rename_i accounted
      split
      · rename_i other
        simp only [other, reduceCtorEq, and_false]
      · rename_i named
        simp only [served, accounted, named, and_self]

theorem seq_ok {first second : Conformance Unit} :
    (do first; second) = .ok () ↔ first = .ok () ∧ second = .ok () := by
  cases first with
  | error e => simp [bind, Except.bind]
  | ok u => simp [bind, Except.bind]

/-- What conforms accounts for the demand it answers. -/
theorem checkDemand_of_validatePlan
    (valid : validatePlan relay demand constraints installed plan = .ok ()) :
    checkDemand demand plan = .ok () := by
  unfold validatePlan at valid
  simp only [seq_ok] at valid
  exact valid.2.2.2.2.1

/-- An answer to the demand, before it is turned into a diff: what is admissible is
attached to a running subscription, opened or left as a shortfall. -/
structure Answers (demand admissible : List RelayDemand) (constraints : RelayReadConstraints)
    (installed : InstalledSubscriptions) (attached : Attached) (opened : List PlannedSubscription)
    (shortfalls : List SubscriptionShortfall) : Prop where
  within : ∀ d ∈ admissible, d ∈ demand
  hosted : ∀ id x, x ∈ attached.joined id → ∃ d ∈ admissible, d.id = x
  asked : ∀ p ∈ opened, p.filters ≠ [] ∧ ∀ x ∈ p.serves, ∃ d ∈ demand, d.id = x
  named : ∀ s ∈ shortfalls, ∃ d ∈ demand, d.id = s.demand
  accounted : ∀ d ∈ demand, (∃ p ∈ opened, d.id ∈ p.serves) ∨ (∃ s ∈ shortfalls, s.demand = d.id) ∨
    ∃ id entry, installed[id]? = some entry ∧ d.id ∈ attached.joined id
  apart : opened.Pairwise fun p q => p.filters ≠ q.filters
  fresh : ∀ p ∈ opened, ∀ (id : SubscriptionId) (entry : InstalledSubscription),
    installed[id]? = some entry → entry.filters ≠ p.filters
  room : ∀ maximum, constraints.maxSubscriptions = some maximum →
    opened.length ≤ maximum - (survivingOwners admissible installed attached).size

section Assembled

variable {owners : Attached} {id : SubscriptionId}

theorem attributed_eq_some {a : AttributedSubscription} :
    (attributed constraints installed owners)[id]? = some a ↔
      ∃ serves entry, owners[id]? = some serves ∧ installed[id]? = some entry ∧
        a = ⟨entry.filters, serves, completeness entry.filters constraints⟩ := by
  simp only [attributed, ExtTreeMap.getElem?_filterMap', Option.bind_eq_some_iff,
    Option.map_eq_some_iff, eq_comm (a := a), exists_and_left]

theorem mem_attributed_keys (known : ∀ id ∈ owners, ∃ entry, installed[id]? = some entry) :
    id ∈ (attributed constraints installed owners).keys ↔ id ∈ owners := by
  rw [ExtTreeMap.mem_keys, ExtTreeMap.mem_iff_isSome_getElem?, Option.isSome_iff_exists]
  constructor
  · rintro ⟨a, found⟩
    obtain ⟨serves, entry, owned, -⟩ := attributed_eq_some.mp found
    exact ExtTreeMap.mem_iff_isSome_getElem?.mpr (by simp [owned])
  · intro member
    obtain ⟨serves, owned⟩ := Option.isSome_iff_exists.mp
      (ExtTreeMap.mem_iff_isSome_getElem?.mp member)
    obtain ⟨entry, here⟩ := known id member
    exact ⟨_, attributed_eq_some.mpr ⟨serves, entry, owned, here, rfl⟩⟩

theorem length_attributed_keys (known : ∀ id ∈ owners, ∃ entry, installed[id]? = some entry) :
    (attributed constraints installed owners).keys.length = owners.size := by
  rw [ExtTreeMap.length_keys, attributed, ExtTreeMap.size_filterMap_eq_size_iff]
  intro id member
  obtain ⟨entry, here⟩ := known id member
  simp [here]

theorem mem_withdrawals :
    id ∈ withdrawals installed owners ↔ (∃ entry, installed[id]? = some entry) ∧ id ∉ owners := by
  rw [withdrawals, List.mem_filter, ExtTreeMap.mem_keys, ExtTreeMap.mem_iff_isSome_getElem?,
    Option.isSome_iff_exists, Bool.not_eq_true', ← Bool.not_eq_true]
  rfl

theorem buckets_nodup (known : ∀ id ∈ owners, ∃ entry, installed[id]? = some entry) :
    ((attributed constraints installed owners).keys ++ withdrawals installed owners).Nodup := by
  rw [List.nodup_append]
  refine ⟨ExtTreeMap.nodup_keys, ExtTreeMap.nodup_keys.filter _, ?_⟩
  rintro id kept id' dropped rfl
  exact (mem_withdrawals.mp dropped).2 ((mem_attributed_keys known).mp kept)

end Assembled

theorem survivingOwners_known {id : SubscriptionId}
    (member : id ∈ survivingOwners demand installed attached) :
    ∃ entry, installed[id]? = some entry := by
  obtain ⟨serves, found⟩ := Option.isSome_iff_exists.mp
    (ExtTreeMap.mem_iff_isSome_getElem?.mp member)
  obtain ⟨entry, here, -⟩ := survivingOwners_eq_some.mp found
  exact ⟨entry, here⟩

namespace Answers

variable (answers : Answers demand admissible constraints installed attached opened shortfalls)
include answers

theorem attributed_serves {a : AttributedSubscription} {id : SubscriptionId}
    (found : (attributed constraints installed
      (survivingOwners admissible installed attached))[id]? = some a) :
    ∀ x ∈ a.serves, ∃ d ∈ demand, d.id = x := by
  obtain ⟨serves, entry, owned, here, rfl⟩ := attributed_eq_some.mp found
  obtain ⟨entry', -, -, owns⟩ := survivingOwners_eq_some.mp owned
  intro x member
  have admitted : ∃ d ∈ admissible, d.id = x := by
    obtain ⟨-, requested⟩ | joined := (owns x).mp member
    · exact mem_requestedIds.mp requested
    · exact answers.hosted id x joined
  obtain ⟨d, hd, eq⟩ := admitted
  exact ⟨d, answers.within d hd, eq⟩

omit answers in
theorem attached_served {x : DemandId} {id : SubscriptionId} {entry : InstalledSubscription}
    (here : installed[id]? = some entry) (joined : x ∈ attached.joined id) :
    ∃ a, (id, a) ∈ (attributed constraints installed
      (survivingOwners admissible installed attached)).toList ∧ x ∈ a.serves := by
  have owner : Owns admissible attached id entry x := .inr joined
  obtain ⟨serves, owned⟩ := Option.isSome_iff_exists.mp (ExtTreeMap.mem_iff_isSome_getElem?.mp
    ((mem_survivingOwners here).mpr ⟨x, owner⟩))
  obtain ⟨entry', here', -, owns⟩ := survivingOwners_eq_some.mp owned
  rw [here, Option.some.injEq] at here'
  subst here'
  refine ⟨⟨entry.filters, serves, completeness entry.filters constraints⟩, ?_, (owns x).mpr owner⟩
  rw [ExtTreeMap.mem_toList_iff_getElem?_eq_some]
  exact attributed_eq_some.mpr ⟨serves, entry, owned, here, rfl⟩

theorem demand_checked : checkDemand demand (assemble relay revision opened constraints installed
    (survivingOwners admissible installed attached) shortfalls) = .ok () := by
  refine checkDemand_ok.mpr ⟨fun x member => ?_, fun d hd => ?_, answers.named⟩
  · obtain member | member := List.mem_append.mp member
    · obtain ⟨⟨id, a⟩, listed, member⟩ := List.mem_flatMap.mp member
      exact answers.attributed_serves (ExtTreeMap.mem_toList_iff_getElem?_eq_some.mp listed) x
        (ExtTreeSet.mem_toList.mp member)
    · obtain ⟨p, hp, member⟩ := List.mem_flatMap.mp member
      exact (answers.asked p hp).2 x (ExtTreeSet.mem_toList.mp member)
  · simp only [servedBy, List.mem_append, List.mem_flatMap, ExtTreeSet.mem_toList]
    obtain carried | short | ⟨id, entry, here, joined⟩ := answers.accounted d hd
    · exact .inr (.inr carried)
    · exact .inl short
    · obtain ⟨a, listed, member⟩ := attached_served here joined
      exact .inr (.inl ⟨(id, a), listed, member⟩)

/-- Every rule holds of the diff but one: a running subscription may lose its last
admissible owner while demand it serves is still requested. -/
theorem validates : validatePlan relay demand constraints installed (assemble relay revision opened
      constraints installed (survivingOwners admissible installed attached) shortfalls) = .ok () ↔
    ∀ (id : SubscriptionId) (entry : InstalledSubscription), installed[id]? = some entry →
      (∃ x ∈ entry.serves, x ∈ requestedIds demand) → ∃ x, Owns admissible attached id entry x := by
  have known : ∀ id ∈ survivingOwners admissible installed attached,
      ∃ entry, installed[id]? = some entry := fun id => survivingOwners_known
  have buckets : checkBuckets installed (assemble relay revision opened constraints installed
      (survivingOwners admissible installed attached) shortfalls) = .ok () := by
    refine checkBucket_ok (buckets_nodup known) (by simp) fun id member => ?_
    have here : ∃ entry, installed[id]? = some entry := by
      obtain kept | dropped := List.mem_append.mp member
      · exact known id ((mem_attributed_keys known).mp kept)
      · exact (mem_withdrawals.mp dropped).1
    obtain ⟨entry, here⟩ := here
    simp [here]
  have filters : checkFilters installed (assemble relay revision opened constraints installed
      (survivingOwners admissible installed attached) shortfalls) = .ok () := by
    have filled : opened.findIdx? (fun planned => planned.filters.isEmpty) = none := by
      rw [List.findIdx?_eq_none_iff]
      intro p hp
      simpa using (answers.asked p hp).1
    simp only [checkFilters, assemble, filled]
    refine checkRetainedFilters_ok fun id kept => ?_
    obtain ⟨a, found⟩ := Option.isSome_iff_exists.mp (ExtTreeMap.mem_iff_isSome_getElem?.mp
      (ExtTreeMap.mem_keys.mp kept))
    obtain ⟨serves, entry, -, here, rfl⟩ := attributed_eq_some.mp found
    exact ⟨entry, _, here, found, rfl⟩
  have distinct : checkDistinctFilters installed (assemble relay revision opened constraints
      installed (survivingOwners admissible installed attached) shortfalls) = .ok () := by
    refine checkDistinct_ok answers.apart (fun p hp e he => ?_) (by simp)
    obtain ⟨id, -, found⟩ := List.mem_filterMap.mp he
    obtain ⟨entry, here, rfl⟩ := Option.map_eq_some_iff.mp found
    exact answers.fresh p hp id entry here
  have limits : checkDeclaredLimits constraints (assemble relay revision opened constraints
      installed (survivingOwners admissible installed attached) shortfalls) = .ok () := by
    unfold checkDeclaredLimits
    split
    · rfl
    · rename_i maximum declared
      simp only [assemble, length_attributed_keys known]
      have room := answers.room maximum declared
      rw [if_neg (by omega)]
  unfold validatePlan
  simp only [seq_ok, buckets, filters, answers.demand_checked, distinct, limits, checkRelay,
    checkAttributionKeys, true_and, and_true, checkRunningSubscriptions_ok]
  simp only [assemble, if_true, true_and, mem_withdrawals]
  constructor
  · intro running id entry here ⟨x, member, wanted⟩
    rw [← mem_survivingOwners here]
    by_contra lost
    exact running id ⟨⟨entry, here⟩, lost⟩ entry here x member wanted
  · rintro kept id ⟨-, lost⟩ entry here x member wanted
    exact lost ((mem_survivingOwners here).mpr (kept id entry here ⟨x, member, wanted⟩))

end Answers

end Fava.Subscriptions
