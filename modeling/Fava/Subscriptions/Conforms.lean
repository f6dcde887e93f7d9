import Fava.Subscriptions.Answers
import Fava.Subscriptions.Fitting

namespace Fava.Subscriptions

open Std Fava.Lib Fava.Nostr

variable {encoder : Encoder} {relay : RelayUrl} {revision : Nat}
  {constraints : RelayReadConstraints} {demand : List RelayDemand}
  {installed : InstalledSubscriptions} {plan : SubscriptionPlan} {id : SubscriptionId}

section Limits

theorem mem_admissible {d : RelayDemand} : d ∈ (admitFilterLimits demand constraints).1 ↔
    d ∈ demand ∧ withinLimit constraints d = true :=
  List.mem_filter

theorem limit_beyond {s : SubscriptionShortfall}
    (hs : s ∈ (admitFilterLimits demand constraints).2) :
    ∃ d ∈ demand, d.id = s.demand ∧ withinLimit constraints d ≠ true := by
  obtain ⟨d, hd, found⟩ := List.mem_filterMap.mp hs
  unfold limitShortfall at found
  split at found
  · rename_i maximum required declared asked
    split at found
    · rename_i beyond
      cases found
      refine ⟨d, hd, rfl, ?_⟩
      simpa [withinLimit, declared, asked] using beyond
    · cases found
  · cases found

theorem limit_named {s : SubscriptionShortfall}
    (hs : s ∈ (admitFilterLimits demand constraints).2) : ∃ d ∈ demand, d.id = s.demand := by
  obtain ⟨d, hd, eq, -⟩ := limit_beyond hs
  exact ⟨d, hd, eq⟩

theorem limit_accounted {d : RelayDemand} (hd : d ∈ demand)
    (beyond : withinLimit constraints d ≠ true) :
    ∃ s ∈ (admitFilterLimits demand constraints).2, s.demand = d.id := by
  unfold withinLimit at beyond
  split at beyond
  · rename_i maximum required declared asked
    rw [ne_eq, decide_eq_true_eq, Nat.not_le] at beyond
    refine ⟨⟨d.id, .filterLimitExceeded required maximum⟩, List.mem_filterMap.mpr ⟨d, hd, ?_⟩, rfl⟩
    simp [limitShortfall, declared, asked, beyond]
  · exact (beyond rfl).elim

end Limits

/-- Every running subscription that serves requested demand also serves, or is the
one to carry, requested demand whose limit is still within the declared one. -/
def Kept (host : RelayDemand → InstalledSubscriptions → Option SubscriptionId)
    (demand : List RelayDemand) (constraints : RelayReadConstraints)
    (installed : InstalledSubscriptions) : Prop :=
  ∀ (id : SubscriptionId) (entry : InstalledSubscription), installed[id]? = some entry →
    (∃ d ∈ demand, d.id ∈ entry.serves) →
      ∃ d ∈ demand, withinLimit constraints d = true ∧
        (d.id ∈ entry.serves ∨ host d installed = some id)

/-- The owners a running subscription keeps, in the terms of `Kept`. -/
theorem exists_owns {host : RelayDemand → Option SubscriptionId} {entry : InstalledSubscription} :
    (∃ x, Owns (admitFilterLimits demand constraints).1
      (attach host (admitFilterLimits demand constraints).1).1 id entry x) ↔
      ∃ d ∈ demand, withinLimit constraints d = true ∧ (d.id ∈ entry.serves ∨ host d = some id) := by
  simp only [Owns, mem_requestedIds, attach_joined, mem_admissible]
  constructor
  · rintro ⟨x, ⟨serves, d, ⟨hd, within⟩, rfl⟩ | ⟨d, ⟨hd, within⟩, hosted, rfl⟩⟩
    · exact ⟨d, hd, within, .inl serves⟩
    · exact ⟨d, hd, within, .inr hosted⟩
  · rintro ⟨d, hd, within, serves | hosted⟩
    · exact ⟨d.id, .inl ⟨serves, d, ⟨hd, within⟩, rfl⟩⟩
    · exact ⟨d.id, .inr ⟨d, ⟨hd, within⟩, hosted, rfl⟩⟩

theorem Answers.validates_iff_kept
    {host : RelayDemand → InstalledSubscriptions → Option SubscriptionId}
    {opened : List PlannedSubscription} {shortfalls : List SubscriptionShortfall}
    (answers : Answers demand (admitFilterLimits demand constraints).1 constraints installed
      (attach (host · installed) (admitFilterLimits demand constraints).1).1 opened shortfalls) :
    validatePlan relay demand constraints installed (assemble relay revision opened constraints
      installed (survivingOwners (admitFilterLimits demand constraints).1 installed
        (attach (host · installed) (admitFilterLimits demand constraints).1).1) shortfalls) =
          .ok () ↔ Kept host demand constraints installed := by
  rw [answers.validates, Kept]
  refine forall_congr' fun id => forall_congr' fun entry => imp_congr_right fun here => ?_
  rw [exists_owns]
  simp only [mem_requestedIds]
  refine imp_congr_left ⟨?_, ?_⟩
  · rintro ⟨x, serves, d, hd, rfl⟩
    exact ⟨d, hd, serves⟩
  · rintro ⟨d, hd, serves⟩
    exact ⟨d.id, serves, d, hd, rfl⟩

section Fitted

variable {host : RelayDemand → InstalledSubscriptions → Option SubscriptionId}
  {opened : List PlannedSubscription} {dropped : List SubscriptionShortfall}

theorem mem_pending {d : RelayDemand} :
    d ∈ (attach (host · installed) (admitFilterLimits demand constraints).1).2 ↔
      (d ∈ demand ∧ withinLimit constraints d = true) ∧ host d installed = none := by
  rw [attach_pending, List.mem_filter, mem_admissible, Option.isNone_iff_eq_none]

/-- Requests fitted to the pending demand complete the answer to all of it. -/
theorem Fitted.answers
    (known : ∀ d id, host d installed = some id → ∃ entry, installed[id]? = some entry)
    (fitted : Fitted (attach (host · installed) (admitFilterLimits demand constraints).1).2
      opened dropped)
    (apart : opened.Pairwise fun p q => p.filters ≠ q.filters)
    (fresh : ∀ p ∈ opened, ∀ (id : SubscriptionId) (entry : InstalledSubscription),
      installed[id]? = some entry → entry.filters ≠ p.filters)
    (room : ∀ maximum, constraints.maxSubscriptions = some maximum →
      opened.length ≤ maximum - (survivingOwners (admitFilterLimits demand constraints).1 installed
        (attach (host · installed) (admitFilterLimits demand constraints).1).1).size) :
    Answers demand (admitFilterLimits demand constraints).1 constraints installed
      (attach (host · installed) (admitFilterLimits demand constraints).1).1 opened
      ((admitFilterLimits demand constraints).2 ++ dropped) where
  within d hd := (mem_admissible.mp hd).1
  hosted id x joined := by
    obtain ⟨d, hd, -, eq⟩ := attach_joined.mp joined
    exact ⟨d, hd, eq⟩
  asked p hp := by
    obtain ⟨-, filter, filters, covers⟩ := fitted.carries p hp
    refine ⟨by simp [filters], fun x hx => ?_⟩
    obtain ⟨d, hd, eq, -⟩ := covers x hx
    exact ⟨d, (mem_pending.mp hd).1.1, eq⟩
  named s hs := by
    obtain beyond | short := List.mem_append.mp hs
    · exact limit_named beyond
    · obtain ⟨d, hd, eq⟩ := fitted.named s short
      exact ⟨d, (mem_pending.mp hd).1.1, eq⟩
  accounted d hd := by
    by_cases within : withinLimit constraints d = true
    · cases hosted : host d installed with
      | some id =>
        obtain ⟨entry, here⟩ := known d id hosted
        exact .inr (.inr ⟨id, entry, here,
          attach_joined.mpr ⟨d, mem_admissible.mpr ⟨hd, within⟩, hosted, rfl⟩⟩)
      | none =>
        obtain carried | ⟨s, hs, eq⟩ := fitted.accounted d (mem_pending.mpr ⟨⟨hd, within⟩, hosted⟩)
        · exact .inl carried
        · exact .inr (.inl ⟨s, List.mem_append_right _ hs, eq⟩)
    · obtain ⟨s, hs, eq⟩ := limit_accounted hd within
      exact .inr (.inl ⟨s, List.mem_append_left _ hs, eq⟩)
  apart := apart
  fresh := fresh
  room := room

theorem Fitted.perm {opened' : List PlannedSubscription} (same : opened'.Perm opened)
    (fitted : Fitted demand opened dropped) : Fitted demand opened' dropped where
  carries p hp := fitted.carries p (same.mem_iff.mp hp)
  named := fitted.named
  accounted d hd := by
    obtain ⟨p, hp, hx⟩ | short := fitted.accounted d hd
    · exact .inl ⟨p, same.mem_iff.mpr hp, hx⟩
    · exact .inr short

end Fitted

namespace StandardSubscriptionPlanner

/-- A demand no running subscription hosts is covered by no running filter. -/
theorem uncovered_of_hostFor {d : RelayDemand} {entry : InstalledSubscription}
    (unhosted : hostFor d installed = none) (here : installed[id]? = some entry) :
    ∀ f ∈ entry.filters, filterCovers f d.filter = false := by
  intro f hf
  unfold hostFor at unhosted
  rw [Option.map_eq_none_iff, Option.orElse_eq_none] at unhosted
  have none := List.find?_eq_none.mp unhosted.2 (id, entry)
    (ExtTreeMap.mem_toList_iff_getElem?_eq_some.mpr here)
  simp only [List.any_eq_true, not_exists, not_and, Bool.not_eq_true] at none
  exact none f hf

theorem hostFor_known {d : RelayDemand} (hosted : hostFor d installed = some id) :
    ∃ entry, installed[id]? = some entry := by
  obtain ⟨e, found, rfl⟩ := Option.map_eq_some_iff.mp hosted
  obtain found | ⟨-, found⟩ := (Option.orElse_eq_some _ _ _).mp found
  · exact ⟨e.2, BTreeMap.find_of_first found⟩
  · exact ⟨e.2, BTreeMap.find_of_first found⟩

/-- Demand no running subscription hosts. -/
def pending (demand : List RelayDemand) (constraints : RelayReadConstraints)
    (installed : InstalledSubscriptions) : List RelayDemand :=
  (attach (hostFor · installed) (admitFilterLimits demand constraints).1).2

/-- Who keeps which running subscription open. -/
def owners (demand : List RelayDemand) (constraints : RelayReadConstraints)
    (installed : InstalledSubscriptions) : Attached :=
  survivingOwners (admitFilterLimits demand constraints).1 installed
    (attach (hostFor · installed) (admitFilterLimits demand constraints).1).1

/-- What the planner opens, out of the candidates that fit. -/
def opening (candidates : List PlannedSubscription) (constraints : RelayReadConstraints)
    (running : Nat) : List PlannedSubscription × List SubscriptionShortfall :=
  fitResidualCount (foldIdenticalFilters candidates) constraints running

theorem plan_eq_ok (h : StandardSubscriptionPlanner.plan encoder relay demand constraints installed
    revision = .ok plan) :
    ∃ candidates shortfalls,
      fitMessageBound encoder constraints
        (splitBound (group encoder (attach (hostFor · installed)
          (admitFilterLimits demand constraints).1).2 constraints))
        (group encoder (attach (hostFor · installed)
          (admitFilterLimits demand constraints).1).2 constraints) []
        (admitFilterLimits demand constraints).2 = .ok (candidates, shortfalls) ∧
      ∃ opened attached, foldIntoRunning (foldIdenticalFilters candidates) installed
          (attach (hostFor · installed) (admitFilterLimits demand constraints).1).1 =
            (opened, attached) ∧
        plan = assemble relay revision (sortByFilters (fitResidualCount opened constraints
          (survivingOwners (admitFilterLimits demand constraints).1 installed attached).size).1)
          constraints installed
          (survivingOwners (admitFilterLimits demand constraints).1 installed attached)
          (shortfalls ++ (fitResidualCount opened constraints
            (survivingOwners (admitFilterLimits demand constraints).1 installed
              attached).size).2) := by
  unfold StandardSubscriptionPlanner.plan at h
  cases unique : refuseDuplicateDemand demand with
  | error e => simp [unique, bind, Except.bind] at h
  | ok u =>
    simp only [unique, bind, Except.bind] at h
    split at h
    · cases h
    · rename_i fitted found
      cases h
      exact ⟨_, _, found, _, _, rfl, rfl⟩

/-- A request with a running subscription's filters would cover demand that it hosts. -/
theorem fresh_of_carries {p : PlannedSubscription} {entry : InstalledSubscription}
    (carries : Carries (pending demand constraints installed) p)
    (here : installed[id]? = some entry) : entry.filters ≠ p.filters := by
  intro same
  obtain ⟨⟨x, hx⟩, filter, filters, covers⟩ := carries
  obtain ⟨d, hd, -, covered⟩ := covers x hx
  have uncovered := uncovered_of_hostFor (mem_pending.mp hd).2 here filter
    (by rw [same, filters]; exact List.mem_singleton_self _)
  rw [covered] at uncovered
  cases uncovered

/-- A plan is assembled from candidates that answer for the pending demand, whatever the
splitting loop keeps. -/
theorem plan_answered (distinct : Distinguishes encoder demand)
    (h : StandardSubscriptionPlanner.plan encoder relay demand constraints installed revision =
      .ok plan) :
    ∃ candidates large,
      plan = assemble relay revision
        (sortByFilters (opening candidates constraints (owners demand constraints installed).size).1)
        constraints installed (owners demand constraints installed)
        ((admitFilterLimits demand constraints).2 ++ large ++
          (opening candidates constraints (owners demand constraints installed).size).2) ∧
      ∀ Q R, Answering encoder constraints Q R →
        (∀ sub : List RelayDemand, (∀ d ∈ sub, d ∈ pending demand constraints installed) →
          ∀ c ∈ group encoder sub constraints, Q c) →
        R (pending demand constraints installed) candidates large := by
  obtain ⟨candidates, shortfalls, found, opened, attached, folded, rfl⟩ := plan_eq_ok h
  have apart : Distinguishes encoder (pending demand constraints installed) :=
    distinct.subset fun d hd => (mem_pending.mp hd).1.1
  have grouped : Grouped _ (group encoder (pending demand constraints installed) constraints) :=
    group_grouped apart
  have enough : 2 * (pending demand constraints installed).length ≤ splitBound
      (group encoder (pending demand constraints installed) constraints) +
        (group encoder (pending demand constraints installed) constraints).length := by
    rw [splitBound_eq, grouped.shared.length_eq]
    omega
  obtain ⟨_, dropped, rfl, rfl, fitted⟩ := fitMessageBound_spec grouped apart enough found
  rw [foldIntoRunning_eq fun p hp id entry => fresh_of_carries (fitted.fold.carries p hp),
    Prod.mk.injEq] at folded
  obtain ⟨rfl, rfl⟩ := folded
  refine ⟨candidates, dropped, rfl, fun Q R answering kept => ?_⟩
  obtain ⟨planned', dropped', eqc, eqs, answered⟩ :=
    fitMessageBound_rule answering grouped apart kept (kept _ fun _ hd => hd) enough found
  rw [eqc, List.nil_append, List.append_cancel_left eqs]
  exact answered

theorem answers (distinct : Distinguishes encoder demand)
    (h : StandardSubscriptionPlanner.plan encoder relay demand constraints installed revision =
      .ok plan) :
    ∃ opened shortfalls, plan = assemble relay revision opened constraints installed
        (survivingOwners (admitFilterLimits demand constraints).1 installed
          (attach (hostFor · installed) (admitFilterLimits demand constraints).1).1) shortfalls ∧
      Answers demand (admitFilterLimits demand constraints).1 constraints installed
        (attach (hostFor · installed) (admitFilterLimits demand constraints).1).1 opened
        shortfalls := by
  obtain ⟨candidates, large, rfl, answered⟩ := plan_answered distinct h
  have fitted := (answered _ _ fitted_answering fun sub within => (group_grouped
    (distinct.subset fun d hd => (mem_pending.mp (within d hd)).1.1)).covering).fold
  rw [List.append_assoc]
  refine ⟨_, _, rfl, Fitted.answers (fun d id => hostFor_known)
    (fitted.residual.perm (List.perm_insertionSort _ _)) ?_ ?_ ?_⟩
  · refine ((List.perm_insertionSort _ _).pairwise_iff fun apart => Ne.symm apart).mpr ?_
    exact foldIdenticalFilters_apart.sublist fitResidualCount_sublist
  · intro p hp id entry
    exact fresh_of_carries (fitted.carries p
      (fitResidualCount_sublist.subset ((List.perm_insertionSort _ _).mem_iff.mp hp)))
  · intro maximum declared
    rw [sortByFilters, (List.perm_insertionSort _ _).length_eq]
    exact fitResidualCount_room declared

end StandardSubscriptionPlanner

namespace OnePerDemand

theorem runningHost_known {d : RelayDemand} (hosted : runningHost d installed = some id) :
    ∃ entry, installed[id]? = some entry := by
  obtain ⟨e, found, rfl⟩ := Option.map_eq_some_iff.mp hosted
  exact ⟨e.2, BTreeMap.find_of_first found⟩

/-- A demand no running subscription hosts is no running subscription's only filter. -/
theorem distinct_of_runningHost {d : RelayDemand} {entry : InstalledSubscription}
    (unhosted : runningHost d installed = none) (here : installed[id]? = some entry) :
    entry.filters ≠ [d.filter] := by
  unfold runningHost at unhosted
  rw [Option.map_eq_none_iff] at unhosted
  have absent := List.find?_eq_none.mp unhosted (id, entry)
    (ExtTreeMap.mem_toList_iff_getElem?_eq_some.mpr here)
  simp only [Bool.or_eq_true, decide_eq_true_eq, not_or] at absent
  exact absent.2

variable {running required : Nat} {items : List RelayDemand} {item : RelayDemand}
  {carried : List PlannedSubscription} {shortfalls dropped : List SubscriptionShortfall}

/-- What holds of the requests after some of the pending demand was admitted. -/
structure Carried (constraints : RelayReadConstraints) (installed : InstalledSubscriptions)
    (running : Nat) (items : List RelayDemand) (carried : List PlannedSubscription)
    (dropped : List SubscriptionShortfall) : Prop where
  fitted : Fitted items carried dropped
  apart : carried.Pairwise fun p q => p.filters ≠ q.filters
  fresh : ∀ p ∈ carried, ∀ (id : SubscriptionId) (entry : InstalledSubscription),
    installed[id]? = some entry → entry.filters ≠ p.filters
  room : ∀ maximum, constraints.maxSubscriptions = some maximum →
    carried.length ≤ maximum - running

theorem Carried.drop {reason : ShortfallReason}
    (before : Carried constraints installed running items carried dropped) :
    Carried constraints installed running (items ++ [item]) carried
      (dropped ++ [⟨item.id, reason⟩]) where
  fitted := by simpa using before.fitted.append (fitted_dropped (d := item))
  apart := before.apart
  fresh := before.fresh
  room := before.room

theorem fitted_single {how : EoseCompleteness} :
    Fitted [item] [⟨[item.filter], {item.id}, how⟩] [] := by
  refine ⟨?_, by simp, fun d hd => .inl ⟨_, List.mem_singleton_self _, ?_⟩⟩
  · intro p hp
    obtain rfl := List.mem_singleton.mp hp
    refine ⟨⟨item.id, BTreeSet.mem_singleton.mpr rfl⟩, item.filter, rfl, fun x hx => ?_⟩
    exact ⟨item, by simp, (BTreeSet.mem_singleton.mp hx).symm, filterCovers_refl⟩
  · rw [List.mem_singleton.mp hd]
    exact BTreeSet.mem_singleton.mpr rfl

theorem Carried.open {how : EoseCompleteness}
    (before : Carried constraints installed running items carried dropped)
    (unhosted : runningHost item installed = none)
    (space : ∀ maximum, constraints.maxSubscriptions = some maximum →
      carried.length < maximum - running)
    (new : ∀ p ∈ carried, p.filters ≠ [item.filter]) :
    Carried constraints installed running (items ++ [item])
      (carried ++ [⟨[item.filter], {item.id}, how⟩]) dropped where
  fitted := by simpa using before.fitted.append fitted_single
  apart := by
    rw [List.pairwise_append]
    exact ⟨before.apart, by simp, fun p hp q hq => List.mem_singleton.mp hq ▸ new p hp⟩
  fresh p hp id entry here := by
    obtain hp | hp := List.mem_append.mp hp
    · exact before.fresh p hp id entry here
    · rw [List.mem_singleton.mp hp]
      exact distinct_of_runningHost unhosted here
  room maximum declared := by
    have := space maximum declared
    rw [List.length_append, List.length_singleton]
    omega

theorem Carried.join {how : EoseCompleteness}
    (before : Carried constraints installed running items carried dropped)
    (hit : (carried.any fun planned => planned.filters = [item.filter]) = true) :
    Carried constraints installed running (items ++ [item])
      (upsert (fun planned => planned.filters = [item.filter])
        (fun planned => { planned with serves := planned.serves.insert item.id })
        ⟨[item.filter], {item.id}, how⟩ carried) dropped := by
  have found : ∀ p ∈ upsert (fun planned => planned.filters = [item.filter])
      (fun planned => { planned with serves := planned.serves.insert item.id })
        ⟨[item.filter], {item.id}, how⟩ carried,
      p ∈ carried ∨ ∃ c ∈ carried, c.filters = [item.filter] ∧
        p = { c with serves := c.serves.insert item.id } := by
    intro p hp
    obtain old | ⟨-, none⟩ | ⟨c, hc, same, rfl⟩ := mem_upsert hp
    · exact .inl old
    · obtain ⟨c, hc, same⟩ := List.any_eq_true.mp hit
      rw [none c hc] at same
      cases same
    · exact .inr ⟨c, hc, of_decide_eq_true same, rfl⟩
  refine ⟨⟨?_, ?_, ?_⟩, ?_, ?_, ?_⟩
  · intro p hp
    obtain old | ⟨c, hc, same, rfl⟩ := found p hp
    · exact (before.fitted.carries p old).mono fun d hd => by simp [hd]
    · obtain ⟨-, filter, filters, covers⟩ := before.fitted.carries c hc
      obtain rfl : filter = item.filter := by simpa [filters] using same
      refine ⟨⟨item.id, by simp⟩, item.filter, filters, fun x hx => ?_⟩
      obtain rfl | hx := BTreeSet.mem_insert.mp hx
      · exact ⟨item, by simp, rfl, filterCovers_refl⟩
      · obtain ⟨d, hd, eq, covered⟩ := covers x hx
        exact ⟨d, by simp [hd], eq, covered⟩
  · intro s hs
    obtain ⟨d, hd, eq⟩ := before.fitted.named s hs
    exact ⟨d, by simp [hd], eq⟩
  · intro d hd
    have served : ({item.id} : BTreeSet DemandId).contains d.id = true ∨
        (∃ p ∈ carried, d.id ∈ p.serves) ∨ ∃ s ∈ dropped, s.demand = d.id := by
      obtain hd | hd := List.mem_append.mp hd
      · exact .inr (before.fitted.accounted d hd)
      · exact .inl (BTreeSet.mem_singleton.mpr (by rw [List.mem_singleton.mp hd]))
    obtain new | carried | short := served
    · exact .inl (exists_mem_upsert (fun c _ hx => BTreeSet.mem_insert.mpr (.inr hx))
        (fun c _ hx => BTreeSet.mem_insert.mpr (.inl (BTreeSet.mem_singleton.mp hx))) (.inl new))
    · exact .inl (exists_mem_upsert (fun c _ hx => BTreeSet.mem_insert.mpr (.inr hx))
        (fun c _ hx => BTreeSet.mem_insert.mpr (.inl (BTreeSet.mem_singleton.mp hx)))
        (.inr carried))
    · exact .inr short
  · exact pairwise_upsert before.apart (fun c _ differs => of_decide_eq_false differs)
      (fun c d _ apart => apart) fun c d _ apart => apart
  · intro p hp
    obtain old | ⟨c, hc, same, rfl⟩ := found p hp
    · exact before.fresh p old
    · exact before.fresh c hc
  · intro maximum declared
    rw [length_upsert hit]
    exact before.room maximum declared

theorem carry_carried (unhosted : runningHost item installed = none)
    (before : Carried constraints installed running items carried dropped) :
    ∃ carried' dropped', carry encoder constraints running required installed
        (carried, shortfalls ++ dropped) item = (carried', shortfalls ++ dropped') ∧
      Carried constraints installed running (items ++ [item]) carried' dropped' := by
  unfold carry
  split
  rename_i carried _ eq
  cases eq
  split
  · rename_i maximum full
    exact ⟨_, _, by rw [List.append_assoc], before.drop⟩
  · rename_i space
    split
    · rename_i hit
      exact ⟨_, _, rfl, before.join hit⟩
    · rename_i new
      split
      · rename_i running
        obtain ⟨e, he, same⟩ := List.any_eq_true.mp running
        have differ := distinct_of_runningHost unhosted
          (ExtTreeMap.mem_toList_iff_getElem?_eq_some.mp he)
        exact (differ (of_decide_eq_true same)).elim
      · dsimp only
        split
        · exact ⟨_, _, by rw [List.append_assoc], before.drop⟩
        · refine ⟨_, _, rfl, before.open unhosted (fun maximum declared => ?_) fun p hp same => ?_⟩
          · simp only [declared, Option.filter_eq_none_iff, Option.some.injEq, forall_eq',
              decide_eq_true_eq, Nat.not_le] at space
            exact space
          · exact new (List.any_eq_true.mpr ⟨p, hp, decide_eq_true same⟩)

theorem foldl_carry (unhosted : ∀ d ∈ items, runningHost d installed = none) :
    ∃ carried dropped, items.foldl (carry encoder constraints running required installed)
        ([], shortfalls) = (carried, shortfalls ++ dropped) ∧
      Carried constraints installed running items carried dropped := by
  induction items using List.reverseRecOn with
  | nil => exact ⟨[], [], by simp, fitted_nil, .nil, by simp, by simp⟩
  | append_singleton items item ih =>
    obtain ⟨carried, dropped, folded, before⟩ := ih fun d hd => unhosted d (by simp [hd])
    rw [List.foldl_append, folded, List.foldl_cons, List.foldl_nil]
    exact carry_carried (unhosted item (by simp)) before

/-- A plan is assembled from what the walk over the pending demand carried. -/
theorem plan_carried (h : OnePerDemand.plan encoder relay demand constraints installed revision =
      .ok plan) :
    ∃ items required carried dropped,
      items.Perm (attach (runningHost · installed) (admitFilterLimits demand constraints).1).2 ∧
      items.foldl (carry encoder constraints (survivingOwners
          (admitFilterLimits demand constraints).1 installed
          (attach (runningHost · installed) (admitFilterLimits demand constraints).1).1).size
          required installed) ([], (admitFilterLimits demand constraints).2) =
        (carried, (admitFilterLimits demand constraints).2 ++ dropped) ∧
      Carried constraints installed (survivingOwners (admitFilterLimits demand constraints).1
        installed (attach (runningHost · installed) (admitFilterLimits demand constraints).1).1).size
        items carried dropped ∧
      plan = assemble relay revision carried constraints installed
        (survivingOwners (admitFilterLimits demand constraints).1 installed
          (attach (runningHost · installed) (admitFilterLimits demand constraints).1).1)
        ((admitFilterLimits demand constraints).2 ++ dropped) := by
  unfold OnePerDemand.plan at h
  cases unique : refuseDuplicateDemand demand with
  | error e => simp [unique, bind, Except.bind] at h
  | ok u =>
    simp only [unique, bind, Except.bind, pure, Except.pure, Except.ok.injEq] at h
    have ordered := List.perm_insertionSort (fun left right => (compare left.id right.id).isLE)
      (attach (runningHost · installed) (admitFilterLimits demand constraints).1).2
    obtain ⟨carried, dropped, folded, held⟩ := foldl_carry fun d hd =>
      (mem_pending.mp (ordered.mem_iff.mp hd)).2
    rw [folded] at h
    subst h
    exact ⟨_, _, carried, dropped, ordered, folded, held, rfl⟩

theorem answers (h : OnePerDemand.plan encoder relay demand constraints installed revision =
      .ok plan) :
    ∃ opened shortfalls, plan = assemble relay revision opened constraints installed
        (survivingOwners (admitFilterLimits demand constraints).1 installed
          (attach (runningHost · installed) (admitFilterLimits demand constraints).1).1) shortfalls ∧
      Answers demand (admitFilterLimits demand constraints).1 constraints installed
        (attach (runningHost · installed) (admitFilterLimits demand constraints).1).1 opened
        shortfalls := by
  obtain ⟨items, required, carried, dropped, ordered, -, held, rfl⟩ := plan_carried h
  exact ⟨carried, _, rfl, Fitted.answers (fun d id => runningHost_known)
    (held.fitted.congr fun d => ordered.mem_iff) held.apart held.fresh held.room⟩

end OnePerDemand

/-- A plan of either policy conforms exactly when no running subscription that serves
requested demand is left with demand beyond the declared filter limit alone. -/
theorem plan_conforms_iff_kept (encoder : Encoder) (relay : RelayUrl) (demand : List RelayDemand)
    (constraints : RelayReadConstraints) (installed : InstalledSubscriptions) (revision : Nat)
    (plan : SubscriptionPlan) :
    (Distinguishes encoder demand →
      StandardSubscriptionPlanner.plan encoder relay demand constraints installed revision =
        .ok plan →
      (validatePlan relay demand constraints installed plan = .ok () ↔
        Kept hostFor demand constraints installed)) ∧
    (OnePerDemand.plan encoder relay demand constraints installed revision = .ok plan →
      (validatePlan relay demand constraints installed plan = .ok () ↔
        Kept OnePerDemand.runningHost demand constraints installed)) := by
  constructor
  · intro distinct h
    obtain ⟨opened, shortfalls, rfl, answers⟩ := StandardSubscriptionPlanner.answers distinct h
    exact answers.validates_iff_kept
  · intro h
    obtain ⟨opened, shortfalls, rfl, answers⟩ := OnePerDemand.answers h
    exact answers.validates_iff_kept

section Tightened

def hundred : RelayDemand := ⟨1, 0, { Filter.new with limit := some 100 }, ⟨none, none, some 100⟩⟩

/-- The texts of a filter with this limit and of one that asks for everything. -/
def limitEncoder : Encoder where
  canonicalEncoding filter :=
    if filter.limit = some 100 then "\x7b\"limit\":100\x7d" else "\x7b\x7d"
  encodedBytes _ := .ok 45

def running : InstalledSubscriptions := 
  ExtTreeMap.insert ∅ 7 ⟨[hundred.filter], {hundred.id}⟩

def tightened : RelayReadConstraints := { RelayReadConstraints.unknown with maxFilterLimit := some 50 }

/-- A subscription opened by a conforming plan is withdrawn, while its demand is still
requested, once the relay declares a filter limit below the one it asked for. -/
theorem tightened_limit_withdraws_running :
    ∃ first second first' second',
      StandardSubscriptionPlanner.plan limitEncoder "wss://relay" [hundred] .unknown ∅ 1 = .ok first ∧
      validatePlan "wss://relay" [hundred] .unknown ∅ first = .ok () ∧
      running[7]? = first.opens.head?.map (fun p => ⟨p.filters, p.serves⟩) ∧
      StandardSubscriptionPlanner.plan limitEncoder "wss://relay" [hundred] tightened running 2 =
        .ok second ∧
      validatePlan "wss://relay" [hundred] tightened running second =
        .error (.runningSubscriptionWithdrawn 7 hundred.id) ∧
      OnePerDemand.plan limitEncoder "wss://relay" [hundred] .unknown ∅ 1 = .ok first' ∧
      validatePlan "wss://relay" [hundred] .unknown ∅ first' = .ok () ∧
      running[7]? = first'.opens.head?.map (fun p => ⟨p.filters, p.serves⟩) ∧
      OnePerDemand.plan limitEncoder "wss://relay" [hundred] tightened running 2 = .ok second' ∧
      validatePlan "wss://relay" [hundred] tightened running second' =
        .error (.runningSubscriptionWithdrawn 7 hundred.id) := by
  refine ⟨_, _, _, _, rfl, ?_, rfl, rfl, ?_, rfl, ?_, rfl, rfl, ?_⟩ <;> decide +kernel

theorem plan_conforms_while_unlimited :
    ∃ plan plan',
      StandardSubscriptionPlanner.plan limitEncoder "wss://relay" [hundred] .unknown running 2 =
        .ok plan ∧ validatePlan "wss://relay" [hundred] .unknown running plan = .ok () ∧
      OnePerDemand.plan limitEncoder "wss://relay" [hundred] .unknown running 2 = .ok plan' ∧
      validatePlan "wss://relay" [hundred] .unknown running plan' = .ok () := by
  have serving : ∀ host, Kept host [hundred] .unknown running := by
    intro host id entry here _
    rw [running, ExtTreeMap.getElem?_insert] at here
    split at here
    · cases here
      exact ⟨hundred, by simp, rfl, .inl (BTreeSet.mem_singleton.mpr rfl)⟩
    · simp at here
  have distinct : Distinguishes limitEncoder [hundred] := by
    intro a ha b hb _
    rw [List.mem_singleton.mp ha, List.mem_singleton.mp hb]
  exact ⟨_, _, rfl, ((plan_conforms_iff_kept _ _ _ _ _ _ _).1 distinct rfl).mpr (serving _), rfl,
    ((plan_conforms_iff_kept limitEncoder _ _ _ _ _ _).2 rfl).mpr (serving _)⟩

end Tightened

end Fava.Subscriptions
