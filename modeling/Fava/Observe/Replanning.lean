import Fava.Observe.Differential
import Mathlib.Data.List.Pairwise

namespace Fava.Observe

open Std Fava.Lib Fava.Nostr Fava.Relay Fava.Subscriptions StandardSubscriptionPlanner

variable {encoder : Encoder} {relay : RelayUrl} {constraints : RelayReadConstraints}
  {filterOf : DemandId → Filter} {demand : List RelayDemand} {w w' v : Wire} {a : Pass}
  {as bs : List Pass} {id : SubscriptionId} {entry : InstalledSubscription} {x : DemandId}

/-- One pass of the standard planner. -/
abbrev replan (encoder : Encoder) (relay : RelayUrl) : Wire → Pass → Option Wire :=
  Wire.step (StandardSubscriptionPlanner.planner encoder) relay

/-- No demand is served twice, and every identifier in use has been minted. -/
structure Wire.Owned (w : Wire) : Prop where
  below : w.Below
  apart : ∀ (id id' : SubscriptionId) (entry entry' : InstalledSubscription),
    w.installed[id]? = some entry → w.installed[id']? = some entry' →
      ∀ x ∈ entry.serves, x ∈ entry'.serves → id = id'

/-- Demand that is served is hosted where it is served. -/
theorem Wire.Owned.host {d : RelayDemand} (owned : w.Owned) (here : w.installed[id]? = some entry)
    (serves : d.id ∈ entry.serves) : hostFor d w.installed = some id := by
  have listed : (id, entry) ∈ w.installed.toList := ExtTreeMap.mem_toList_iff_getElem?_eq_some.mpr here
  cases found : w.installed.toList.find? fun e => e.2.serves.contains d.id with
  | none =>
    have absent := List.find?_eq_none.mp found _ listed
    exact (absent (ExtTreeSet.contains_iff_mem.mpr serves)).elim
  | some e =>
    have again := BTreeMap.find_of_first found
    have member := List.find?_some found
    have same := owned.apart id e.1 entry e.2 here again d.id serves
      (ExtTreeSet.contains_iff_mem.mp member)
    rw [hostFor, found, same]
    rfl

/-- What a subscription keeps after a pass is exactly the demand it hosts. -/
theorem Wire.Owned.owns {admissible : List RelayDemand} (owned : w.Owned)
    (here : w.installed[id]? = some entry) :
    Owns admissible (attach (hostFor · w.installed) admissible).1 id entry x ↔
      ∃ d ∈ admissible, hostFor d w.installed = some id ∧ d.id = x := by
  rw [Owns, attach_joined, mem_requestedIds]
  constructor
  · rintro (⟨serves, d, hd, rfl⟩ | hosted)
    · exact ⟨d, hd, owned.host here serves, rfl⟩
    · exact hosted
  · exact .inr

/-- What is running after a pass: what was opened for pending demand, and what hosts
demand of the pass. -/
theorem Wire.Owned.executed (owned : w.Owned) (distinct : Distinguishes encoder a.demand)
    {plan : SubscriptionPlan} (found : StandardSubscriptionPlanner.plan encoder relay a.demand
      a.constraints w.installed a.revision = .ok plan) (mints : w.mints plan a.names) :
    (w.execute plan a.names).installed[id]? = some entry ↔
      (∃ p, (id, p) ∈ a.names.zip plan.opens ∧ entry = ⟨p.filters, p.serves⟩) ∨
      ∃ before, w.installed[id]? = some before ∧ entry.filters = before.filters ∧
        (∃ x, x ∈ entry.serves) ∧ ∀ x, x ∈ entry.serves ↔
          ∃ d ∈ (admitFilterLimits a.demand a.constraints).1,
            hostFor d w.installed = some id ∧ d.id = x := by
  obtain ⟨opened, shortfalls, rfl, -, -⟩ := standard_answered distinct found
  rw [Wire.installed_execute owned.below mints]
  refine or_congr Iff.rfl ?_
  constructor
  · rintro ⟨before, serves, here, owners, rfl⟩
    obtain ⟨before', here', filled, owns⟩ := survivingOwners_eq_some.mp owners
    rw [here, Option.some.injEq] at here'
    subst here'
    exact ⟨before, here, rfl, filled, fun x => (owns x).trans (owned.owns here)⟩
  · rintro ⟨before, here, filters, filled, serves⟩
    refine ⟨before, entry.serves, here, survivingOwners_eq_some.mpr ⟨before, here, filled,
      fun x => (serves x).trans (owned.owns here).symm⟩, ?_⟩
    rw [← filters]

/-- What hosts a demand serves it afterwards, with the filters it had. -/
theorem Wire.Owned.hosted {d : RelayDemand} (owned : w.Owned)
    (distinct : Distinguishes encoder a.demand) {plan : SubscriptionPlan}
    (found : StandardSubscriptionPlanner.plan encoder relay a.demand a.constraints w.installed
      a.revision = .ok plan) (mints : w.mints plan a.names)
    (hd : d ∈ (admitFilterLimits a.demand a.constraints).1)
    (hosted : hostFor d w.installed = some id) :
    ∃ (before : InstalledSubscription) (serves : BTreeSet DemandId),
      w.installed[id]? = some before ∧
        (w.execute plan a.names).installed[id]? = some ⟨before.filters, serves⟩ ∧
        d.id ∈ serves := by
  obtain ⟨before, here, -⟩ := hostFor_lawful d w.installed id hosted
  have owner := (owned.owns (x := d.id) here).mpr ⟨d, hd, hosted, rfl⟩
  obtain ⟨serves, owners⟩ := Option.isSome_iff_exists.mp (ExtTreeMap.mem_iff_isSome_getElem?.mp
    ((mem_survivingOwners here).mpr ⟨d.id, owner⟩))
  obtain ⟨before', here', -, owns⟩ := survivingOwners_eq_some.mp owners
  rw [here, Option.some.injEq] at here'
  subst here'
  obtain ⟨opened, shortfalls, rfl, -, -⟩ := standard_answered distinct found
  exact ⟨before, serves, here, (Wire.installed_execute owned.below mints).mpr
    (.inr ⟨before, serves, here, owners, rfl⟩), (owns d.id).mpr owner⟩

/-- Requests under their names that serve one demand are one. -/
theorem name_unique {names : List SubscriptionId} {opened : List PlannedSubscription}
    {id' : SubscriptionId} {p q : PlannedSubscription} (counted : names.length = opened.length)
    (nodup : (shares opened).Nodup) (here : (id, p) ∈ names.zip opened)
    (there : (id', q) ∈ names.zip opened) (hp : x ∈ p.serves) (hq : x ∈ q.serves) : id = id' := by
  have apart : (names.zip opened).Pairwise fun e f => ∀ x ∈ e.2.serves, x ∉ f.2.serves := by
    have opens := shares_apart nodup
    rw [← List.map_snd_zip counted.ge, List.pairwise_map] at opens
    exact opens
  by_contra differ
  have symmetric : Symm fun (e f : SubscriptionId × PlannedSubscription) =>
      ∀ x ∈ e.2.serves, x ∉ f.2.serves := ⟨fun e f disjoint x hf he => disjoint x he hf⟩
  exact apart.forall here there (fun same => differ (congrArg Prod.fst same)) x hp hq

theorem Wire.Owned.execute (owned : w.Owned) (distinct : Distinguishes encoder a.demand)
    {plan : SubscriptionPlan} (found : StandardSubscriptionPlanner.plan encoder relay a.demand
      a.constraints w.installed a.revision = .ok plan) (mints : w.mints plan a.names) :
    (w.execute plan a.names).Owned where
  below := (standard_answered distinct found).bounded owned.below mints
  apart := by
    have nodup := nodup_of_plan found
    obtain ⟨short, -, dealt⟩ := plan_dealt distinct found
    have shared := (List.nodup_append.mp (dealt.nodup_iff.mpr (pending_nodup nodup))).1
    -- Pending demand has no host, so what is opened for it is served nowhere else.
    have unhosted : ∀ p ∈ plan.opens, ∀ x ∈ p.serves, ∃ d ∈ a.demand, d.id = x ∧
        hostFor d w.installed = none := by
      intro p hp x hx
      have among := dealt.mem_iff.mp (List.mem_append_left _ (mem_shares.mpr ⟨p, hp, hx⟩))
      obtain ⟨d, hd, rfl⟩ := mem_ids.mp among
      exact ⟨d, (mem_pending.mp hd).1.1, rfl, (mem_pending.mp hd).2⟩
    have alone : ∀ d ∈ a.demand, ∀ e ∈ (admitFilterLimits a.demand a.constraints).1,
        d.id = e.id → d = e := fun d hd e he same =>
      List.inj_on_of_nodup_map nodup hd (mem_admissible.mp he).1 same
    intro id id' entry entry' here there x held held'
    obtain ⟨p, hp, rfl⟩ | ⟨before, -, -, -, hosts⟩ := (owned.executed distinct found mints).mp here
    · obtain ⟨q, hq, rfl⟩ | ⟨before, -, -, -, hosts⟩ :=
        (owned.executed distinct found mints).mp there
      · exact name_unique mints.1 shared hp hq held held'
      · obtain ⟨e, he, hosted, same⟩ := (hosts x).mp held'
        obtain ⟨d, hd, rfl, none⟩ := unhosted p (List.of_mem_zip hp).2 x held
        rw [alone d hd e he same.symm, hosted] at none
        cases none
    · obtain ⟨d, hd, hosted, rfl⟩ := (hosts x).mp held
      obtain ⟨q, hq, rfl⟩ | ⟨before, -, -, -, hosts'⟩ :=
        (owned.executed distinct found mints).mp there
      · obtain ⟨e, he, same, none⟩ := unhosted q (List.of_mem_zip hq).2 d.id held'
        rw [alone e he d hd same, hosted] at none
        cases none
      · obtain ⟨e, he, hosted', same⟩ := (hosts' d.id).mp held'
        rw [alone e (mem_admissible.mp he).1 d hd same, hosted, Option.some.injEq] at hosted'
        exact hosted'

theorem owned_new : Wire.new.Owned where
  below id member := by simp [Wire.new] at member
  apart id id' entry entry' here := by simp [Wire.new] at here

theorem Wire.Owned.run {G : Wire → Pass → Prop} (owned : w.Owned)
    (run : Run (replan encoder relay) G w as v)
    (distinct : ∀ w a, G w a → Distinguishes encoder a.demand) : v.Owned := by
  induction run with
  | nil => exact owned
  | snoc run meets stepped ih =>
    obtain ⟨plan, found, mints, rfl⟩ := Wire.step_eq_some.mp stepped
    exact ih.execute (distinct _ _ meets) found mints

section Immutable

/-- A subscription that ran once runs with the filters it had then, or not at all. -/
theorem Wire.Owned.filters_kept {G : Wire → Pass → Prop} (owned : w.Owned)
    (run : Run (replan encoder relay) G w as v)
    (distinct : ∀ w a, G w a → Distinguishes encoder a.demand) :
    w.minted ≤ v.minted ∧ ∀ id < w.minted, ∀ after : InstalledSubscription,
      v.installed[id]? = some after → ∃ before : InstalledSubscription,
        w.installed[id]? = some before ∧ after.filters = before.filters := by
  induction run with
  | nil => exact ⟨Nat.le_refl _, fun id _ after here => ⟨after, here, rfl⟩⟩
  | snoc run meets stepped ih =>
    obtain ⟨plan, found, mints, rfl⟩ := Wire.step_eq_some.mp stepped
    have before := owned.run run distinct
    refine ⟨ih.1.trans mints.bound.1, fun id old after here => ?_⟩
    obtain ⟨p, listed, rfl⟩ | ⟨between, here, filters, -⟩ :=
      (before.executed (distinct _ _ meets) found mints).mp here
    · have new := mints.2.2 id (List.of_mem_zip listed).1
      exact (Nat.not_lt_of_le (ih.1.trans new) old).elim
    · obtain ⟨first, there, same⟩ := ih.2 id old between here
      exact ⟨first, there, filters.trans same⟩

theorem withinLimit_congr {d e : RelayDemand} (same : d.filter = e.filter) :
    withinLimit constraints d = withinLimit constraints e := by
  unfold withinLimit
  rw [same]

/-- Whatever is served is within the declared filter limit. -/
def Wire.Within (constraints : RelayReadConstraints) (filterOf : DemandId → Filter) (w : Wire) :
    Prop :=
  ∀ (id : SubscriptionId) (entry : InstalledSubscription), w.installed[id]? = some entry →
    ∀ x ∈ entry.serves, ∀ d : RelayDemand, d.filter = filterOf x → withinLimit constraints d = true

theorem Wire.Owned.within (owned : w.Owned) (steady : Steady encoder constraints filterOf w a)
    {plan : SubscriptionPlan} (found : StandardSubscriptionPlanner.plan encoder relay a.demand
      a.constraints w.installed a.revision = .ok plan) (mints : w.mints plan a.names) :
    (w.execute plan a.names).Within constraints filterOf := by
  obtain ⟨known, distinct, keeps⟩ := steady
  intro id entry here x member d same
  have admitted : ∃ e ∈ (admitFilterLimits a.demand a.constraints).1, e.id = x := by
    obtain ⟨p, listed, rfl⟩ | ⟨before, -, -, -, hosts⟩ := (owned.executed distinct found mints).mp here
    · obtain ⟨short, -, dealt⟩ := plan_dealt distinct found
      have among := dealt.mem_iff.mp (List.mem_append_left _
        (mem_shares.mpr ⟨p, (List.of_mem_zip listed).2, member⟩))
      obtain ⟨e, he, eq⟩ := mem_ids.mp among
      exact ⟨e, mem_admissible.mpr (mem_pending.mp he).1, eq⟩
    · obtain ⟨e, he, -, eq⟩ := (hosts x).mp member
      exact ⟨e, he, eq⟩
  obtain ⟨e, he, rfl⟩ := admitted
  obtain ⟨asked, within⟩ := mem_admissible.mp he
  rw [← known, withinLimit_congr (same.trans (keeps e asked).symm)]
  exact within

theorem within_run (run : Run (replan encoder relay) (Steady encoder constraints filterOf) .new as w) :
    w.Within constraints filterOf := by
  obtain - | ⟨run, steady, stepped⟩ := run
  · intro id entry here
    simp [Wire.new] at here
  · obtain ⟨plan, found, mints, rfl⟩ := Wire.step_eq_some.mp stepped
    exact (owned_new.run run fun _ _ steady => steady.2.1).within steady found mints

/-- A subscription is only closed once nothing it serves is requested and nothing joins. -/
theorem Wire.Owned.closed (owned : w.Owned) (within : w.Within constraints filterOf)
    (steady : Steady encoder constraints filterOf w a) {plan : SubscriptionPlan}
    (found : StandardSubscriptionPlanner.plan encoder relay a.demand a.constraints w.installed
      a.revision = .ok plan) (mints : w.mints plan a.names) (here : w.installed[id]? = some entry)
    (gone : (w.execute plan a.names).installed[id]? = none) :
    (∀ x ∈ entry.serves, ∀ d ∈ a.demand, d.id ≠ x) ∧
      ∀ x, x ∉ (attach (hostFor · w.installed)
        (admitFilterLimits a.demand a.constraints).1).1.joined id := by
  obtain ⟨known, distinct, keeps⟩ := steady
  have unhosted : ∀ d ∈ (admitFilterLimits a.demand a.constraints).1,
      hostFor d w.installed ≠ some id := by
    intro d hd hosted
    obtain ⟨before, serves, -, runs, -⟩ := owned.hosted distinct found mints hd hosted
    rw [gone] at runs
    cases runs
  constructor
  · rintro _ member d hd rfl
    refine unhosted d (mem_admissible.mpr ⟨hd, ?_⟩) (owned.host here member)
    rw [known]
    exact within id entry here d.id member d (keeps d hd)
  · intro x joined
    obtain ⟨d, hd, hosted, -⟩ := attach_joined.mp joined
    exact unhosted d hd hosted

/-- Running subscriptions are immutable: one keeps its filters as long as it runs, is
closed only when nobody it serves is requested and nobody joins it, and never runs again;
and each demand of a pass is served once or named short. -/
theorem subscriptions_immutable
    (run : Run (replan encoder relay) (Steady encoder constraints filterOf) .new as w) :
    (∀ bs v, Run (replan encoder relay) (Steady encoder constraints filterOf) w bs v →
      ∀ (id : SubscriptionId) (before after : InstalledSubscription),
        w.installed[id]? = some before → v.installed[id]? = some after →
          after.filters = before.filters) ∧
    ∀ a w', Steady encoder constraints filterOf w a → replan encoder relay w a = some w' →
      (∀ (id : SubscriptionId) (entry : InstalledSubscription), w.installed[id]? = some entry →
        w'.installed[id]? = none →
          (∀ x ∈ entry.serves, ∀ d ∈ a.demand, d.id ≠ x) ∧
          (∀ x, x ∉ (attach (hostFor · w.installed)
            (admitFilterLimits a.demand a.constraints).1).1.joined id) ∧
          ∀ bs v, Run (replan encoder relay) (Steady encoder constraints filterOf) w' bs v →
            v.installed[id]? = none) ∧
      ∀ d ∈ a.demand, (∃! id : SubscriptionId, ∃ entry : InstalledSubscription,
          w'.installed[id]? = some entry ∧ d.id ∈ entry.serves) ∨ ∃ s ∈ w'.shortfalls, s.demand = d.id := by
  have distinct : ∀ (w : Wire) (a : Pass), Steady encoder constraints filterOf w a →
      Distinguishes encoder a.demand := fun _ _ steady => steady.2.1
  have owned := owned_new.run run distinct
  constructor
  · intro bs v later id before after here there
    have old := owned.below id (by rw [ExtTreeMap.mem_iff_isSome_getElem?, here]; rfl)
    obtain ⟨first, here', same⟩ := (owned.filters_kept later distinct).2 id old after there
    rw [here, Option.some.injEq] at here'
    rw [same, here']
  · intro a w' steady stepped
    obtain ⟨plan, found, mints, rfl⟩ := Wire.step_eq_some.mp stepped
    have next := owned.execute steady.2.1 found mints
    constructor
    · intro id entry here gone
      obtain ⟨unrequested, unjoined⟩ :=
        owned.closed (within_run run) steady found mints here gone
      refine ⟨unrequested, unjoined, fun bs v later => ?_⟩
      have old := owned.below id (by rw [ExtTreeMap.mem_iff_isSome_getElem?, here]; rfl)
      rw [Option.eq_none_iff_forall_ne_some]
      intro after there
      obtain ⟨first, back, -⟩ := (next.filters_kept later distinct).2 id
        (Nat.lt_of_lt_of_le old mints.bound.1) after there
      rw [gone] at back
      cases back
    · intro d hd
      obtain ⟨id, entry, here, member⟩ | short :=
        ((standard_answered steady.2.1 found).serves owned.below mints).2 d hd
      · refine .inl ⟨id, ⟨entry, here, member⟩, ?_⟩
        rintro other ⟨entry', there, member'⟩
        exact next.apart other id entry' entry there here d.id member' member
      · exact .inr short

def firstPass : Pass := ⟨[kindDemand 1 1, kindDemand 2 2], .unknown, 1, [0]⟩

def otherPass : Pass := ⟨[kindDemand 3 3], .unknown, 2, [1]⟩

theorem first_subscription_gone :
    ∃ w w', Run (replan kindsEncoder "wss://relay") (Steady kindsEncoder .unknown kindOf) .new
        [firstPass] w ∧
      replan kindsEncoder "wss://relay" w otherPass = some w' ∧
      ∀ bs v, Run (replan kindsEncoder "wss://relay") (Steady kindsEncoder .unknown kindOf) w' bs v →
        v.installed[0]? = none := by
  obtain ⟨w, run, checked⟩ : ∃ w, Run (replan kindsEncoder "wss://relay")
      (Steady kindsEncoder .unknown kindOf) .new [firstPass] w ∧
        (w.installed.contains 0 && (replan kindsEncoder "wss://relay" w otherPass).any
          fun w' => w'.installed[0]?.isNone) = true := Run.of_any (by decide +kernel)
  rw [Bool.and_eq_true, ExtTreeMap.contains_eq_isSome_getElem?, Option.isSome_iff_exists,
    Option.any_eq_true] at checked
  obtain ⟨⟨entry, here⟩, w', stepped, gone⟩ := checked
  rw [Option.isNone_iff_eq_none] at gone
  have steady : Steady kindsEncoder .unknown kindOf w otherPass := by
    unfold Steady
    decide +kernel
  refine ⟨w, w', run, stepped, ?_⟩
  exact (((subscriptions_immutable run).2 otherPass w' steady stepped).1 0 entry here gone).2.2

end Immutable

end Fava.Observe
