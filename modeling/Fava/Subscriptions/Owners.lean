import Fava.Subscriptions.Standard
import Mathlib.Data.List.Induction

namespace Fava.Subscriptions

open Std Fava.Lib

variable {constraints : RelayReadConstraints} {demand : List RelayDemand}
  {installed : InstalledSubscriptions} {attached : Attached} {id : SubscriptionId}
  {host : RelayDemand → Option SubscriptionId}

theorem mem_requestedIds {x : DemandId} : x ∈ requestedIds demand ↔ ∃ d ∈ demand, d.id = x := by
  simp [requestedIds, ExtTreeSet.mem_ofList]

theorem contains_requestedIds {x : DemandId} :
    (requestedIds demand).contains x = true ↔ ∃ d ∈ demand, d.id = x := by
  rw [ExtTreeSet.contains_iff_mem, mem_requestedIds]

def Attached.joined (attached : Attached) (id : SubscriptionId) : BTreeSet DemandId :=
  attached[id]?.getD ∅

theorem Attached.mem_joined_add {at' : SubscriptionId} {serves : BTreeSet DemandId} {x : DemandId} :
    x ∈ (attached.add at' serves).joined id ↔
      x ∈ attached.joined id ∨ at' = id ∧ x ∈ serves := by
  unfold Attached.add Attached.joined
  rw [ExtTreeMap.getElem?_insert]
  by_cases same : at' = id
  · subst same
    simp [ExtTreeSet.mem_union_iff]
  · simp [same, LawfulEqCmp.compare_eq_iff_eq]

theorem attach_append_singleton {item : RelayDemand} :
    attach host (demand ++ [item]) = match host item with
      | some id => ((attach host demand).1.add id {item.id}, (attach host demand).2)
      | none => ((attach host demand).1, (attach host demand).2 ++ [item]) := by
  cases hosted : host item <;> simp [attach, hosted]

/-- Demand is attached to the subscription that hosts it, and to no other. -/
theorem attach_joined {x : DemandId} :
    x ∈ (attach host demand).1.joined id ↔ ∃ d ∈ demand, host d = some id ∧ d.id = x := by
  induction demand using List.reverseRecOn with
  | nil => simp [attach, Attached.joined]
  | append_singleton demand item ih =>
    rw [attach_append_singleton]
    simp only [List.mem_append, List.mem_singleton, or_and_right, exists_or, exists_eq_left]
    cases hosted : host item with
    | none => simp [ih]
    | some at' =>
      simp only [Attached.mem_joined_add, ih, BTreeSet.mem_singleton, Option.some.injEq]
      rw [eq_comm (a := x)]

theorem attach_pending :
    (attach host demand).2 = demand.filter fun d => (host d).isNone := by
  induction demand using List.reverseRecOn with
  | nil => rfl
  | append_singleton demand item ih =>
    rw [attach_append_singleton, List.filter_append, ← ih]
    cases hosted : host item <;> simp [hosted]

/-- Who keeps a running subscription open. -/
def Owns (demand : List RelayDemand) (attached : Attached) (id : SubscriptionId)
    (entry : InstalledSubscription) (x : DemandId) : Prop :=
  (x ∈ entry.serves ∧ x ∈ requestedIds demand) ∨ x ∈ attached.joined id

theorem mem_still {entry : InstalledSubscription} {x : DemandId} :
    x ∈ (entry.serves.filter (requestedIds demand).contains ∪ attached[id]?.getD ∅ :
      BTreeSet DemandId) ↔ Owns demand attached id entry x := by
  simp [Owns, ExtTreeSet.mem_union_iff, ExtTreeSet.mem_filter, Attached.joined]

/-- A running subscription keeps exactly its owners, and is kept while it has one. -/
theorem survivingOwners_eq_some {serves : BTreeSet DemandId} :
    (survivingOwners demand installed attached)[id]? = some serves ↔
      ∃ entry, installed[id]? = some entry ∧ (∃ x, x ∈ serves) ∧
        ∀ x, x ∈ serves ↔ Owns demand attached id entry x := by
  unfold survivingOwners
  simp only [ExtTreeMap.getElem?_filterMap', Option.bind_eq_some_iff, Option.ite_none_left_eq_some,
    Option.some.injEq]
  refine exists_congr fun entry => and_congr_right fun here => ?_
  constructor
  · rintro ⟨filled, rfl⟩
    refine ⟨?_, fun _ => mem_still⟩
    by_contra none
    exact filled (BTreeSet.isEmpty_iff.mpr fun x hx => none ⟨x, hx⟩)
  · rintro ⟨⟨x, hx⟩, all⟩
    have same : _ = serves := ExtTreeSet.ext_mem fun y => mem_still.trans (all y).symm
    refine ⟨fun empty => ?_, same⟩
    rw [same] at empty
    exact BTreeSet.isEmpty_iff.mp empty x hx

theorem mem_survivingOwners {entry : InstalledSubscription} (here : installed[id]? = some entry) :
    id ∈ survivingOwners demand installed attached ↔ ∃ x, Owns demand attached id entry x := by
  constructor
  · intro member
    obtain ⟨serves, found⟩ := Option.isSome_iff_exists.mp
      (ExtTreeMap.mem_iff_isSome_getElem?.mp member)
    obtain ⟨entry', here', ⟨x, hx⟩, owns⟩ := survivingOwners_eq_some.mp found
    rw [here, Option.some.injEq] at here'
    subst here'
    exact ⟨x, (owns x).mp hx⟩
  · rintro ⟨x, owner⟩
    rw [ExtTreeMap.mem_iff_isSome_getElem?, Option.isSome_iff_exists]
    refine ⟨(entry.serves.filter (requestedIds demand).contains) ∪ attached[id]?.getD ∅, ?_⟩
    exact survivingOwners_eq_some.mpr ⟨entry, here, ⟨x, mem_still.mpr owner⟩, fun _ => mem_still⟩

end Fava.Subscriptions
