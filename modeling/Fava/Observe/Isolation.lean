import Fava.Observe.Replanning

namespace Fava.Observe

open Std Fava.Lib Fava.Nostr Fava.Relay Fava.Subscriptions StandardSubscriptionPlanner

variable {encoder : Encoder} {relay : RelayUrl} {constraints : RelayReadConstraints}
  {demand : List RelayDemand} {planned : List PlannedSubscription} {w w' : Wire} {a : Pass}
  {as : List Pass}

/-- A pass under limits that declare a default for requests without a limit. -/
def Declares (encoder : Encoder) (_ : Wire) (a : Pass) : Prop :=
  a.constraints.defaultFilterLimit ≠ none ∧ Distinguishes encoder a.demand

instance : ∀ (w : Wire) (a : Pass), Decidable (Declares encoder w a) :=
  fun _ _ => inferInstanceAs (Decidable (_ ∧ _))

/-- Every demand that is served has a subscription for its own filter. -/
def Wire.Isolates (w : Wire) (demand : List RelayDemand) : Prop :=
  ∀ d ∈ demand, ∀ (id : SubscriptionId) (entry : InstalledSubscription),
    w.installed[id]? = some entry → d.id ∈ entry.serves → entry.filters = [d.filter]

/-- The running subscription that serves a demand, or if none does the first that
covers it, is for the demand's own filter. -/
def Wire.Alone (w : Wire) (a : Pass) : Prop :=
  ∀ d ∈ a.demand, withinLimit a.constraints d = true →
    (∀ (id : SubscriptionId) (entry : InstalledSubscription), w.installed[id]? = some entry →
      d.id ∈ entry.serves → entry.filters = [d.filter]) ∧
    (¬ w.serves d.id → ∀ e, w.installed.toList.find?
      (fun e => e.2.filters.any (filterCovers · d.filter)) = some e → e.2.filters = [d.filter])

/-- The first running subscription that covers a demand. -/
def Wire.coveredBy (w : Wire) (d : RelayDemand) : Option (SubscriptionId × InstalledSubscription) :=
  w.installed.toList.find? fun e => e.2.filters.any (filterCovers · d.filter)

instance : ∀ (w : Wire) (a : Pass), Decidable (w.Alone a) := fun w a =>
  decidable_of_iff (∀ d ∈ a.demand, withinLimit a.constraints d = true →
    (∀ e ∈ w.installed.toList, d.id ∈ e.2.serves → e.2.filters = [d.filter]) ∧
      ((∃ e ∈ w.installed.toList, d.id ∈ e.2.serves) ∨
        ∀ e ∈ w.coveredBy d, e.2.filters = [d.filter])) (by
    unfold Wire.Alone Wire.serves Wire.coveredBy
    simp only [ExtTreeMap.mem_toList_iff_getElem?_eq_some, Prod.forall, Prod.exists, Option.mem_def,
      or_iff_not_imp_left])

/-- Requests each for the one filter of all the demand they serve. -/
def Own (demand : List RelayDemand) (planned : List PlannedSubscription)
    (_ : List SubscriptionShortfall) : Prop :=
  ∀ p ∈ planned, ∀ x ∈ p.serves, ∃ d ∈ demand, d.id = x ∧ p.filters = [d.filter]

theorem own_answering :
    Answering encoder constraints (fun c => ∀ d ∈ c.2, d.filter = c.1) Own where
  nil := by simp [Own]
  carried filter held bytes _ same _ _ := by
    intro p hp x hx
    rw [List.mem_singleton.mp hp] at hx ⊢
    obtain ⟨d, hd, eq⟩ : ∃ d ∈ held, d.id = x := by simpa [ExtTreeSet.mem_ofList] using hx
    exact ⟨d, hd, eq, by rw [same d hd]⟩
  dropped filter d bytes maximum _ _ _ _ := by simp [Own]
  append first second planned planned' dropped dropped' one two := by
    intro p hp x hx
    obtain hp | hp := List.mem_append.mp hp
    · obtain ⟨d, hd, own⟩ := one p hp x hx
      exact ⟨d, by simp [hd], own⟩
    · obtain ⟨d, hd, own⟩ := two p hp x hx
      exact ⟨d, by simp [hd], own⟩
  perm first second planned dropped same own := by
    intro p hp x hx
    obtain ⟨d, hd, eq⟩ := own p hp x hx
    exact ⟨d, same.mem_iff.mp hd, eq⟩

theorem Own.fold {dropped : List SubscriptionShortfall} (own : Own demand planned dropped) :
    Own demand (foldIdenticalFilters planned) dropped := by
  induction planned using List.reverseRecOn with
  | nil => exact own
  | append_singleton planned p ih =>
    have before := ih fun q hq => own q (by simp [hq])
    have last := own p (by simp)
    rw [foldIdenticalFilters_append_singleton]
    intro q hq x hx
    obtain old | ⟨rfl, -⟩ | ⟨c, hc, hit, rfl⟩ := mem_upsert hq
    · exact before q old x hx
    · exact last x hx
    · obtain hx | hx := ExtTreeSet.mem_union_iff.mp hx
      · exact before c hc x hx
      · obtain ⟨d, hd, eq, filters⟩ := last x hx
        exact ⟨d, hd, eq, (of_decide_eq_true hit : c.filters = p.filters).trans filters⟩

/-- Under a default limit a group only holds demand for one filter. -/
theorem group_own (declared : constraints.defaultFilterLimit ≠ none)
    (distinct : Distinguishes encoder demand) :
    ∀ c ∈ group encoder demand constraints, ∀ d ∈ c.2, d.filter = c.1 := by
  refine group_forall distinct ?_ ?_ ?_
  · intro d _ e he
    rw [List.mem_singleton.mp he]
  · intro filter held held' first second d hd
    exact (List.mem_append.mp hd).elim (first d) (second d)
  · intro undeclared
    exact (declared undeclared).elim

theorem opens_own {installed : InstalledSubscriptions} {revision : Nat} {plan : SubscriptionPlan}
    (declared : constraints.defaultFilterLimit ≠ none) (distinct : Distinguishes encoder demand)
    (found : StandardSubscriptionPlanner.plan encoder relay demand constraints installed revision =
      .ok plan) : Own (pending demand constraints installed) plan.opens plan.shortfalls := by
  obtain ⟨candidates, large, rfl, answered⟩ := plan_answered distinct found
  have own := (answered _ _ own_answering fun sub within => group_own declared
    (distinct.subset fun d hd => (mem_pending.mp (within d hd)).1.1)).fold
  intro p hp
  exact own p (fitResidualCount_sublist.subset ((List.perm_insertionSort _ _).mem_iff.mp hp))

/-- Whom a demand that is not served would join, in the terms of `Alone`. -/
theorem hostFor_unserved {d : RelayDemand} (unserved : ¬ w.serves d.id) :
    hostFor d w.installed = (w.installed.toList.find? fun e =>
      e.2.filters.any (filterCovers · d.filter)).map Prod.fst := by
  have none : (w.installed.toList.find? fun e => e.2.serves.contains d.id) = none := by
    rw [List.find?_eq_none]
    intro e he serves
    exact unserved ⟨e.1, e.2, ExtTreeMap.mem_toList_iff_getElem?_eq_some.mp he,
      ExtTreeSet.contains_iff_mem.mp serves⟩
  rw [hostFor, none]
  rfl

/-- A demand is alone exactly if its host is for its own filter. -/
theorem Wire.Owned.alone_iff (owned : w.Owned) : w.Alone a ↔
    ∀ d ∈ (admitFilterLimits a.demand a.constraints).1, ∀ (id : SubscriptionId)
      (entry : InstalledSubscription), hostFor d w.installed = some id →
        w.installed[id]? = some entry → entry.filters = [d.filter] := by
  unfold Alone
  simp only [mem_admissible, and_imp]
  refine forall_congr' fun d => imp_congr_right fun asked => imp_congr_right fun within => ?_
  by_cases served : w.serves d.id
  · obtain ⟨id, entry, here, member⟩ := served
    constructor
    · intro alone other entry' hosted there
      rw [owned.host here member, Option.some.injEq] at hosted
      subst hosted
      rw [here, Option.some.injEq] at there
      subst there
      exact alone.1 id entry here member
    · intro alone
      refine ⟨fun other entry' there member' => ?_, fun unserved => ?_⟩
      · exact alone other entry' (owned.host there member') there
      · exact (unserved ⟨id, entry, here, member⟩).elim
  · rw [hostFor_unserved served]
    constructor
    · intro alone id entry hosted here
      obtain ⟨e, found, rfl⟩ := Option.map_eq_some_iff.mp hosted
      have there := BTreeMap.find_of_first found
      rw [here, Option.some.injEq] at there
      rw [there]
      exact alone.2 served e found
    · intro alone
      refine ⟨fun id entry here member => (served ⟨id, entry, here, member⟩).elim, fun _ e found => ?_⟩
      exact alone e.1 e.2 (by rw [found]; rfl)
        (BTreeMap.find_of_first found)

theorem Wire.Owned.isolates_iff (owned : w.Owned) (declares : Declares encoder w a)
    (stepped : replan encoder relay w a = some w') : w'.Isolates a.demand ↔ w.Alone a := by
  obtain ⟨plan, found, mints, rfl⟩ := Wire.step_eq_some.mp stepped
  obtain ⟨declared, distinct⟩ := declares
  have nodup := nodup_of_plan found
  rw [owned.alone_iff]
  constructor
  · intro isolates d hd id before hosted here
    obtain ⟨before', serves, here', runs, inside⟩ := owned.hosted distinct found mints hd hosted
    rw [here, Option.some.injEq] at here'
    subst here'
    exact isolates d (mem_admissible.mp hd).1 id ⟨before.filters, serves⟩ runs inside
  · intro alone d hd id entry here member
    obtain ⟨p, listed, rfl⟩ | ⟨before, old, filters, -, hosts⟩ :=
      (owned.executed distinct found mints).mp here
    · obtain ⟨e, he, same, own⟩ :=
        opens_own declared distinct found p (List.of_mem_zip listed).2 d.id member
      rw [List.inj_on_of_nodup_map nodup (mem_pending.mp he).1.1 hd same] at own
      exact own
    · obtain ⟨e, he, hosted, same⟩ := (hosts d.id).mp member
      obtain rfl := List.inj_on_of_nodup_map nodup (mem_admissible.mp he).1 hd same
      exact filters.trans (alone e he id before hosted old)

/-- Under a default limit a pass keeps demand apart exactly if nobody joins, or stays
with, a running subscription for another filter than its own. -/
theorem isolates_iff_alone :
    (∀ as a w, Run (replan encoder relay) (fun w a => Declares encoder w a ∧ w.Alone a) .new
      (as ++ [a]) w → w.Isolates a.demand) ∧
    ∀ as a w w', Run (replan encoder relay) (Declares encoder) .new as w → Declares encoder w a →
      replan encoder relay w a = some w' → (w'.Isolates a.demand ↔ w.Alone a) := by
  constructor
  · intro as a w run
    generalize same : as ++ [a] = bs at run
    obtain - | ⟨run, meets, stepped⟩ := run
    · simp at same
    · obtain ⟨rfl, last⟩ := List.append_inj' same rfl
      cases last
      have owned := owned_new.run run fun _ _ meets => meets.1.2
      exact (owned.isolates_iff meets.1 stepped).mpr meets.2
  · intro as a w w' run declares stepped
    exact (owned_new.run run fun _ _ meets => meets.2).isolates_iff declares stepped

section Shared

def oneAndTwo : RelayDemand :=
  ⟨1, 0, { Filter.new with kinds := some (ExtTreeSet.ofList [1, 2]) }, ⟨none, none, none⟩⟩

def defaultLimit : RelayReadConstraints :=
  { RelayReadConstraints.unknown with defaultFilterLimit := some 100 }

def widePass : Pass := ⟨[oneAndTwo], defaultLimit, 1, [0]⟩

def narrowPass : Pass := ⟨[oneAndTwo, kindDemand 2 1], defaultLimit, 2, []⟩

def onePass : Pass := ⟨[kindDemand 1 1], defaultLimit, 1, [0]⟩

/-- One more demand joins the running request for its filter, and another is opened
beside it. -/
def besidePass : Pass := ⟨[kindDemand 1 1, kindDemand 2 2, kindDemand 3 1], defaultLimit, 2, [1]⟩

theorem later_pass_isolates :
    ∃ w, Run (replan kindsEncoder "wss://relay") (fun w a => Declares kindsEncoder w a ∧ w.Alone a)
        .new [onePass, besidePass] w ∧
      (∃ entry, w.installed[0]? = some entry ∧ (kindDemand 3 1).id ∈ entry.serves) ∧
      (∃ entry, w.installed[1]? = some entry ∧ (kindDemand 2 2).id ∈ entry.serves) ∧
      w.Isolates besidePass.demand := by
  obtain ⟨w, run, checked⟩ := Run.of_any (show (exec (replan kindsEncoder "wss://relay")
    (fun w a => Declares kindsEncoder w a ∧ w.Alone a) .new [onePass, besidePass]).any (fun w =>
      (w.installed[0]?.any fun entry => entry.serves.contains (kindDemand 3 1).id) &&
        w.installed[1]?.any fun entry => entry.serves.contains (kindDemand 2 2).id) = true by
    decide +kernel)
  rw [Bool.and_eq_true] at checked
  obtain ⟨joined, here, serves⟩ := (Option.any_eq_true _ _).mp checked.1
  obtain ⟨opened, here', serves'⟩ := (Option.any_eq_true _ _).mp checked.2
  exact ⟨w, run, ⟨joined, here, ExtTreeSet.contains_iff_mem.mp serves⟩,
    ⟨opened, here', ExtTreeSet.contains_iff_mem.mp serves'⟩,
    isolates_iff_alone.1 [onePass] besidePass w run⟩

/-- The second demand, for one kind, joins the running request for two, which the relay
cuts at its default limit. -/
theorem default_limit_shared :
    ∃ w, Run (replan kindsEncoder "wss://relay") (Declares kindsEncoder) .new [widePass, narrowPass]
      w ∧ ¬ w.Isolates narrowPass.demand := by
  obtain ⟨w, run, checked⟩ : ∃ w, Run (replan kindsEncoder "wss://relay") (Declares kindsEncoder)
      .new [widePass, narrowPass] w ∧ (w.installed[0]?.any fun entry =>
        entry.serves.contains (kindDemand 2 1).id &&
          entry.filters != [(kindDemand 2 1).filter]) = true := Run.of_any (by decide +kernel)
  rw [Option.any_eq_true] at checked
  obtain ⟨entry, here, checked⟩ := checked
  rw [Bool.and_eq_true, ExtTreeSet.contains_iff_mem, bne_iff_ne] at checked
  refine ⟨w, run, fun isolates => checked.2 ?_⟩
  exact isolates (kindDemand 2 1) (by simp [narrowPass]) 0 entry here checked.1

end Shared

end Fava.Observe
