import Fava.Observe.FixedPoint
import Fava.Subscriptions.Splitting

namespace Fava.Observe

open Std Fava.Lib Fava.Nostr Fava.Relay Fava.Subscriptions StandardSubscriptionPlanner

variable {encoder : Encoder} {relay : RelayUrl} {constraints : RelayReadConstraints}
  {demand : List RelayDemand} {w : Wire} {passes : List Pass} {revision : Nat}
  {plan : SubscriptionPlan} {planned : List PlannedSubscription} {id : SubscriptionId}
  {x : DemandId}

section Sized

/-- A request whose exact frame is within the declared message bound. -/
def Sized (encoder : Encoder) (constraints : RelayReadConstraints) (p : PlannedSubscription) : Prop :=
  ∃ bytes, encoder.encodedBytes p.filters = .ok bytes ∧
    ∀ maximum, constraints.maxMessageBytes = some maximum → bytes ≤ maximum

theorem sized_answering : Answering encoder constraints (fun _ => True)
    fun _ planned _ => ∀ p ∈ planned, Sized encoder constraints p where
  nil := by simp
  carried filter held bytes _ _ encoded fits p hp := by
    obtain rfl := List.mem_singleton.mp hp
    exact ⟨bytes, encoded, fits⟩
  dropped _ _ _ _ _ _ _ _ := by simp
  append _ _ _ _ _ _ one two p hp := (List.mem_append.mp hp).elim (one p) (two p)
  perm _ _ _ _ _ sized := sized

theorem foldIdenticalFilters_sized (sized : ∀ p ∈ planned, Sized encoder constraints p) :
    ∀ p ∈ foldIdenticalFilters planned, Sized encoder constraints p := by
  induction planned using List.reverseRecOn with
  | nil => exact sized
  | append_singleton planned q ih =>
    rw [foldIdenticalFilters_append_singleton]
    intro p hp
    obtain old | ⟨rfl, -⟩ | ⟨c, hc, -, rfl⟩ := mem_upsert hp
    · exact ih (fun p hp => sized p (by simp [hp])) p old
    · exact sized p (by simp)
    · exact ih (fun p hp => sized p (by simp [hp])) c hc

/-- Whatever is opened fits. -/
theorem opens_sized (distinct : Distinguishes encoder demand)
    (found : StandardSubscriptionPlanner.plan encoder relay demand constraints w.installed revision =
      .ok plan) : ∀ p ∈ plan.opens, Sized encoder constraints p := by
  obtain ⟨candidates, large, rfl, answered⟩ := plan_answered distinct found
  have sized := answered _ _ sized_answering fun _ _ _ _ => trivial
  intro p hp
  have kept := fitResidualCount_sublist.subset ((List.perm_insertionSort _ _).mem_iff.mp hp)
  exact foldIdenticalFilters_sized sized p kept

end Sized

section Accounts

theorem limitShortfall_demand (d : RelayDemand) :
    (limitShortfall constraints d).map SubscriptionShortfall.demand =
      if withinLimit constraints d then none else some d.id := by
  unfold limitShortfall withinLimit
  split
  · rename_i maximum required _ _
    by_cases within : required ≤ maximum
    · simp [within, Nat.not_lt.mpr within]
    · simp [within, Nat.not_le.mp within]
  · rfl

theorem limited_named : named (admitFilterLimits demand constraints).2 =
    ids (demand.filter fun d => !withinLimit constraints d) := by
  unfold named ids admitFilterLimits
  dsimp only
  rw [List.map_filterMap]
  simp only [limitShortfall_demand]
  induction demand with
  | nil => rfl
  | cons d demand ih =>
    rw [List.filterMap_cons, List.filter_cons, ih]
    cases withinLimit constraints d <;> rfl

/-- Demand that a running subscription carries. -/
def hosted (demand : List RelayDemand) (constraints : RelayReadConstraints)
    (installed : InstalledSubscriptions) : List RelayDemand :=
  (admitFilterLimits demand constraints).1.filter fun d => (hostFor d installed).isSome

/-- The demands that what keeps running serves, one after the other. -/
def running (plan : SubscriptionPlan) : List DemandId :=
  plan.attribution.toList.flatMap fun e => e.2.serves.toList

/-- A plan attributes to each running subscription the demand that it hosts. -/
theorem attribution_serves (owned : w.Owned) (distinct : Distinguishes encoder demand)
    (found : StandardSubscriptionPlanner.plan encoder relay demand constraints w.installed revision =
      .ok plan) {a : AttributedSubscription} (here : plan.attribution[id]? = some a) :
    x ∈ a.serves ↔ ∃ d ∈ (admitFilterLimits demand constraints).1,
      hostFor d w.installed = some id ∧ d.id = x := by
  obtain ⟨candidates, large, rfl, -⟩ := plan_answered distinct found
  obtain ⟨serves, entry, kept, runs, rfl⟩ := attributed_eq_some.mp here
  obtain ⟨entry', runs', -, owns⟩ := survivingOwners_eq_some.mp kept
  exact (owns x).trans (owned.owns runs')

theorem mem_attribution (owned : w.Owned) (distinct : Distinguishes encoder demand)
    (found : StandardSubscriptionPlanner.plan encoder relay demand constraints w.installed revision =
      .ok plan) {d : RelayDemand} (admitted : d ∈ (admitFilterLimits demand constraints).1)
    (host : hostFor d w.installed = some id) : ∃ a, plan.attribution[id]? = some a := by
  obtain ⟨candidates, large, rfl, -⟩ := plan_answered distinct found
  obtain ⟨entry, runs⟩ := hostFor_known host
  have owner := (owned.owns (x := d.id) runs).mpr ⟨d, admitted, host, rfl⟩
  obtain ⟨serves, kept⟩ := Option.isSome_iff_exists.mp (ExtTreeMap.mem_iff_isSome_getElem?.mp
    ((mem_survivingOwners runs).mpr ⟨d.id, owner⟩))
  exact ⟨_, attributed_eq_some.mpr ⟨serves, entry, kept, runs, rfl⟩⟩

/-- What keeps running serves the hosted demand, each once. -/
theorem running_perm (owned : w.Owned) (distinct : Distinguishes encoder demand)
    (found : StandardSubscriptionPlanner.plan encoder relay demand constraints w.installed revision =
      .ok plan) : (running plan).Perm (ids (hosted demand constraints w.installed)) := by
  have nodup := nodup_of_plan found
  have one : ∀ d ∈ (admitFilterLimits demand constraints).1,
      ∀ e ∈ (admitFilterLimits demand constraints).1, d.id = e.id → d = e := fun d hd e he same =>
    List.inj_on_of_nodup_map nodup (mem_admissible.mp hd).1 (mem_admissible.mp he).1 same
  have entries : ∀ {e}, e ∈ plan.attribution.toList → plan.attribution[e.1]? = some e.2 :=
    fun listed => ExtTreeMap.mem_toList_iff_getElem?_eq_some.mp listed
  refine (List.perm_ext_iff_of_nodup ?_ ?_).mpr fun x => ?_
  · refine List.nodup_flatMap.mpr ⟨fun e _ => BTreeSet.nodup_toList, ?_⟩
    refine ExtTreeMap.distinct_keys_toList.imp_of_mem fun {e f} first second differ x he hf => ?_
    obtain ⟨d, hd, host, rfl⟩ := (attribution_serves owned distinct found (entries first)).mp
      (ExtTreeSet.mem_toList.mp he)
    obtain ⟨d', hd', host', same⟩ := (attribution_serves owned distinct found (entries second)).mp
      (ExtTreeSet.mem_toList.mp hf)
    obtain rfl := one d' hd' d hd same
    have keys : e.1 = f.1 := Option.some.inj (host.symm.trans host')
    exact differ (by rw [keys]; exact ReflCmp.compare_self)
  · exact nodup.sublist (List.Sublist.map _ (List.filter_sublist.trans List.filter_sublist))
  · rw [mem_ids, running, List.mem_flatMap]
    constructor
    · rintro ⟨e, listed, member⟩
      obtain ⟨d, hd, host, same⟩ := (attribution_serves owned distinct found (entries listed)).mp
        (ExtTreeSet.mem_toList.mp member)
      exact ⟨d, List.mem_filter.mpr ⟨hd, by rw [host]; rfl⟩, same⟩
    · rintro ⟨d, hd, rfl⟩
      obtain ⟨hd, hosts⟩ := List.mem_filter.mp hd
      obtain ⟨id, host⟩ := Option.isSome_iff_exists.mp hosts
      obtain ⟨a, here⟩ := mem_attribution owned distinct found hd host
      refine ⟨(id, a), ExtTreeMap.mem_toList_iff_getElem?_eq_some.mpr here, ?_⟩
      exact ExtTreeSet.mem_toList.mpr
        ((attribution_serves owned distinct found here).mpr ⟨d, hd, host, rfl⟩)

/-- A plan deals all demand out to what keeps running, to what it opens and to what it
leaves short, each once. -/
theorem plan_accounts (owned : w.Owned) (distinct : Distinguishes encoder demand)
    (found : StandardSubscriptionPlanner.plan encoder relay demand constraints w.installed revision =
      .ok plan) : (servedBy plan ++ named plan.shortfalls).Perm (ids demand) := by
  obtain ⟨short, shortfalls, dealt⟩ := plan_dealt distinct found
  have runs := running_perm owned distinct found
  have admitted : (hosted demand constraints w.installed ++ pending demand constraints w.installed).Perm
      (admitFilterLimits demand constraints).1 := by
    rw [hosted, pending, attach_pending]
    have split := List.filter_append_perm (fun d => (hostFor d w.installed).isSome)
      (admitFilterLimits demand constraints).1
    simpa only [Option.not_isSome] using split
  have limited : ((admitFilterLimits demand constraints).1 ++
      demand.filter fun d => !withinLimit constraints d).Perm demand :=
    List.filter_append_perm (withinLimit constraints) demand
  have served : servedBy plan = running plan ++ shares plan.opens := rfl
  have names : named plan.shortfalls =
      ids (demand.filter fun d => !withinLimit constraints d) ++ named short := by
    rw [shortfalls, ← limited_named, named, named, named, List.map_append]
  have rest : (shares plan.opens ++ (ids (demand.filter fun d => !withinLimit constraints d) ++
      named short)).Perm (ids (pending demand constraints w.installed) ++
        ids (demand.filter fun d => !withinLimit constraints d)) := by
    refine (List.Perm.append_left _ List.perm_append_comm).trans ?_
    rw [← List.append_assoc]
    exact dealt.append_right _
  rw [served, names, List.append_assoc]
  refine (runs.append rest).trans ?_
  have all := (admitted.append_right _).trans limited
  rw [List.append_assoc] at all
  simpa only [ids, List.map_append] using all.map RelayDemand.id

theorem count_accounted (owned : w.Owned) (distinct : Distinguishes encoder demand)
    (found : StandardSubscriptionPlanner.plan encoder relay demand constraints w.installed revision =
      .ok plan) : ∀ d ∈ demand,
      (servedBy plan).count d.id + (named plan.shortfalls).count d.id = 1 := by
  intro d hd
  rw [← List.count_append, (plan_accounts owned distinct found).count_eq]
  exact List.count_eq_one_of_mem (nodup_of_plan found) (mem_ids.mpr ⟨d, hd, rfl⟩)

end Accounts

/-- Bounded splitting ends and loses nothing: whatever runs, whatever is asked for and
whatever the relay declares, merging and splitting end; a plan is refused only for demand
that repeats an identifier or cannot be encoded; it serves each demand once or names it
short once; and what it opens fits. -/
theorem splitting_accounts (run : Run (replan encoder relay) (Legible encoder) .new passes w)
    (distinct : Distinguishes encoder demand) :
    (∀ candidates, Ends mergeOnce candidates (.ok (mergeToFixedPoint candidates.length candidates))) ∧
    (∃ r, Ends (splitOnce encoder constraints)
        ⟨group encoder (pending demand constraints w.installed) constraints, [],
          (admitFilterLimits demand constraints).2⟩ r ∧
      fitMessageBound encoder constraints
        (splitBound (group encoder (pending demand constraints w.installed) constraints))
        (group encoder (pending demand constraints w.installed) constraints) []
        (admitFilterLimits demand constraints).2 = r.map fun s => (s.carried, s.shortfalls)) ∧
    ((ids demand).Nodup → (∀ filters, ∃ bytes, encoder.encodedBytes filters = .ok bytes) →
      ∃ plan, StandardSubscriptionPlanner.plan encoder relay demand constraints w.installed revision =
        .ok plan) ∧
    ∀ plan, StandardSubscriptionPlanner.plan encoder relay demand constraints w.installed revision =
        .ok plan →
      (∀ d ∈ demand, (servedBy plan).count d.id + (named plan.shortfalls).count d.id = 1) ∧
      ∀ p ∈ plan.opens, ∃ bytes, encoder.encodedBytes p.filters = .ok bytes ∧
        ∀ maximum, constraints.maxMessageBytes = some maximum → bytes ≤ maximum := by
  have owned : w.Owned := owned_new.run run fun _ _ legible => legible
  have within : Distinguishes encoder (pending demand constraints w.installed) :=
    distinct.subset fun d hd => (mem_pending.mp hd).1.1
  exact ⟨merging_ends, splitting_ends within _, plan_total, fun plan found =>
    ⟨count_accounted owned distinct found, opens_sized distinct found⟩⟩

/-- A declared bound that only the shorter of two requests is within. -/
def narrow : RelayReadConstraints := { RelayReadConstraints.unknown with maxMessageBytes := some 45 }

/-- Two kinds run as one request, a third fits and a fourth does not. -/
theorem splitting_accounts_of_four : ∃ w plan,
    Run (replan kindsEncoder "wss://relay") (Legible kindsEncoder) .new [firstPass] w ∧
      StandardSubscriptionPlanner.plan kindsEncoder "wss://relay"
        [kindDemand 1 1, kindDemand 3 3, kindDemand 4 10000000000] narrow w.installed 2 = .ok plan ∧
      (servedBy plan).count ⟨3, 0⟩ + (named plan.shortfalls).count ⟨3, 0⟩ = 1 := by
  obtain ⟨w, ran⟩ := Option.isSome_iff_exists.mp (show (exec (replan kindsEncoder "wss://relay")
    (Legible kindsEncoder) .new [firstPass]).isSome = true by decide +kernel)
  have run := Run.of_exec ran
  have distinct : Distinguishes kindsEncoder
      [kindDemand 1 1, kindDemand 3 3, kindDemand 4 10000000000] := by
    unfold Distinguishes
    decide +kernel
  obtain ⟨-, -, total, accounts⟩ := splitting_accounts run distinct
  obtain ⟨plan, found⟩ := total (by decide +kernel) fun filters => ⟨_, rfl⟩
  exact ⟨w, plan, run, found, (accounts plan found).1 (kindDemand 3 3) (by simp)⟩

end Fava.Observe
