import Fava.Subscriptions.Conforms

namespace Fava.Subscriptions

open Std Fava.Lib Fava.Nostr

variable {encoder : Encoder} {relay : RelayUrl} {revision : Nat}
  {constraints : RelayReadConstraints} {demand demand' : List RelayDemand}
  {installed : InstalledSubscriptions} {plan : SubscriptionPlan}
  {planned : List PlannedSubscription} {shortfalls : List SubscriptionShortfall}

/-- The demands that requests serve, one after the other. -/
def shares (planned : List PlannedSubscription) : List DemandId :=
  planned.flatMap fun p => p.serves.toList

def ids (demand : List RelayDemand) : List DemandId := demand.map RelayDemand.id

def named (shortfalls : List SubscriptionShortfall) : List DemandId :=
  shortfalls.map SubscriptionShortfall.demand

theorem mem_shares {x : DemandId} : x ∈ shares planned ↔ ∃ p ∈ planned, x ∈ p.serves := by
  simp [shares, List.mem_flatMap, ExtTreeSet.mem_toList]

theorem mem_ids {x : DemandId} : x ∈ ids demand ↔ ∃ d ∈ demand, d.id = x := List.mem_map

theorem mem_named {x : DemandId} : x ∈ named shortfalls ↔ ∃ s ∈ shortfalls, s.demand = x :=
  List.mem_map

/-- Demand with distinct identifiers is dealt out to requests and shortfalls, each once. -/
def Dealt (demand : List RelayDemand) (planned : List PlannedSubscription)
    (shortfalls : List SubscriptionShortfall) : Prop :=
  (ids demand).Nodup → (shares planned ++ named shortfalls).Perm (ids demand)

theorem dealt_answering {Q : Candidate → Prop} : Answering encoder constraints Q Dealt where
  nil _ := .nil
  carried filter held bytes _ _ _ _ nodup := by
    simpa [shares, named, ids] using BTreeSet.toList_ofList_perm nodup
  dropped filter d bytes maximum _ _ _ _ _ := by simp [shares, named, ids]
  append first second planned planned' dropped dropped' one two nodup := by
    rw [ids, List.map_append, List.nodup_append] at nodup
    have both := (one nodup.1).append (two nodup.2.1)
    simp only [shares, named, ids, List.flatMap_append, List.map_append] at both ⊢
    refine List.Perm.trans ?_ both
    simp only [List.append_assoc]
    exact (List.perm_append_comm_assoc _ _ _).append_left _
  perm first second planned dropped same dealt nodup := by
    have listed : (ids first).Perm (ids second) := same.map _
    exact (dealt (listed.nodup_iff.mpr nodup)).trans listed

theorem shares_append_singleton {p : PlannedSubscription} :
    shares (planned ++ [p]) = shares planned ++ p.serves.toList := by
  simp [shares]

/-- Requests folded for having the same filters serve what they served. -/
theorem foldIdenticalFilters_shares (nodup : (shares planned).Nodup) :
    (shares (foldIdenticalFilters planned)).Perm (shares planned) := by
  induction planned using List.reverseRecOn with
  | nil => exact .nil
  | append_singleton planned p ih =>
    rw [shares_append_singleton] at nodup ⊢
    have before := ih (List.nodup_append.mp nodup).1
    rw [foldIdenticalFilters_append_singleton]
    refine (flatMap_upsert_perm fun c hc _ => ?_).trans ?_
    · refine (BTreeSet.toList_union_perm fun x held brought => ?_).trans List.perm_append_comm
      have served : x ∈ shares planned := before.mem_iff.mp (mem_shares.mpr ⟨c, hc, held⟩)
      exact (List.nodup_append.mp nodup).2.2 x served x (ExtTreeSet.mem_toList.mpr brought) rfl
    · exact (before.append_left _).trans List.perm_append_comm

theorem fitResidualCount_shares {running : Nat} :
    (shares (fitResidualCount planned constraints running).1 ++
      named (fitResidualCount planned constraints running).2).Perm (shares planned) := by
  unfold fitResidualCount
  split
  · simp [named]
  · rename_i maximum _
    have dropped : ∀ l : List PlannedSubscription, named (l.flatMap fun dropped =>
        dropped.serves.toList.map fun demand => (⟨demand, .subscriptionsExhausted
          (running + planned.length) maximum⟩ : SubscriptionShortfall)) = shares l := by
      intro l
      simp [named, shares, List.map_flatMap, Function.comp_def]
    rw [dropped, shares, shares, ← List.flatMap_append, List.take_append_drop]
    exact .refl _

/-- What is served once is served by one request. -/
theorem filter_serves {x : DemandId} (nodup : (shares planned).Nodup) (served : x ∈ shares planned) :
    ∃ p, planned.filter (fun p => p.serves.contains x) = [p] := by
  induction planned with
  | nil => cases served
  | cons p planned ih =>
    rw [shares, List.flatMap_cons] at nodup served
    obtain ⟨-, later, apart⟩ := List.nodup_append.mp nodup
    rw [List.filter_cons]
    by_cases first : x ∈ p.serves
    · refine ⟨p, ?_⟩
      rw [if_pos (ExtTreeSet.contains_iff_mem.mpr first), List.cons_inj_right,
        List.filter_eq_nil_iff]
      intro q hq again
      exact apart x (ExtTreeSet.mem_toList.mpr first) x
        (mem_shares.mpr ⟨q, hq, ExtTreeSet.contains_iff_mem.mp again⟩) rfl
    · rw [if_neg fun here => first (ExtTreeSet.contains_iff_mem.mp here)]
      apply ih later
      obtain here | there := List.mem_append.mp served
      · exact (first (ExtTreeSet.mem_toList.mp here)).elim
      · exact there

/-- Requests that serve nothing twice serve nothing in common. -/
theorem shares_apart (nodup : (shares planned).Nodup) :
    planned.Pairwise fun p q => ∀ x ∈ p.serves, x ∉ q.serves := by
  rw [shares, List.nodup_flatMap] at nodup
  refine nodup.2.imp fun apart x hp hq => ?_
  exact apart (ExtTreeSet.mem_toList.mpr hp) (ExtTreeSet.mem_toList.mpr hq)

theorem sortByFilters_shares : (shares (sortByFilters planned)).Perm (shares planned) :=
  (List.perm_insertionSort _ _).flatMap_right _

theorem refuseDuplicateDemand_ok :
    refuseDuplicateDemand demand = .ok () ↔ (ids demand).Nodup := by
  have walked : ∀ seen, refuseDuplicateDemand.go seen demand = .ok () ↔
      (ids demand).Nodup ∧ ∀ d ∈ demand, d.id ∉ seen := by
    induction demand with
    | nil => simp [refuseDuplicateDemand.go, ids]
    | cons d demand ih =>
      intro seen
      rw [refuseDuplicateDemand.go, List.forall_mem_cons, ids, List.map_cons, List.nodup_cons,
        ← ids, mem_ids]
      by_cases again : d.id ∈ seen
      · simp [again]
      · rw [if_neg again, ih]
        simp only [List.mem_cons, not_or, forall_and, again, not_false_eq_true, true_and,
          not_exists, not_and]
        tauto
  rw [refuseDuplicateDemand, walked]
  simp

namespace StandardSubscriptionPlanner

theorem nodup_of_plan (h : StandardSubscriptionPlanner.plan encoder relay demand constraints
    installed revision = .ok plan) : (ids demand).Nodup := by
  rw [← refuseDuplicateDemand_ok]
  unfold StandardSubscriptionPlanner.plan at h
  cases unique : refuseDuplicateDemand demand with
  | error e => simp [unique, bind, Except.bind] at h
  | ok u => rfl

/-- Only demand that repeats an identifier or cannot be encoded is refused. -/
theorem plan_total (nodup : (ids demand).Nodup)
    (encodes : ∀ filters, ∃ bytes, encoder.encodedBytes filters = .ok bytes) :
    ∃ plan, StandardSubscriptionPlanner.plan encoder relay demand constraints installed revision =
      .ok plan := by
  unfold StandardSubscriptionPlanner.plan
  obtain ⟨fitted, found⟩ : ∃ fitted, fitMessageBound encoder constraints
      (splitBound (group encoder (pending demand constraints installed) constraints))
      (group encoder (pending demand constraints installed) constraints) []
      (admitFilterLimits demand constraints).2 = .ok fitted := fitMessageBound_total encodes
  unfold pending at found
  rw [refuseDuplicateDemand_ok.mpr nodup]
  simp only [bind, Except.bind, pure, Except.pure]
  rw [found]
  exact ⟨_, rfl⟩

/-- What is pending is dealt out to what is opened and what falls short. -/
theorem dealt_of_answered {candidates : List PlannedSubscription}
    {large : List SubscriptionShortfall} (constraints : RelayReadConstraints) (running : Nat)
    (nodup : (ids demand).Nodup)
    (dealt : Dealt demand candidates large) :
    (shares (sortByFilters (opening candidates constraints running).1) ++
      named (large ++ (opening candidates constraints running).2)).Perm (ids demand) := by
  have all := dealt nodup
  have fitting : (shares candidates).Nodup :=
    (List.nodup_append.mp (all.nodup_iff.mpr nodup)).1
  have folded : (shares (opening candidates constraints running).1 ++
      named (opening candidates constraints running).2).Perm (shares candidates) :=
    fitResidualCount_shares.trans (foldIdenticalFilters_shares fitting)
  refine List.Perm.trans ?_ all
  rw [named, List.map_append]
  refine List.Perm.trans ?_ (folded.append_right _)
  rw [List.append_assoc]
  exact sortByFilters_shares.append (List.perm_append_comm)

theorem pending_nodup (nodup : (ids demand).Nodup) :
    (ids (pending demand constraints installed)).Nodup := by
  refine nodup.sublist (List.Sublist.map _ ?_)
  rw [pending, attach_pending]
  exact List.filter_sublist.trans List.filter_sublist

/-- A plan deals the pending demand out to what it opens and what it leaves short. -/
theorem plan_dealt (distinct : Distinguishes encoder demand)
    (h : StandardSubscriptionPlanner.plan encoder relay demand constraints installed revision =
      .ok plan) :
    ∃ short, plan.shortfalls = (admitFilterLimits demand constraints).2 ++ short ∧
      (shares plan.opens ++ named short).Perm (ids (pending demand constraints installed)) := by
  have nodup := nodup_of_plan h
  obtain ⟨candidates, large, rfl, answered⟩ := plan_answered distinct h
  exact ⟨_, List.append_assoc _ _ _, dealt_of_answered constraints _ (pending_nodup nodup)
    (answered (fun _ => True) _ dealt_answering fun _ _ _ _ => trivial)⟩

/-- Demand that is named short is neither hosted nor served by what is opened. -/
theorem unserved_of_short {s : SubscriptionShortfall} {d : RelayDemand}
    (distinct : Distinguishes encoder demand)
    (h : StandardSubscriptionPlanner.plan encoder relay demand constraints installed revision =
      .ok plan) (hs : s ∈ plan.shortfalls) (hd : d ∈ (admitFilterLimits demand constraints).1)
    (same : d.id = s.demand) :
    d ∈ pending demand constraints installed ∧ d.id ∉ shares plan.opens := by
  have nodup := nodup_of_plan h
  obtain ⟨asked, within⟩ := mem_admissible.mp hd
  obtain ⟨short, eq, dealt⟩ := plan_dealt distinct h
  rw [eq] at hs
  obtain limited | hs := List.mem_append.mp hs
  · obtain ⟨e, he, eq, beyond⟩ := limit_beyond limited
    rw [List.inj_on_of_nodup_map nodup he asked (eq.trans same.symm)] at beyond
    exact (beyond within).elim
  · have listed : d.id ∈ named short := mem_named.mpr ⟨s, hs, same.symm⟩
    obtain ⟨e, he, eq⟩ := mem_ids.mp (dealt.mem_iff.mp (List.mem_append_right _ listed))
    rw [List.inj_on_of_nodup_map nodup (mem_pending.mp he).1.1 asked eq] at he
    refine ⟨he, fun served => ?_⟩
    exact (List.nodup_append.mp (dealt.nodup_iff.mpr (pending_nodup nodup))).2.2 _ served _ listed rfl

end StandardSubscriptionPlanner

theorem OnePerDemand.plan_total (nodup : (ids demand).Nodup) :
    ∃ plan, OnePerDemand.plan encoder relay demand constraints installed revision = .ok plan := by
  unfold OnePerDemand.plan
  rw [refuseDuplicateDemand_ok.mpr nodup]
  exact ⟨_, rfl⟩

end Fava.Subscriptions
