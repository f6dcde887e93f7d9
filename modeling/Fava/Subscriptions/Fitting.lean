import Fava.Subscriptions.Grouped
import Fava.Subscriptions.Standard
import Mathlib.Algebra.BigOperators.Group.List.Basic

namespace Fava.Subscriptions

open Std Fava.Lib

variable {encoder : Encoder} {constraints : RelayReadConstraints} {demand demand' : List RelayDemand}
  {installed : InstalledSubscriptions} {planned carried : List PlannedSubscription}
  {shortfalls : List SubscriptionShortfall}

/-- A one-filter request for demand of the given list, covering all it serves. -/
structure Carries (demand : List RelayDemand) (planned : PlannedSubscription) : Prop where
  wanted : ∃ id, id ∈ planned.serves
  request : ∃ filter, planned.filters = [filter] ∧
    ∀ id ∈ planned.serves, ∃ d ∈ demand, d.id = id ∧ filterCovers filter d.filter = true

/-- Requests and shortfalls that together answer for the demand and nothing else. -/
structure Fitted (demand : List RelayDemand) (planned : List PlannedSubscription)
    (shortfalls : List SubscriptionShortfall) : Prop where
  carries : ∀ p ∈ planned, Carries demand p
  named : ∀ s ∈ shortfalls, ∃ d ∈ demand, d.id = s.demand
  accounted : ∀ d ∈ demand, (∃ p ∈ planned, d.id ∈ p.serves) ∨ ∃ s ∈ shortfalls, s.demand = d.id

theorem Carries.mono {p : PlannedSubscription} (sub : ∀ d ∈ demand, d ∈ demand')
    (carries : Carries demand p) : Carries demand' p := by
  obtain ⟨wanted, filter, filters, covers⟩ := carries
  refine ⟨wanted, filter, filters, fun id hid => ?_⟩
  obtain ⟨d, hd, same⟩ := covers id hid
  exact ⟨d, sub d hd, same⟩

theorem Fitted.congr (same : ∀ d, d ∈ demand ↔ d ∈ demand')
    (fitted : Fitted demand planned shortfalls) : Fitted demand' planned shortfalls where
  carries p hp := (fitted.carries p hp).mono fun d => (same d).mp
  named s hs := by
    obtain ⟨d, hd, eq⟩ := fitted.named s hs
    exact ⟨d, (same d).mp hd, eq⟩
  accounted d hd := fitted.accounted d ((same d).mpr hd)

theorem Fitted.append {planned' : List PlannedSubscription}
    {shortfalls' : List SubscriptionShortfall} (first : Fitted demand planned shortfalls)
    (second : Fitted demand' planned' shortfalls') :
    Fitted (demand ++ demand') (planned ++ planned') (shortfalls ++ shortfalls') where
  carries p hp := by
    obtain hp | hp := List.mem_append.mp hp
    · exact (first.carries p hp).mono fun d hd => List.mem_append_left _ hd
    · exact (second.carries p hp).mono fun d hd => List.mem_append_right _ hd
  named s hs := by
    obtain hs | hs := List.mem_append.mp hs
    · obtain ⟨d, hd, eq⟩ := first.named s hs
      exact ⟨d, List.mem_append_left _ hd, eq⟩
    · obtain ⟨d, hd, eq⟩ := second.named s hs
      exact ⟨d, List.mem_append_right _ hd, eq⟩
  accounted d hd := by
    simp only [List.mem_append]
    obtain hd | hd := List.mem_append.mp hd
    · obtain ⟨p, hp, serves⟩ | ⟨s, hs, eq⟩ := first.accounted d hd
      · exact .inl ⟨p, .inl hp, serves⟩
      · exact .inr ⟨s, .inl hs, eq⟩
    · obtain ⟨p, hp, serves⟩ | ⟨s, hs, eq⟩ := second.accounted d hd
      · exact .inl ⟨p, .inr hp, serves⟩
      · exact .inr ⟨s, .inr hs, eq⟩

theorem fitted_nil : Fitted [] [] [] := ⟨by simp, by simp, by simp⟩

/-- A candidate carried whole. -/
theorem fitted_carried {filter : Filter} {how : EoseCompleteness} (inhabited : demand ≠ [])
    (covers : ∀ d ∈ demand, filterCovers filter d.filter = true) :
    Fitted demand [⟨[filter], ExtTreeSet.ofList (demand.map RelayDemand.id), how⟩] [] := by
  have serves : ∀ id, id ∈ (ExtTreeSet.ofList (demand.map RelayDemand.id) : BTreeSet DemandId) ↔
      ∃ d ∈ demand, d.id = id := by
    intro id
    simp [ExtTreeSet.mem_ofList]
  refine ⟨?_, by simp, fun d hd => .inl ⟨_, List.mem_singleton_self _, (serves _).mpr ⟨d, hd, rfl⟩⟩⟩
  intro p hp
  obtain rfl := List.mem_singleton.mp hp
  obtain ⟨d, hd⟩ := List.exists_mem_of_ne_nil _ inhabited
  refine ⟨⟨d.id, (serves _).mpr ⟨d, hd, rfl⟩⟩, filter, rfl, fun id hid => ?_⟩
  obtain ⟨d, hd, eq⟩ := (serves id).mp hid
  exact ⟨d, hd, eq, covers d hd⟩

theorem fitted_dropped {d : RelayDemand} {reason : ShortfallReason} :
    Fitted [d] [] [⟨d.id, reason⟩] := ⟨by simp, by simp, by simp⟩

theorem Grouped.length_le {candidates : List Candidate} (grouped : Grouped demand candidates) :
    candidates.length ≤ demand.length := by
  rw [← grouped.shared.length_eq, members, List.length_flatMap]
  have counted : (candidates.map fun c => c.2.length).length ≤
      (candidates.map fun c => c.2.length).sum := by
    apply List.length_le_sum_of_one_le
    intro n hn
    obtain ⟨c, hc, rfl⟩ := List.mem_map.mp hn
    exact List.length_pos_iff.mpr (grouped.inhabited c hc)
  simpa using counted

theorem Grouped.append {left right : List Candidate} (first : Grouped demand left)
    (second : Grouped demand' right) : Grouped (demand ++ demand') (left ++ right) where
  shared := by
    rw [members, List.flatMap_append]
    exact first.shared.append second.shared
  inhabited c hc := (List.mem_append.mp hc).elim (first.inhabited c) (second.inhabited c)
  covering c hc := (List.mem_append.mp hc).elim (first.covering c) (second.covering c)

theorem Grouped.ne_nil {candidates : List Candidate} (grouped : Grouped demand candidates)
    (inhabited : demand ≠ []) : candidates ≠ [] := by
  rintro rfl
  exact inhabited (List.nil_perm.mp grouped.shared)

/-- A list that is there and is not one entry has two. -/
theorem two_le_length {α : Type} {l : List α} (inhabited : l ≠ [])
    (single : ∀ only, l = [only] → False) : 2 ≤ l.length := by
  have filled := List.length_pos_iff.mpr inhabited
  by_contra few
  have one : l.length = 1 := by omega
  obtain ⟨only, same⟩ := List.length_eq_one_iff.mp one
  exact single only same

/-- The halves of a candidate that does not fit, grouped anew, are fewer than its
members and at least two. -/
theorem group_halves (constraints : RelayReadConstraints) (distinct : Distinguishes encoder demand)
    (several : 2 ≤ demand.length) :
    Grouped demand (group encoder (demand.take ((demand.length + 1) / 2)) constraints ++
      group encoder (demand.drop ((demand.length + 1) / 2)) constraints) ∧
    2 ≤ (group encoder (demand.take ((demand.length + 1) / 2)) constraints ++
      group encoder (demand.drop ((demand.length + 1) / 2)) constraints).length := by
  have left : Grouped (demand.take ((demand.length + 1) / 2))
      (group encoder (demand.take ((demand.length + 1) / 2)) constraints) :=
    group_grouped (distinct.subset fun d hd => List.mem_of_mem_take hd)
  have right : Grouped (demand.drop ((demand.length + 1) / 2))
      (group encoder (demand.drop ((demand.length + 1) / 2)) constraints) :=
    group_grouped (distinct.subset fun d hd => List.mem_of_mem_drop hd)
  have filledLeft : demand.take ((demand.length + 1) / 2) ≠ [] := by
    rw [← List.length_pos_iff, List.length_take]
    omega
  have filledRight : demand.drop ((demand.length + 1) / 2) ≠ [] := by
    rw [← List.length_pos_iff, List.length_drop]
    omega
  have countLeft := List.length_pos_iff.mpr (left.ne_nil filledLeft)
  have countRight := List.length_pos_iff.mpr (right.ne_nil filledRight)
  refine ⟨by simpa only [List.take_append_drop] using left.append right, ?_⟩
  rw [List.length_append]
  omega

theorem splitBound_eq {queue : List Candidate} :
    splitBound queue = 2 * (members queue).length + queue.length := by
  induction queue with
  | nil => rfl
  | cons c queue ih =>
    simp only [splitBound, List.map_cons, List.sum_cons, List.length_cons, members_cons,
      List.length_append] at ih ⊢
    omega

/-- A relation between demand and what answers for it that the splitting loop keeps:
it holds of a candidate that fits, of one demand too large alone, and of two answers
together. -/
structure Answering (encoder : Encoder) (constraints : RelayReadConstraints)
    (Q : Candidate → Prop)
    (R : List RelayDemand → List PlannedSubscription → List SubscriptionShortfall → Prop) :
    Prop where
  nil : R [] [] []
  carried : ∀ filter held bytes, held ≠ [] → Q (filter, held) →
    encoder.encodedBytes [filter] = .ok bytes →
    (∀ maximum, constraints.maxMessageBytes = some maximum → bytes ≤ maximum) →
    R held [⟨[filter], ExtTreeSet.ofList (held.map RelayDemand.id),
      completeness [filter] constraints⟩] []
  dropped : ∀ filter d bytes maximum, Q (filter, [d]) → encoder.encodedBytes [filter] = .ok bytes →
    constraints.maxMessageBytes = some maximum → maximum < bytes →
    R [d] [] [⟨d.id, .messageTooLarge bytes maximum⟩]
  append : ∀ first second planned planned' dropped dropped', R first planned dropped →
    R second planned' dropped' → R (first ++ second) (planned ++ planned') (dropped ++ dropped')
  perm : ∀ first second planned dropped, first.Perm second → R first planned dropped →
    R second planned dropped

/-- With steps enough for every split, the loop answers for the whole queue. -/
theorem fitMessageBound_rule {Q : Candidate → Prop}
    {R : List RelayDemand → List PlannedSubscription → List SubscriptionShortfall → Prop}
    (answering : Answering encoder constraints Q R) {steps : Nat} {queue : List Candidate}
    {carried' : List PlannedSubscription} {shortfalls' : List SubscriptionShortfall}
    (grouped : Grouped demand queue) (distinct : Distinguishes encoder demand)
    (kept : ∀ sub : List RelayDemand, (∀ d ∈ sub, d ∈ demand) →
      ∀ c ∈ group encoder sub constraints, Q c) (all : ∀ c ∈ queue, Q c)
    (enough : 2 * demand.length ≤ steps + queue.length)
    (h : fitMessageBound encoder constraints steps queue carried shortfalls =
      .ok (carried', shortfalls')) :
    ∃ planned dropped, carried' = carried ++ planned ∧ shortfalls' = shortfalls ++ dropped ∧
      R demand planned dropped := by
  have counted := grouped.length_le
  induction steps generalizing queue demand carried shortfalls with
  | zero =>
    obtain rfl : demand = [] := List.eq_nil_of_length_eq_zero (by omega)
    cases h
    exact ⟨[], [], by simp, by simp, answering.nil⟩
  | succ steps ih =>
    obtain - | ⟨⟨filter, held⟩, queue⟩ := queue
    · obtain rfl : demand = [] := List.nil_perm.mp grouped.shared
      cases h
      exact ⟨[], [], by simp, by simp, answering.nil⟩
    · have inhabited : held ≠ [] := grouped.inhabited _ List.mem_cons_self
      rw [List.forall_mem_cons] at all
      obtain ⟨first, others⟩ := all
      have rest : Grouped (members queue) queue :=
        ⟨.refl _, fun c hc => grouped.inhabited c (by simp [hc]),
          fun c hc => grouped.covering c (by simp [hc])⟩
      have shared : (held ++ members queue).Perm demand := grouped.shared
      have total := shared.length_eq
      have filled := List.length_pos_iff.mpr inhabited
      have fewer := rest.length_le
      simp only [List.length_append, List.length_cons] at total enough
      have among : ∀ d ∈ held ++ members queue, d ∈ demand := fun d => shared.mem_iff.mp
      have later : ∀ d ∈ members queue, d ∈ demand := fun d hd => among d (by simp [hd])
      have apart := distinct.subset later
      have keeps : ∀ sub : List RelayDemand, (∀ d ∈ sub, d ∈ members queue) →
          ∀ c ∈ group encoder sub constraints, Q c :=
        fun sub within => kept sub fun d hd => later d (within d hd)
      simp only [fitMessageBound, if_neg inhabited] at h
      split at h
      · cases h
      · rename_i bytes encoded
        split at h
        · rename_i fits
          obtain ⟨planned, dropped, rfl, rfl, fitted⟩ :=
            ih rest apart keeps others (by omega) h fewer
          have fit := answering.carried filter held bytes inhabited first encoded fun maximum known => by
            simpa [known] using fits
          exact ⟨[_] ++ planned, [] ++ dropped, List.append_assoc _ _ _, rfl,
            answering.perm _ _ _ _ shared (answering.append _ _ _ _ _ _ fit fitted)⟩
        · rename_i large
          obtain ⟨maximum, known, beyond⟩ : ∃ maximum, constraints.maxMessageBytes = some maximum ∧
              maximum < bytes := by
            cases known : constraints.maxMessageBytes with
            | none => simp [known] at large
            | some maximum => exact ⟨maximum, rfl, by simpa [known] using large⟩
          split at h
          · rename_i only
            obtain ⟨planned, dropped, rfl, rfl, fitted⟩ :=
              ih rest apart keeps others (by omega) h fewer
            rw [known, Option.getD_some]
            have short := answering.dropped filter only bytes maximum first encoded known beyond
            exact ⟨[] ++ planned, [_] ++ dropped, rfl, List.append_assoc _ _ _,
              answering.perm _ _ _ _ shared (answering.append _ _ _ _ _ _ short fitted)⟩
          · rename_i single
            have several := two_le_length inhabited single
            obtain ⟨halves, count⟩ := group_halves constraints
              (distinct.subset fun d hd => among d (by simp [hd])) several
            have split := rest.append halves
            have same : ∀ d ∈ members queue ++ held, d ∈ demand := fun d hd =>
              among d (List.perm_append_comm.mem_iff.mp hd)
            rw [List.append_assoc] at h
            -- The halves of a candidate are groups of the demand it held.
            have each : ∀ c ∈ queue ++ (group encoder (held.take ((held.length + 1) / 2))
                constraints ++ group encoder (held.drop ((held.length + 1) / 2)) constraints),
                Q c := by
              intro c hc
              obtain hc | hc := List.mem_append.mp hc
              · exact others c hc
              · obtain hc | hc := List.mem_append.mp hc
                · exact kept _ (fun d hd => among d (by simp [List.mem_of_mem_take hd])) c hc
                · exact kept _ (fun d hd => among d (by simp [List.mem_of_mem_drop hd])) c hc
            obtain ⟨planned, dropped, eqc, eqs, fitted⟩ := ih split (distinct.subset same)
              (fun sub within => kept sub fun d hd => same d (within d hd)) each
              (by simp only [List.length_append] at count ⊢; omega) h split.length_le
            exact ⟨planned, dropped, eqc, eqs,
              answering.perm _ _ _ _ (List.perm_append_comm.trans shared) fitted⟩

theorem fitted_answering : Answering encoder constraints
    (fun c => ∀ d ∈ c.2, filterCovers c.1 d.filter = true) Fitted where
  nil := fitted_nil
  carried _ _ _ inhabited covers _ _ := fitted_carried inhabited covers
  dropped _ _ _ _ _ _ _ _ := fitted_dropped
  append _ _ _ _ _ _ := Fitted.append
  perm _ _ _ _ same := Fitted.congr fun _ => same.mem_iff

theorem fitMessageBound_spec {steps : Nat} {queue : List Candidate}
    {carried' : List PlannedSubscription} {shortfalls' : List SubscriptionShortfall}
    (grouped : Grouped demand queue) (distinct : Distinguishes encoder demand)
    (enough : 2 * demand.length ≤ steps + queue.length)
    (h : fitMessageBound encoder constraints steps queue carried shortfalls =
      .ok (carried', shortfalls')) :
    ∃ planned dropped, carried' = carried ++ planned ∧ shortfalls' = shortfalls ++ dropped ∧
      Fitted demand planned dropped :=
  fitMessageBound_rule fitted_answering grouped distinct
    (fun _ within => (group_grouped (distinct.subset within)).covering) grouped.covering enough h

/-- The loop only stops early on a request that cannot be encoded. -/
theorem fitMessageBound_total {steps : Nat} {queue : List Candidate}
    (encodes : ∀ filters, ∃ bytes, encoder.encodedBytes filters = .ok bytes) :
    ∃ fitted, fitMessageBound encoder constraints steps queue carried shortfalls = .ok fitted := by
  induction steps generalizing queue carried shortfalls with
  | zero => exact ⟨_, rfl⟩
  | succ steps ih =>
    obtain - | ⟨⟨filter, held⟩, queue⟩ := queue
    · exact ⟨_, rfl⟩
    · obtain ⟨bytes, encoded⟩ := encodes [filter]
      simp only [fitMessageBound, encoded]
      split
      · exact ih
      · split
        · exact ih
        · split
          · exact ih
          · exact ih

/-- Joining the demand of a request with the same filters keeps what both carry. -/
theorem Carries.join {p q : PlannedSubscription} (same : p.filters = q.filters)
    (first : Carries demand p) (second : Carries demand q) :
    Carries demand { p with serves := p.serves ∪ q.serves } := by
  obtain ⟨⟨id, hid⟩, filter, filters, covers⟩ := first
  obtain ⟨-, filter', filters', covers'⟩ := second
  obtain rfl : filter = filter' := by simpa [filters, filters'] using same
  refine ⟨⟨id, ExtTreeSet.mem_union_iff.mpr (.inl hid)⟩, filter, filters, fun x hx => ?_⟩
  obtain hx | hx := ExtTreeSet.mem_union_iff.mp hx
  · exact covers x hx
  · exact covers' x hx

theorem foldIdenticalFilters_append_singleton {p : PlannedSubscription} :
    foldIdenticalFilters (planned ++ [p]) =
      upsert (fun c => c.filters = p.filters) (fun c => { c with serves := c.serves ∪ p.serves }) p
        (foldIdenticalFilters planned) := by
  unfold foldIdenticalFilters
  rw [List.foldl_append, List.foldl_cons, List.foldl_nil]

theorem foldIdenticalFilters_carries (carries : ∀ p ∈ planned, Carries demand p) :
    ∀ p ∈ foldIdenticalFilters planned, Carries demand p := by
  induction planned using List.reverseRecOn with
  | nil => simp [foldIdenticalFilters]
  | append_singleton planned q ih =>
    have before := ih fun p hp => carries p (by simp [hp])
    have last := carries q (by simp)
    rw [foldIdenticalFilters_append_singleton]
    intro p hp
    obtain old | ⟨rfl, -⟩ | ⟨c, hc, hit, rfl⟩ := mem_upsert hp
    · exact before p old
    · exact last
    · exact (before c hc).join (of_decide_eq_true hit) last

theorem foldIdenticalFilters_serves {x : DemandId} (h : ∃ p ∈ planned, x ∈ p.serves) :
    ∃ p ∈ foldIdenticalFilters planned, x ∈ p.serves := by
  induction planned using List.reverseRecOn with
  | nil => simp at h
  | append_singleton planned q ih =>
    rw [foldIdenticalFilters_append_singleton]
    refine exists_mem_upsert (fun c _ hx => ExtTreeSet.mem_union_iff.mpr (.inl hx))
      (fun c _ hx => ExtTreeSet.mem_union_iff.mpr (.inr hx)) ?_
    obtain ⟨p, hp, hx⟩ := h
    obtain hp | hp := List.mem_append.mp hp
    · exact .inr (ih ⟨p, hp, hx⟩)
    · exact .inl (List.mem_singleton.mp hp ▸ hx)

theorem foldIdenticalFilters_apart :
    (foldIdenticalFilters planned).Pairwise fun p q => p.filters ≠ q.filters := by
  induction planned using List.reverseRecOn with
  | nil => exact .nil
  | append_singleton planned q ih =>
    rw [foldIdenticalFilters_append_singleton]
    exact pairwise_upsert ih (fun c _ differs => of_decide_eq_false differs)
      (fun c d _ apart => apart) fun c d _ apart => apart

theorem Fitted.fold (fitted : Fitted demand planned shortfalls) :
    Fitted demand (foldIdenticalFilters planned) shortfalls where
  carries := foldIdenticalFilters_carries fitted.carries
  named := fitted.named
  accounted d hd := (fitted.accounted d hd).imp_left foldIdenticalFilters_serves

/-- Requests none of which repeats a running one are left alone. -/
theorem foldIntoRunning_eq {attached : Attached}
    (fresh : ∀ p ∈ planned, ∀ (id : SubscriptionId) (entry : InstalledSubscription),
      installed[id]? = some entry → entry.filters ≠ p.filters) :
    foldIntoRunning planned installed attached = (planned, attached) := by
  unfold foldIntoRunning
  induction planned using List.reverseRecOn with
  | nil => rfl
  | append_singleton planned q ih =>
    have absent : (installed.toList.find? fun e => e.2.filters = q.filters) = none := by
      rw [List.find?_eq_none]
      intro e he
      simpa using fresh q (by simp) e.1 e.2 (ExtTreeMap.mem_toList_iff_getElem?_eq_some.mp he)
    rw [List.foldl_append, ih fun p hp => fresh p (by simp [hp]), List.foldl_cons, List.foldl_nil]
    simp only [absent]

theorem Fitted.residual {running : Nat} (fitted : Fitted demand planned shortfalls) :
    Fitted demand (fitResidualCount planned constraints running).1
      (shortfalls ++ (fitResidualCount planned constraints running).2) := by
  unfold fitResidualCount
  split
  · simpa using fitted
  · rename_i maximum _
    have halves := List.take_append_drop (maximum - running) planned
    refine ⟨fun p hp => fitted.carries p (List.mem_of_mem_take hp), fun s hs => ?_,
      fun d hd => ?_⟩
    · obtain hs | hs := List.mem_append.mp hs
      · exact fitted.named s hs
      · obtain ⟨p, hp, hs⟩ := List.mem_flatMap.mp hs
        obtain ⟨x, hx, rfl⟩ := List.mem_map.mp hs
        obtain ⟨-, filter, -, covers⟩ := fitted.carries p (List.mem_of_mem_drop hp)
        obtain ⟨d, hd, eq, -⟩ := covers x (ExtTreeSet.mem_toList.mp hx)
        exact ⟨d, hd, eq⟩
    · obtain ⟨p, hp, hx⟩ | ⟨s, hs, eq⟩ := fitted.accounted d hd
      · rw [← halves, List.mem_append] at hp
        obtain kept | dropped := hp
        · exact .inl ⟨p, kept, hx⟩
        · refine .inr ⟨_, List.mem_append_right _ (List.mem_flatMap.mpr ⟨p, dropped,
            List.mem_map.mpr ⟨d.id, ExtTreeSet.mem_toList.mpr hx, rfl⟩⟩), rfl⟩
      · exact .inr ⟨s, List.mem_append_left _ hs, eq⟩

theorem fitResidualCount_sublist {running : Nat} :
    List.Sublist (fitResidualCount planned constraints running).1 planned := by
  unfold fitResidualCount
  split
  · exact .refl _
  · exact List.take_sublist _ _

theorem fitResidualCount_room {running maximum : Nat}
    (declared : constraints.maxSubscriptions = some maximum) :
    (fitResidualCount planned constraints running).1.length ≤ maximum - running := by
  simp only [fitResidualCount, declared, List.length_take]
  omega

end Fava.Subscriptions
