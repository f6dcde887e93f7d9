import Fava.Observe.Slot

namespace Fava.Observe.Holding

open Std Fava.Lib Fava.Nostr Fava.Subscriptions

variable {h : Holding} {baseline : InstalledSubscriptions} {plan : SubscriptionPlan}
  {opened : List (Option SubscriptionId)} {closed : List SubscriptionId} {id : SubscriptionId}
  {opens : List PlannedSubscription}

theorem mem_opening {planned : PlannedSubscription} :
    (id, planned) ∈ opening opens opened ↔ (planned, some id) ∈ opens.zip opened := by
  simp [opening]

/-- Every identifier the session gave belongs to a planned request. -/
theorem exists_opening (short : opened.length ≤ opens.length) (named : some id ∈ opened) :
    ∃ planned, (id, planned) ∈ opening opens opened := by
  obtain ⟨i, hi, at'⟩ := List.mem_iff_getElem.mp named
  refine ⟨opens[i], mem_opening.mpr (List.mem_iff_getElem.mpr ⟨i, ?_, ?_⟩)⟩
  · rw [List.length_zip]
    omega
  · rw [List.getElem_zip, at']

theorem opened_of_opening {planned : PlannedSubscription}
    (member : (id, planned) ∈ opening opens opened) : some id ∈ opened :=
  (List.of_mem_zip (mem_opening.mp member)).2

theorem opening_append {outcome : Option SubscriptionId} {planned : PlannedSubscription}
    (next : opens[opened.length]? = some planned) :
    opening opens (opened ++ [outcome]) =
      opening opens opened ++ (outcome.map (·, planned)).toList := by
  unfold opening
  induction opened generalizing opens with
  | nil =>
    cases opens with
    | nil => cases next
    | cons p opens =>
      obtain rfl : p = planned := by simpa using next
      cases outcome <;> simp
  | cons o opened ih =>
    cases opens with
    | nil => cases next
    | cons p opens =>
      have rest := ih (by simpa using next)
      cases o <;> simp [rest]

theorem mem_accepted (short : opened.length ≤ plan.opens.length) :
    id ∈ accepted baseline plan opened closed ↔
      some id ∈ opened ∨ id ∈ baseline ∧ id ∉ closed ∧ id ∈ plan.attribution := by
  rw [accepted, BTreeMap.mem_insertAll, or_comm]
  refine or_congr ⟨fun ⟨planned, member⟩ => opened_of_opening member, exists_opening short⟩ ?_
  simp only [ExtTreeMap.mem_iff_isSome_getElem?, ExtTreeMap.getElem?_filterMap']
  cases baseline[id]? with
  | none => simp
  | some current =>
    by_cases gone : id ∈ closed
    · simp [gone]
    · simp [gone]

theorem accepted_eq_some {entry : InstalledSubscription}
    (found : (accepted baseline plan opened closed)[id]? = some entry) :
    (∃ planned, (id, planned) ∈ opening plan.opens opened ∧
        entry = ⟨planned.filters, planned.serves⟩) ∨
      ∃ current, baseline[id]? = some current ∧ ∃ attributed : AttributedSubscription,
        plan.attribution[id]? = some attributed ∧
          entry = ⟨current.filters, attributed.serves⟩ := by
  obtain ⟨planned, member, rfl⟩ | ⟨kept, -⟩ := BTreeMap.insertAll_eq_some found
  · exact .inl ⟨planned, member, rfl⟩
  · rw [ExtTreeMap.getElem?_filterMap', Option.bind_eq_some_iff] at kept
    obtain ⟨current, here, kept⟩ := kept
    rw [Option.ite_none_left_eq_some, Option.map_eq_some_iff] at kept
    obtain ⟨-, attributed, held, rfl⟩ := kept
    exact .inr ⟨current, here, attributed, held, rfl⟩

theorem recordCompleteness_eq_some {a : AttributedSubscription}
    (found : plan.attribution[id]? = some a) :
    (h.recordCompleteness plan).completeness[id]? = some a.completeness := by
  have listed : (id, a) ∈ plan.attribution.toList :=
    ExtTreeMap.mem_toList_iff_getElem?_eq_some.mpr found
  have member : id ∈ (h.recordCompleteness plan).completeness :=
    BTreeMap.mem_insertAll.mpr (.inr ⟨a, listed⟩)
  obtain ⟨c, here⟩ := Option.isSome_iff_exists.mp (ExtTreeMap.mem_iff_isSome_getElem?.mp member)
  obtain ⟨b, hb, rfl⟩ | ⟨-, absent⟩ := BTreeMap.insertAll_eq_some here
  · rw [ExtTreeMap.mem_toList_iff_getElem?_eq_some, found, Option.some.injEq] at hb
    rw [here, hb]
  · exact (absent a listed).elim

theorem recordCompleteness_of_not_mem (absent : id ∉ plan.attribution) :
    (h.recordCompleteness plan).completeness[id]? = h.completeness[id]? := by
  apply BTreeMap.getElem?_insertAll_of_forall_not_mem
  intro a listed
  rw [ExtTreeMap.mem_toList_iff_getElem?_eq_some] at listed
  exact absent (ExtTreeMap.mem_iff_isSome_getElem?.mpr (by simp [listed]))

theorem recordInstalled_completeness
    (kept : id ∈ (h.recordInstalled plan opened closed).installed) :
    (h.recordInstalled plan opened closed).completeness[id]? = h.completeness[id]? := by
  change (ExtTreeMap.filter _ h.completeness)[id]? = _
  rw [ExtTreeMap.getElem?_filter']
  cases h.completeness[id]? with
  | none => rfl
  | some c =>
    simp only [Option.filter_some, ExtTreeMap.contains_iff_mem]
    exact if_pos kept

section Attend

variable {ids : List SubscriptionId} {token : Token}

/-- Before anything closes, the slot holds the tokens it had and those it was given. -/
theorem attending_opened
    (own : ∀ (id : SubscriptionId) (t : Token), h.attending[id]? = some t → t = ⟨h.generation, id⟩)
    (member : id ∈ ids ∨ id ∈ h.attending) :
    (h.attending.insertAll (Token.mk h.generation) (ids.map fun id => (id, id)))[id]? =
      some ⟨h.generation, id⟩ := by
  have held : id ∈ h.attending.insertAll (Token.mk h.generation) (ids.map fun id => (id, id)) := by
    rw [BTreeMap.mem_insertAll]
    obtain given | old := member
    · exact .inr ⟨id, List.mem_map.mpr ⟨id, given, rfl⟩⟩
    · exact .inl old
  obtain ⟨t, here⟩ := Option.isSome_iff_exists.mp (ExtTreeMap.mem_iff_isSome_getElem?.mp held)
  rw [here]
  obtain ⟨c, listed, rfl⟩ | ⟨old, -⟩ := BTreeMap.insertAll_eq_some here
  · obtain ⟨d, -, eq⟩ := List.mem_map.mp listed
    cases eq
    rfl
  · rw [own id t old]

theorem getElem?_eraseAll {tokens : BTreeMap SubscriptionId Token} :
    (closed.foldl (fun tokens id => tokens.erase id) tokens)[id]? =
      if id ∈ closed then none else tokens[id]? := by
  induction closed generalizing tokens with
  | nil => simp
  | cons c closed ih =>
    rw [List.foldl_cons, ih]
    by_cases gone : id ∈ closed
    · simp [gone]
    · by_cases same : c = id
      · simp [gone, same]
      · simp [gone, same, Ne.symm same, ExtTreeMap.getElem?_erase, LawfulEqCmp.compare_eq_iff_eq]

end Attend

section Attach

variable {installed widened : InstalledSubscriptions} {settled : BTreeMap SubscriptionId Bool}
  {demand : List RelayDemand} {d : RelayDemand}

/-- Only the demand that subscriptions serve has grown. -/
structure Widens (installed widened : InstalledSubscriptions) : Prop where
  filters : widened.map (fun _ e => e.filters) = installed.map (fun _ e => e.filters)
  serves : ∀ (id : SubscriptionId) (e : InstalledSubscription), installed[id]? = some e →
    ∃ e', widened[id]? = some e' ∧ ∀ x ∈ e.serves, x ∈ e'.serves

theorem Widens.filters_eq (widens : Widens installed widened) (id : SubscriptionId) :
    widened[id]?.map (·.filters) = installed[id]?.map (·.filters) := by
  have same := congrArg (·[id]?) widens.filters
  simpa using same

theorem Widens.mem_iff (widens : Widens installed widened) : id ∈ widened ↔ id ∈ installed := by
  have same := congrArg Option.isSome (widens.filters_eq id)
  rw [Option.isSome_map, Option.isSome_map] at same
  rw [ExtTreeMap.mem_iff_isSome_getElem?, ExtTreeMap.mem_iff_isSome_getElem?, same]

theorem Widens.trans {wider : InstalledSubscriptions} (first : Widens installed widened)
    (second : Widens widened wider) : Widens installed wider where
  filters := second.filters.trans first.filters
  serves id e here := by
    obtain ⟨e', here', sub⟩ := first.serves id e here
    obtain ⟨e'', here'', sub'⟩ := second.serves id e' here'
    exact ⟨e'', here'', fun x hx => sub' x (sub x hx)⟩

theorem widens_refl : Widens installed installed := ⟨rfl, fun _ e here => ⟨e, here, fun _ h => h⟩⟩

theorem widens_modify {x : DemandId} : Widens installed
    (installed.modify id fun entry => { entry with serves := entry.serves.insert x }) where
  filters := by
    apply ExtTreeMap.ext_getElem?
    intro other
    rw [ExtTreeMap.getElem?_map, ExtTreeMap.getElem?_map, ExtTreeMap.getElem?_modify]
    split
    · rename_i same
      obtain rfl := LawfulEqCmp.compare_eq_iff_eq.mp same
      rw [Option.map_map]
      rfl
    · rfl
  serves other e here := by
    rw [ExtTreeMap.getElem?_modify]
    split
    · rename_i same
      obtain rfl := LawfulEqCmp.compare_eq_iff_eq.mp same
      rw [here]
      exact ⟨_, rfl, fun y hy => BTreeSet.mem_insert.mpr (.inr hy)⟩
    · exact ⟨e, here, fun _ hy => hy⟩

/-- The first covering request is told by the filters alone. -/
theorem first_covering : (installed.toList.find? fun e => e.2.filters.any (filterCovers · d.filter)).map
      Prod.fst = ((installed.map fun _ e => e.filters).toList.find? fun e =>
        e.2.any (filterCovers · d.filter)).map Prod.fst := by
  rw [ExtTreeMap.toList_map, List.find?_map, Option.map_map]
  rfl

theorem mem_of_joins (joined : joins installed d = some id) : id ∈ installed := by
  unfold joins at joined
  rw [Option.ite_none_left_eq_some, Option.map_eq_some_iff] at joined
  obtain ⟨-, e, found, rfl⟩ := joined
  rw [ExtTreeMap.mem_iff_isSome_getElem?]
  exact Option.isSome_of_eq_some (BTreeMap.find_of_first found)

/-- Demand that joins after others did would have joined the same request before. -/
theorem Widens.joins (widens : Widens installed widened) (joined : joins widened d = some id) :
    joins installed d = some id := by
  unfold Holding.joins at joined ⊢
  rw [Option.ite_none_left_eq_some] at joined ⊢
  refine ⟨fun served => joined.1 ?_, ?_⟩
  · obtain ⟨e, he, holds⟩ := List.any_eq_true.mp served
    obtain ⟨e', here', sub⟩ := widens.serves e.1 e.2
      (ExtTreeMap.mem_toList_iff_getElem?_eq_some.mp he)
    exact List.any_eq_true.mpr ⟨(e.1, e'), ExtTreeMap.mem_toList_iff_getElem?_eq_some.mpr here',
      ExtTreeSet.contains_iff_mem.mpr (sub _ (ExtTreeSet.contains_iff_mem.mp holds))⟩
  · rw [first_covering, ← widens.filters, ← first_covering]
    exact joined.2

/-- Attaching keeps every request as it is on the wire; whoever is credited joined a
request whose stored replay had ended. -/
theorem attach_spec : Widens installed (attach settled installed demand).1 ∧
    ∀ c ∈ (attach settled installed demand).2, settled[c.1]? = some true ∧
      ∃ d ∈ demand, joins installed d = some c.1 := by
  unfold attach
  induction demand using List.reverseRecOn with
  | nil => exact ⟨widens_refl, by simp⟩
  | append_singleton demand item ih =>
    rw [List.foldl_append, List.foldl_cons, List.foldl_nil]
    split
    rename_i before credited eq
    rw [eq] at ih
    obtain ⟨widens, earlier⟩ := ih
    have kept : ∀ c ∈ credited, settled[c.1]? = some true ∧
        ∃ d ∈ demand ++ [item], Holding.joins installed d = some c.1 := by
      intro c hc
      obtain ⟨ended, d, hd, joined⟩ := earlier c hc
      exact ⟨ended, d, by simp [hd], joined⟩
    split
    · exact ⟨widens, kept⟩
    · rename_i id joined
      refine ⟨widens.trans widens_modify, ?_⟩
      dsimp only
      split
      · rename_i ended
        intro c hc
        obtain hc | hc := List.mem_append.mp hc
        · exact kept c hc
        · rw [List.mem_singleton.mp hc]
          refine ⟨?_, item, by simp, widens.joins joined⟩
          cases found : settled[id]? with
          | none => simp [found] at ended
          | some b => simpa [found] using ended
      · exact kept

/-- What a request serves after demand was attached: what it served, and the demand that
joined it. -/
theorem attach_serves {x : DemandId} : ∀ entry : InstalledSubscription,
    (attach settled installed demand).1[id]? = some entry → x ∈ entry.serves →
      (∃ before, installed[id]? = some before ∧ x ∈ before.serves) ∨
        ∃ d ∈ demand, d.id = x ∧ Holding.joins installed d = some id := by
  unfold attach
  induction demand using List.reverseRecOn with
  | nil => exact fun entry here served => .inl ⟨entry, here, served⟩
  | append_singleton demand item ih =>
    have wider : Widens installed (attach settled installed demand).1 := attach_spec.1
    unfold attach at wider
    rw [List.foldl_append, List.foldl_cons, List.foldl_nil]
    split
    rename_i before credited eq
    rw [eq] at ih wider
    have earlier : ∀ entry : InstalledSubscription, before[id]? = some entry → x ∈ entry.serves →
        (∃ before, installed[id]? = some before ∧ x ∈ before.serves) ∨
          ∃ d ∈ demand ++ [item], d.id = x ∧ Holding.joins installed d = some id := by
      intro entry found inside
      obtain old | ⟨d, hd, joined⟩ := ih entry found inside
      · exact .inl old
      · exact .inr ⟨d, by simp [hd], joined⟩
    split
    · exact earlier
    · rename_i host joined
      intro entry here served
      dsimp only at here
      rw [ExtTreeMap.getElem?_modify] at here
      split at here
      · rename_i same
        obtain rfl := LawfulEqCmp.compare_eq_iff_eq.mp same
        obtain ⟨current, found, rfl⟩ := Option.map_eq_some_iff.mp here
        obtain rfl | inside := BTreeSet.mem_insert.mp served
        · exact .inr ⟨item, by simp, rfl, wider.joins joined⟩
        · exact earlier current found inside
      · exact earlier entry here served

end Attach

end Fava.Observe.Holding
