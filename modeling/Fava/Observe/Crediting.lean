import Fava.Observe.Attribution
import Fava.Observe.Completeness
import Fava.Observe.Slots

namespace Fava.Observe

open Std Fava.Lib Fava.Nostr Fava.Relay Fava.Subscriptions

namespace Holding

variable {installed : InstalledSubscriptions} {settled : BTreeMap SubscriptionId Bool}
  {demand : List RelayDemand} {d item : RelayDemand} {id : SubscriptionId}

/-- The demand joins the subscription, and nothing of its identity joined one before. -/
def JoinsFirst (installed : InstalledSubscriptions) (demand : List RelayDemand) (d : RelayDemand)
    (id : SubscriptionId) : Prop :=
  ∃ before after, demand = before ++ d :: after ∧ joins installed d = some id ∧
    ∀ earlier ∈ before, earlier.id = d.id → joins installed earlier = none

theorem not_joinsFirst_nil : ¬JoinsFirst installed [] d id := by
  rintro ⟨before, after, split, -⟩
  simp at split

/-- What comes last joins if its identity has not joined yet. -/
theorem joinsFirst_append : JoinsFirst installed (demand ++ [item]) d id ↔
    JoinsFirst installed demand d id ∨ d = item ∧ joins installed item = some id ∧
      ∀ earlier ∈ demand, earlier.id = item.id → joins installed earlier = none := by
  constructor
  · rintro ⟨before, after, split, joined, fresh⟩
    obtain rfl | ⟨middle, last, rfl⟩ := after.eq_nil_or_concat
    · obtain ⟨rfl, same⟩ := List.append_inj' split rfl
      obtain rfl := (List.cons.inj same).1
      exact .inr ⟨rfl, joined, fresh⟩
    · rw [List.concat_eq_append, ← List.cons_append, ← List.append_assoc] at split
      exact .inl ⟨before, middle, (List.append_inj' split rfl).1, joined, fresh⟩
  · rintro (⟨before, after, rfl, joined, fresh⟩ | ⟨rfl, joined, fresh⟩)
    · exact ⟨before, after ++ [item], by simp, joined, fresh⟩
    · exact ⟨demand, [], rfl, joined, fresh⟩

/-- Who joins a running subscription is served by it, and nobody else is told apart. -/
theorem joins_modify (here : id ∈ installed) :
    joins (installed.modify id fun entry => { entry with serves := entry.serves.insert item.id }) d =
      if item.id = d.id then none else joins installed d := by
  have widens : Widens installed
      (installed.modify id fun entry => { entry with serves := entry.serves.insert item.id }) :=
    widens_modify
  have served : (installed.modify id fun entry =>
      { entry with serves := entry.serves.insert item.id }).toList.any (·.2.serves.contains d.id) = true ↔
      item.id = d.id ∨ installed.toList.any (·.2.serves.contains d.id) = true := by
    simp only [List.any_eq_true, Prod.exists, ExtTreeMap.mem_toList_iff_getElem?_eq_some,
      ExtTreeSet.contains_iff_mem]
    constructor
    · rintro ⟨other, entry, found, holds⟩
      rw [BTreeMap.find_modify] at found
      split at found
      · rename_i same
        subst same
        obtain ⟨before, there, rfl⟩ := Option.map_eq_some_iff.mp found
        obtain same | old := BTreeSet.mem_insert.mp holds
        · exact .inl same.symm
        · exact .inr ⟨_, before, there, old⟩
      · exact .inr ⟨other, entry, found, holds⟩
    · rintro (same | ⟨other, entry, found, holds⟩)
      · obtain ⟨entry, found⟩ := Option.isSome_iff_exists.mp
          (ExtTreeMap.mem_iff_isSome_getElem?.mp here)
        refine ⟨id, { entry with serves := entry.serves.insert item.id }, ?_, ?_⟩
        · rw [BTreeMap.find_modify, if_pos rfl, found]
          rfl
        · exact BTreeSet.mem_insert.mpr (.inl same.symm)
      · obtain ⟨wider, found', kept⟩ := widens.serves other entry found
        exact ⟨other, wider, found', kept _ holds⟩
  unfold joins
  rw [first_covering, widens.filters, ← first_covering]
  by_cases same : item.id = d.id
  · rw [if_pos same, if_pos (served.mpr (.inl same))]
  · rw [if_neg same]
    exact if_congr (served.trans (or_iff_right same)) rfl rfl

/-- Attaching takes the demand in order. -/
theorem attach_append : attach settled installed (demand ++ [item]) =
    match joins (attach settled installed demand).1 item with
    | none => attach settled installed demand
    | some host =>
      ((attach settled installed demand).1.modify host fun entry =>
          { entry with serves := entry.serves.insert item.id },
        if settled[host]?.getD false then
          (attach settled installed demand).2 ++ [(host, item.owner)]
        else (attach settled installed demand).2) := by
  unfold attach
  rw [List.foldl_append]
  rfl

/-- After demand was attached, the same subscriptions take what nothing of its identity
joined. -/
theorem joins_attach : joins (attach settled installed demand).1 d = some id ↔
    joins installed d = some id ∧
      ∀ earlier ∈ demand, earlier.id = d.id → joins installed earlier = none := by
  induction demand using List.reverseRecOn generalizing d id with
  | nil => exact ⟨fun joined => ⟨joined, nofun⟩, fun both => both.1⟩
  | append_singleton demand item ih =>
    rw [attach_append]
    have last : (∀ earlier ∈ demand ++ [item], earlier.id = d.id → joins installed earlier = none) ↔
        (∀ earlier ∈ demand, earlier.id = d.id → joins installed earlier = none) ∧
          (item.id = d.id → joins installed item = none) := by
      simp [or_imp, forall_and]
    rw [last, ← and_assoc, ← ih]
    cases hosted : joins (attach settled installed demand).1 item with
    | none =>
      refine (and_iff_left_of_imp fun joined same => ?_).symm
      by_contra could
      obtain ⟨host, could⟩ := Option.ne_none_iff_exists'.mp could
      have fresh := (ih.mp joined).2
      rw [← same] at fresh
      rw [ih.mpr ⟨could, fresh⟩] at hosted
      cases hosted
    | some host =>
      dsimp only
      rw [joins_modify (mem_of_joins hosted)]
      by_cases same : item.id = d.id
      · rw [if_pos same, (ih.mp hosted).1]
        exact iff_of_false nofun fun both => by cases both.2 same
      · rw [if_neg same]
        exact (and_iff_left fun equal => (same equal).elim).symm

/-- Whoever joins first of its identity is credited, if the stored replay has ended. -/
theorem mem_credited {c : SubscriptionId × ObservationId} :
    c ∈ (attach settled installed demand).2 ↔
      settled[c.1]? = some true ∧ ∃ d, d.owner = c.2 ∧ JoinsFirst installed demand d c.1 := by
  induction demand using List.reverseRecOn with
  | nil => exact iff_of_false List.not_mem_nil fun ⟨_, _, _, first⟩ => not_joinsFirst_nil first
  | append_singleton demand item ih =>
    rw [attach_append]
    simp only [joinsFirst_append, and_or_left, exists_or]
    rw [← ih]
    have joined : (∃ d, d.owner = c.2 ∧ d = item ∧ joins installed item = some c.1 ∧
        ∀ earlier ∈ demand, earlier.id = item.id → joins installed earlier = none) ↔
        item.owner = c.2 ∧ joins (attach settled installed demand).1 item = some c.1 := by
      rw [joins_attach]
      exact ⟨fun ⟨_, owner, same, rest⟩ => ⟨same ▸ owner, rest⟩, fun both => ⟨item, both.1, rfl, both.2⟩⟩
    rw [joined]
    cases hosted : joins (attach settled installed demand).1 item with
    | none => simp
    | some host =>
      have ended : settled[host]?.getD false = true ↔ settled[host]? = some true := by
        cases settled[host]? <;> simp
      dsimp only
      split
      · rename_i gone
        rw [List.mem_append, List.mem_singleton]
        refine or_congr_right ⟨?_, ?_⟩
        · rintro rfl
          exact ⟨ended.mp gone, rfl, rfl⟩
        · rintro ⟨-, owner, same⟩
          obtain rfl := Option.some.inj same
          rw [owner]
      · rename_i open'
        refine (or_iff_left ?_).symm
        rintro ⟨gone, -, same⟩
        obtain rfl := Option.some.inj same
        exact open' (ended.mpr gone)

end Holding

/-- The owner has processed the end of the subscription's stored events. -/
def Ended (P : Providers) (acts : List Action) (relay : RelayUrl) (token : Token) : Prop :=
  ∃ before a after e, acts = before ++ a :: after ∧ Run (step P) Free .start before e ∧
    e.carrying a = some (relay, token, .endOfStoredEvents)

variable {P : Providers} {acts : List Action} {e e' : Engine} {a : Action} {relay : RelayUrl}
  {generation : Round} {s s' : Slot}

theorem Ended.snoc {token : Token} (ended : Ended P acts relay token) :
    Ended P (acts ++ [a]) relay token := by
  obtain ⟨before, first, after, e, rfl, run, carrying⟩ := ended
  exact ⟨before, first, after ++ [a], e, by simp, run, carrying⟩

theorem Engine.carrying_of_receiving {id : SubscriptionId} {item : Item}
    (received : e.receiving a = some (.carried relay generation id item)) :
    e.carrying a = some (relay, ⟨generation, id⟩, item) := by
  obtain ⟨rfl, rest, inbox⟩ := receiving_eq_some.mp received
  unfold carrying
  dsimp only
  rw [inbox]

/-- A subscription settles by the end of its stored events, and by nothing else. -/
theorem SlotChange.settled {id : SubscriptionId} (change : SlotChange P e a e' s s')
    (after : s'.settled[id]? = some true) :
    s'.relay = s.relay ∧ s'.generation = s.generation ∧ (s.settled[id]? = some true ∨
      e.receiving a = some (.carried s.relay s.generation id .endOfStoredEvents)) := by
  have rebased : ∀ {t : Slot} {holding : Holding}, (t.rebase holding).settled[id]? = some true →
      t.settled[id]? = some true := by
    intro t holding found
    rw [Slot.rebase, ExtTreeMap.getElem?_filter'] at found
    exact (Option.filter_eq_some_iff.mp found).1
  cases change with
  | settle other received =>
    refine ⟨rfl, rfl, ?_⟩
    change (s.settled.insert other true)[id]? = some true at after
    rw [BTreeMap.find_insert] at after
    split at after
    · rename_i same
      subst same
      exact .inr received
    · exact .inl after
  | limit | join | idle | wait | spent | unplanned | install | acquire => exact ⟨rfl, rfl, .inl after⟩
  | retain => exact ⟨rfl, rfl, .inl (rebased after)⟩
  | record => exact ⟨rfl, rfl, .inl (rebased after)⟩
  | refuse | reconnect =>
    have none : (∅ : BTreeMap SubscriptionId Bool)[id]? = some true := after
    rw [ExtTreeMap.getElem?_empty] at none
    cases none

/-- Whatever has settled on a slot was carried to its end before. -/
theorem settled_ended (run : Run (step P) Free .start acts e) : ∀ s ∈ e.slots,
    ∀ id : SubscriptionId, s.settled[id]? = some true → Ended P acts s.relay ⟨s.generation, id⟩ := by
  induction run with
  | nil =>
    intro s hs
    cases hs
  | @snoc acts e e' a run _ stepped ih =>
    intro s' hs' id settled
    have sound : Sound e.core := run_sound run
    obtain old | ⟨s, hs, change⟩ | ⟨relay, authority, g, -, rfl⟩ := (step_slots sound stepped).origin hs'
    · exact (ih s' old id settled).snoc
    · obtain ⟨sameRelay, sameGeneration, before | received⟩ := change.settled settled
      · rw [sameRelay, sameGeneration]
        exact (ih s hs id before).snoc
      · rw [sameRelay, sameGeneration]
        exact ⟨acts, a, [], e, rfl, run, Engine.carrying_of_receiving received⟩
    · change (∅ : BTreeMap SubscriptionId Bool)[id]? = some true at settled
      rw [ExtTreeMap.getElem?_empty] at settled
      cases settled

/-- What the session records says that the end of the subscription's stored events proves
its window complete. -/
def Slot.Complete (s : Slot) (id : SubscriptionId) : Prop := s.provesCompleteness id = .proven

/-- None of the subscription's filters has a limit. -/
def Slot.Unlimited (s : Slot) (id : SubscriptionId) : Prop :=
  ∀ entry, s.installed[id]? = some entry → ∀ f ∈ entry.filters, f.limit = none

/-- The claim is made of a subscription of the slot that was carried to its end and is
recorded as complete, and demand without a limit gets it of no subscription with one. -/
structure Proper (P : Providers) (acts : List Action) (s : Slot) (demand : List RelayDemand)
    (c : Claim) : Prop where
  generation : c.generation = s.generation
  ended : Ended P acts s.relay c.token
  settled : s.settled[c.subscription]? = some true
  complete : s.Complete c.subscription
  unlimited : ∀ d, Holding.JoinsFirst s.installed demand d c.subscription → d.owner = c.owner →
    d.filter.limit = none → s.Unlimited c.subscription

/-- Demand joins a subscription whose stored replay has ended only if it is recorded as
complete, and, if the demand has no limit, only if it has none either. -/
def JoinsComplete (s : Slot) (demand : List RelayDemand) : Prop :=
  ∀ d id, Holding.JoinsFirst s.installed demand d id → s.settled[id]? = some true →
    s.Complete id ∧ (d.filter.limit = none → s.Unlimited id)

/-- What attaching claims. -/
theorem Engine.claims_visitSlot (found : e.slot relay generation = some s) :
    (e.visitSlot relay generation).claims = e.claims ++ (Holding.attach s.settled s.installed
      (e.demandForSlot relay generation)).2.map fun (id, owner) => ⟨generation, id, owner⟩ := by
  unfold visitSlot
  dsimp only
  split
  · rename_i unwanted
    rw [List.isEmpty_iff.mp unwanted]
    rw [show (e.releaseSlot relay generation).claims = e.claims from congrArg Prod.snd told_releaseSlot]
    exact (List.append_nil _).symm
  · rw [found]
    dsimp only
    split
    · rfl
    · split <;> rfl

theorem Engine.visitSlot_of_visiting (visiting : e.visiting a = some (relay, generation))
    (stepped : step P e a = some e') :
    ∃ rest, e' = { e with todo := rest }.visitSlot relay generation := by
  cases Stepped.of_step stepped with
  | @visitSlot _ _ rest todo =>
    rw [Engine.visiting, todo] at visiting
    cases visiting
    exact ⟨rest, rfl⟩
  | visitRelay todo | flush todo =>
    rw [Engine.visiting, todo] at visiting
    cases visiting
  | _ => cases visiting

/-- In every run, what attaching credits is of subscriptions that were carried to their end
and are recorded as complete, exactly if demand joins no other that has settled. -/
theorem credits_proper_iff (run : Run (step P) Free .start acts e)
    (visiting : e.visiting a = some (relay, generation)) (found : e.slot relay generation = some s)
    (stepped : step P e a = some e') :
    (∀ c ∈ e'.claims.drop e.claims.length, Proper P acts s (e.demandForSlot relay generation) c) ↔
      JoinsComplete s (e.demandForSlot relay generation) := by
  obtain ⟨rest, rfl⟩ := Engine.visitSlot_of_visiting visiting stepped
  have claimed := Engine.claims_visitSlot (e := { e with todo := rest }) found
  change _ = e.claims ++ (Holding.attach s.settled s.installed (e.demandForSlot relay generation)).2.map
    _ at claimed
  rw [claimed, List.drop_left]
  obtain ⟨rfl, rfl, -, before, after, split, -⟩ := Engine.slots_split found
  have here : s ∈ e.slots := by simp [split]
  simp only [List.forall_mem_map, Holding.mem_credited]
  constructor
  · intro proper d id joined settled
    obtain ⟨-, -, -, complete, unlimited⟩ := proper (id, d.owner) ⟨settled, d, rfl, joined⟩
    exact ⟨complete, unlimited d joined rfl⟩
  · rintro complete ⟨id, owner⟩ ⟨settled, d, rfl, joined⟩
    exact ⟨rfl, settled_ended run s here id settled, settled, (complete d id joined settled).1,
      fun other joins _ => (complete other id joins settled).2⟩

section Joiners

def hundredFor (owner : ObservationId) : Observation :=
  ⟨owner, .unauthenticated, true, [⟨"wss://relay", { hundred with owner := owner }, false⟩]⟩

/-- The first subscription has a limit and has ended; a second plan retains it, and a third
observation asks for what it carries. -/
def joinLimited : List Action :=
  endLimited ++ [.observe [hundredFor 1, observes 2], .wake, .reconcile, .visit, .visit, .elapse 2,
    .receive, .subscribe 0 (some 2), .finish 0, .receive,
    .observe [hundredFor 1, observes 2, hundredFor 3], .wake, .reconcile, .visit]

/-- The joiner is credited with completeness that the slot records as missing. -/
theorem joiner_credited_with_limit : ∃ e e' s, Run (step limitProviders) Free .start joinLimited e ∧
    e.visiting .visit = some ("wss://relay", 1) ∧ e.slot "wss://relay" 1 = some s ∧
      step limitProviders e .visit = some e' ∧
      ¬∀ c ∈ e'.claims.drop e.claims.length,
        Proper limitProviders joinLimited s (e.demandForSlot "wss://relay" 1) c := by
  obtain ⟨e, run, checked⟩ := Run.of_any (show (exec (step limitProviders) Free .start
    joinLimited).any (fun e => decide (e.visiting .visit = some ("wss://relay", 1)) &&
      (e.slot "wss://relay" 1).any fun s => (step limitProviders e .visit).any fun e' =>
        (e'.claims.drop e.claims.length).any fun c =>
          decide (s.provesCompleteness c.subscription ≠ .proven)) = true by decide +kernel)
  rw [Bool.and_eq_true, decide_eq_true_eq] at checked
  obtain ⟨visiting, checked⟩ := checked
  obtain ⟨s, found, checked⟩ := (Option.any_eq_true _ _).mp checked
  obtain ⟨e', stepped, checked⟩ := (Option.any_eq_true _ _).mp checked
  obtain ⟨c, hc, limited⟩ := List.any_eq_true.mp checked
  exact ⟨e, e', s, run, visiting, found, stepped,
    fun proper => of_decide_eq_true limited (proper c hc).complete⟩

/-- A joiner of the first subscription, which has no limit and has ended. -/
def joinUnlimited : List Action :=
  openFirst ++ [.carry 0 .endOfStoredEvents, .receive, .observe [observes 1, observesAs 3 1], .wake,
    .reconcile, .visit]

theorem joiner_credited_in_full : ∃ (e e' : Engine) (s : Slot), Run (step kindProviders) Free .start joinUnlimited e ∧
    e.claims.length < e'.claims.length ∧
    ((∀ c ∈ e'.claims.drop e.claims.length,
        Proper kindProviders joinUnlimited s (e.demandForSlot "wss://relay" 1) c) ↔
      JoinsComplete s (e.demandForSlot "wss://relay" 1)) := by
  obtain ⟨e, run, checked⟩ := Run.of_any (show (exec (step kindProviders) Free .start
    joinUnlimited).any (fun e => decide (e.visiting .visit = some ("wss://relay", 1)) &&
      (e.slot "wss://relay" 1).any fun _ => (step kindProviders e .visit).any fun e' =>
        decide (e.claims.length < e'.claims.length)) = true by decide +kernel)
  rw [Bool.and_eq_true, decide_eq_true_eq] at checked
  obtain ⟨visiting, checked⟩ := checked
  obtain ⟨s, found, checked⟩ := (Option.any_eq_true _ _).mp checked
  obtain ⟨e', stepped, more⟩ := (Option.any_eq_true _ _).mp checked
  exact ⟨e, e', s, run, of_decide_eq_true more, credits_proper_iff run visiting found stepped⟩

end Joiners

end Fava.Observe
