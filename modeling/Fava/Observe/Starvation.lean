import Fava.Observe.Assignment
import Fava.Observe.Reports

namespace Fava.Observe

open Std Fava.Lib Fava.Nostr Fava.Relay Fava.Subscriptions

open Evidence.State (Op)

/-- The call tells an observation that its demand at a relay fell short or was refused. -/
def Evidence.State.Op.fallsShort (relay : RelayUrl) (d : RelayDemand) : Op → Bool
  | .recordSharing id session _ _ (some short) =>
    id = d.owner && session = relay && short.branches.contains d.branch
  | .recordState id session _ (.refused _ _) | .recordState id session _ (.ownerRefused _) =>
    id = d.owner && session = relay
  | _ => false

/-- The engine with the calls of the registry its owner has made so far. -/
structure Told where
  engine : Engine
  calls : List Op

namespace Told

def start : Told := ⟨.start, []⟩

/-- A step, at the time it is taken and with the detail a refused connection comes with. -/
def step (P : Providers) (t : Told) (x : Action × Timestamp × BoundedText) : Option Told :=
  (Observe.step P t.engine x.1).map fun e =>
    ⟨e, t.calls ++ t.engine.writes P e x.1 x.2.1 x.2.2⟩

def published (t : Told) (relay : RelayUrl) (d : RelayDemand) : Bool :=
  t.calls.any (·.fallsShort relay d)

end Told

/-- Demand of a connected slot is carried, waits for a plan, or was refused to its
observation. -/
def NoneStarves (t : Told) : Prop :=
  ∀ s ∈ t.engine.slots, s.session.isSome = true →
    ∀ d ∈ t.engine.demandForSlot s.relay s.generation,
      s.covers d = true ∨ s.armed = true ∨ t.engine.current s ≠ [] ∨ t.published s.relay d = true

/-- The plan says of the demand where it is served, or why it is not. -/
def accounts (plan : SubscriptionPlan) (d : DemandId) : Bool :=
  decide (d ∈ plan.shortfalls.map SubscriptionShortfall.demand ++ servedBy plan)

/-- What becomes of the demand once the installation is recorded: the plan fell short of
it, or a request that it retained or that the session opened carries it. -/
def Installing.settles (done : Installing) (installed : InstalledSubscriptions) (d : RelayDemand) :
    Bool :=
  done.plan.shortfalls.any (fun x => x.demand = d.id) ||
    (installed.toList.any fun e => done.plan.attribution[e.1]?.any fun attributed =>
      attributed.serves.contains d.id || e.2.filters.any (filterCovers · d.filter)) ||
    (Holding.opening done.plan.opens done.opened).any fun e =>
      e.2.serves.contains d.id || e.2.filters.any (filterCovers · d.filter)

namespace Engine

/-- The installation whose report the step records. -/
def recording (e : Engine) (a : Action) : Option Installing := (e.receiving a).bind Report.done

/-- The engine as a step leaves it that moves demand between slots without a pass. -/
def handed (e : Engine) (a : Action) : Engine :=
  match a, e.receiving a with
  | .revive registry, _ => { e with registry := registry }
  | .authenticate session authentication, _ =>
    { e with connections := Function.update e.connections session authentication }
  | _, some (.acquired relay generation session) =>
    e.withSlot relay generation fun s => { s with session := some session }
  | _, _ => e

end Engine

/-- The planner answers a slot that has demand to place with a plan that conforms. -/
abbrev Answers (P : Providers) (e : Engine) (a : Action) : Prop :=
  ∀ x ∈ e.flushing a, ∀ s ∈ e.slot x.1 x.2, s.session.isSome = true →
    s.uncovered (e.demandForSlot x.1 x.2) ≠ [] → (allocate e.revisions).isSome = true →
      ((e.answer P s).any fun plan => decide (validatePlan x.1 (e.demandForSlot x.1 x.2)
        s.constraints s.installed plan = .ok ())) = true

/-- What a slot carries, and what the plan accounts for, is carried after its report. -/
abbrev Settles (e : Engine) (a : Action) : Prop :=
  ∀ done ∈ e.recording a, ∀ s ∈ e.slot done.relay done.generation,
    s.revision = some done.revision → s.armed = false →
      ∀ d ∈ e.demandForSlot done.relay done.generation,
        accounts done.plan d.id = true ∨ s.covers d = true → done.settles s.installed d = true

/-- A step that hands demand to a connected slot hands it what it carries or will plan. -/
abbrev Hands (e : Engine) (a : Action) : Prop :=
  ∀ s ∈ e.slots, s.session.isSome = true → s.armed = false →
    ∀ d ∈ (e.handed a).demandForSlot s.relay s.generation,
      d ∈ e.demandForSlot s.relay s.generation ∨ s.covers d = true

/-- Unless a pass is due, the step leaves no demand behind. -/
def Feeds (P : Providers) (t : Told) (x : Action × Timestamp × BoundedText) : Prop :=
  t.engine.changed = true ∨ t.engine.dirty = true ∨
    Answers P t.engine x.1 ∧ Settles t.engine x.1 ∧ Hands t.engine x.1

set_option synthInstance.maxSize 1024 in
instance (P : Providers) (t : Told) (x : Action × Timestamp × BoundedText) :
    Decidable (Feeds P t x) :=
  inferInstanceAs (Decidable (t.engine.changed = true ∨ t.engine.dirty = true ∨
    Answers P t.engine x.1 ∧ Settles t.engine x.1 ∧ Hands t.engine x.1))

variable {P : Providers} {e e' : Engine} {a : Action} {relay : RelayUrl} {authority : Authority}
  {s s' : Slot} {d : RelayDemand}

section Working

theorem working_of_opening {x : RelayUrl × List (RelayDemand × Authority)}
    (opened : e.opening a = some x) : e.visiting a = none ∧ e.flushing a = none := by
  cases a with
  | visit =>
    unfold Engine.opening at opened
    dsimp only at opened
    split at opened
    · rename_i todo
      rw [Engine.visiting, Engine.flushing, todo]
      exact ⟨rfl, rfl⟩
    · cases opened
  | _ => cases opened

/-- A step that changes a slot works on it, or processes a report that says how. -/
theorem SlotChange.works (change : SlotChange P e a e' s s') :
    e.visiting a = some (s.relay, s.generation) ∨ e.flushing a = some (s.relay, s.generation) ∨
      e.visiting a = none ∧ e.flushing a = none := by
  cases change with
  | join armed visited => exact .inl visited
  | idle flushed | wait flushed | spent flushed | unplanned flushed | retain flushed
  | install flushed => exact .inr (.inl flushed)
  | settle id received | limit constraints received | record received | acquire session received
  | refuse received | reconnect armed received =>
    exact .inr (.inr (Engine.working_of_received received (by simp)))

/-- The slot a step works on is changed by it. -/
theorem change_of_working (sound : Sound e.core) (stepped : step P e a = some e') (hs : s ∈ e.slots)
    (hs' : s' ∈ e'.slots) (generation : s'.generation = s.generation)
    (working : e.visiting a = some (s.relay, s.generation) ∨
      e.flushing a = some (s.relay, s.generation)) : SlotChange P e a e' s s' := by
  have busy : ¬(e.visiting a = none ∧ e.flushing a = none) := by
    rintro ⟨unvisited, unflushed⟩
    rw [unvisited, unflushed] at working
    obtain is | is := working <;> cases is
  cases step_slots sound stepped with
  | same _ absent =>
    have gone := absent (s.relay, s.generation) working
    rw [Engine.slot_eq_some sound hs] at gone
    cases gone
  | vacate is _ =>
    subst is
    exact (busy ⟨rfl, rfl⟩).elim
  | @release before after t at' visited _ slots =>
    obtain visited' | flushed := working
    · rw [visited, Option.some.injEq, Prod.mk.injEq] at visited'
      rw [slots] at hs'
      exact (other_generation sound at' hs' (generation.trans visited'.2.symm)).elim
    · rw [Engine.flushing_of_visiting visited] at flushed
      cases flushed
  | establish opened => exact (busy (working_of_opening opened)).elim
  | @change before after t t' at' change slots =>
    have same : t.generation = s.generation := by
      obtain visited | flushed | idle := change.works
      · obtain visited' | flushed' := working
        · rw [visited, Option.some.injEq, Prod.mk.injEq] at visited'
          exact visited'.2
        · rw [Engine.flushing_of_visiting visited] at flushed'
          cases flushed'
      · obtain visited' | flushed' := working
        · rw [Engine.flushing_of_visiting visited'] at flushed
          cases flushed
        · rw [flushed, Option.some.injEq, Prod.mk.injEq] at flushed'
          exact flushed'.2
      · exact (busy idle).elim
    have there : t ∈ e.slots := by simp [at']
    obtain rfl := slot_unique sound there hs same
    rw [slots, List.mem_append, List.mem_cons, or_left_comm, ← List.mem_append] at hs'
    obtain rfl | elsewhere := hs'
    · exact change
    · exact (other_generation sound at' elsewhere generation).elim

end Working

section Handed

theorem mem_demandForSlot_of_route {generation : Round} (authority : Authority)
    (found : e.slot relay generation = some s)
    (desired : (d, authority) ∈ e.registry.desired relay)
    (routed : e.route relay authority = some generation) : d ∈ e.demandForSlot relay generation := by
  rw [Engine.demandForSlot, found]
  refine List.mem_map.mpr ⟨(d, authority), List.mem_filter.mpr ⟨desired, ?_⟩, rfl⟩
  obtain ⟨t, first, same⟩ := Option.map_eq_some_iff.mp routed
  dsimp only
  rw [first, Option.any_some, Bool.or_eq_true, decide_eq_true_eq]
  exact .inr same

theorem slot_withSlot {generation : Round} {change : Slot → Slot}
    (kept : ∀ r g s, Engine.isSlot r g (change s) = Engine.isSlot r g s)
    (there : (e.slot s.relay s.generation).isSome = true) :
    ((e.withSlot relay generation change).slot s.relay s.generation).isSome = true := by
  unfold Engine.withSlot Engine.slot at *
  dsimp only
  generalize e.slots = slots at there
  induction slots with
  | nil => cases there
  | cons c slots ih =>
    rw [List.find?_cons] at there
    by_cases is : Engine.isSlot relay generation c = true
    · rw [adjust, if_pos is, List.find?_cons, kept]
      split
      · rfl
      · rename_i other
        rw [other] at there
        exact there
    · rw [adjust, if_neg is, List.find?_cons]
      split
      · rfl
      · rename_i other
        rw [other] at there
        exact ih there

/-- Where the step acquires a connection, what decides is the slot's new connection. -/
theorem handed_of_acquired {generation : Round} {session : Session}
    (received : e.receiving a = some (.acquired relay generation session)) :
    e.handed a = e.withSlot relay generation fun s => { s with session := some session } := by
  obtain ⟨rfl, -⟩ := Engine.receiving_eq_some.mp received
  unfold Engine.handed
  rw [received]

theorem handed_eq (stepped : step P e a = some e') (registry : e'.registry = e.registry)
    (connections : e'.connections = e.connections)
    (acquires : ∀ relay generation session,
      e.receiving a ≠ some (.acquired relay generation session)) : e.handed a = e := by
  unfold Engine.handed
  split
  · cases stepped
    dsimp only at registry
    rw [registry]
  · cases stepped
    dsimp only at connections
    rw [connections]
  · rename_i received
    exact (acquires _ _ _ received).elim
  · rfl

theorem route_acquired {u : Engine} {relay' : RelayUrl} {generation : Round} {session : Session} :
    (u.acquired relay' generation session).route relay authority =
      (u.withSlot relay' generation fun s => { s with session := some session }).route relay
        authority := by
  unfold Engine.acquired
  split
  · rename_i gone
    rw [Engine.withSlot, adjust_of_find?_eq_none gone]
  · rename_i s here
    obtain ⟨-, -, before, after, -, replaced⟩ := Engine.withSlot_slots here
    have route : ∀ v : Engine, v.connections = u.connections →
        v.slots = before ++ { s with session := some session, busy := false, armed := true } :: after →
          v.route relay authority = (u.withSlot relay' generation fun s =>
            { s with session := some session }).route relay authority := by
      intro v connections slots
      rw [Engine.route, Engine.route, slotFor_eq, slotFor_eq, connections, slots, replaced u rfl]
      exact map_find?_replace (Slot.reaches_congr rfl rfl rfl) rfl
    dsimp only
    split
    · exact route _ rfl (replaced u rfl _)
    · exact route _ rfl (replaced u rfl _)

/-- Demand that is routed to a slot after a step was so before, but for the steps that
hand demand over. -/
theorem route_back (sound : Sound e.core) (stepped : step P e a = some e') (hs : s ∈ e.slots)
    (quiet : e'.dirty = false) (unpassed : a ≠ .reconcile)
    (connections : e'.connections = e.connections)
    (acquires : ∀ relay generation session, e.receiving a ≠ some (.acquired relay generation session))
    (desired : (d, authority) ∈ e.registry.desired s.relay)
    (routed : e'.route s.relay authority = some s.generation) :
    e.route s.relay authority = some s.generation := by
  have old := sound.issued s.toHolding (List.mem_map.mpr ⟨s, hs, rfl⟩)
  obtain ⟨t, found, same⟩ := Option.map_eq_some_iff.mp routed
  rw [slotFor_eq, connections] at found
  rw [Engine.route, slotFor_eq]
  cases step_slots sound stepped with
  | same slots _ =>
    rw [← slots, found, Option.map_some, same]
  | vacate is _ => exact (unpassed is).elim
  | @release before after u at' _ unwanted slots =>
    -- The slot that was released was in charge of nothing.
    rw [slots] at found
    rw [at', List.find?_append, List.find?_cons]
    rw [List.find?_append] at found
    cases first : before.find? (Slot.reaches e.connections s.relay authority) with
    | some c =>
      rw [first] at found
      cases found
      exact congrArg some same
    | none =>
      rw [first, Option.none_or] at found
      rw [Option.none_or]
      split
      · rename_i reaches
        have here : e.slotFor s.relay authority = some u := by
          rw [slotFor_eq, at', List.find?_append, first, Option.none_or, List.find?_cons_of_pos reaches]
        have home : u.relay = s.relay := by
          rw [Slot.reaches, Bool.and_eq_true, decide_eq_true_eq] at reaches
          exact reaches.1
        have asked : d ∈ e.demandForSlot u.relay u.generation := by
          apply mem_demandForSlot_of_route authority (Engine.slot_eq_some sound (by simp [at']))
          · rw [home]
            exact desired
          · rw [Engine.route, home, here, Option.map_some]
        rw [unwanted] at asked
        cases asked
      · rw [found, Option.map_some, same]
  | establish visited slots new =>
    rw [slots, List.find?_append] at found
    cases first : e.slots.find? (Slot.reaches e.connections s.relay authority) with
    | some c =>
      rw [first] at found
      cases found
      exact congrArg some same
    | none =>
      rw [first, Option.none_or] at found
      obtain ⟨_, g, above, rfl⟩ := new t (List.mem_of_find?_eq_some found)
      rw [← same] at old
      exact (Nat.not_le_of_lt above old).elim
  | @change before after u u' at' change slots =>
    rw [slots] at found
    rw [at']
    obtain ⟨kept, requested, ⟨unmoved, session, -⟩ | ⟨session, received, -⟩ |
      ⟨-, -, dirty, -⟩ | ⟨armed, -, rfl⟩⟩ := change.connection
    · rw [← map_find?_replace (Slot.reaches_congr kept session requested) unmoved, found,
        Option.map_some, same]
    · exact (acquires _ _ _ received).elim
    · rw [quiet] at dirty
      cases dirty
    · have other : t ≠ { u.advance (e.rounds + 1) with armed := armed } := by
        rintro rfl
        rw [← same] at old
        exact Nat.not_succ_le_self _ old
      refine Option.map_eq_some_iff.mpr ⟨t, find?_replace_of_ne ?_ found other, same⟩
      exact Slot.reaches_congr rfl rfl rfl

end Handed

/-- An entry carries the demand: it serves it, or its filters cover it. -/
def carries (entry : InstalledSubscription) (d : RelayDemand) : Prop :=
  d.id ∈ entry.serves ∨ entry.filters.any (filterCovers · d.filter) = true

theorem covers_iff {h : Holding} : h.covers d = true ↔
    ∃ (id : SubscriptionId) (entry : InstalledSubscription), h.installed[id]? = some entry ∧
      carries entry d := by
  simp only [Holding.covers, carries, List.any_eq_true, Prod.exists, Bool.or_eq_true,
    ExtTreeSet.contains_iff_mem, ExtTreeMap.mem_toList_iff_getElem?_eq_some]

theorem covers_of_serves (served : s.serves d.id = true) : s.covers d = true := by
  obtain ⟨id, entry, here, served⟩ := serves_iff.mp served
  exact covers_iff.mpr ⟨id, entry, here, .inl served⟩

theorem covers_of_uncovered {h : Holding} {demand : List RelayDemand} (none : h.uncovered demand = [])
    (asked : d ∈ demand) : h.covers d = true := by
  have covered := List.filter_eq_nil_iff.mp none d asked
  simpa using covered

theorem covers_congr {h h' : Holding} (same : h'.installed = h.installed) : h'.covers d = h.covers d := by
  rw [Holding.covers, Holding.covers, same]

/-- What a slot is asked for after a step it was asked for before, but for the steps that
hand demand over. -/
theorem demand_back (sound : Sound e.core) (stepped : step P e a = some e') (hs : s ∈ e.slots)
    (hs' : s' ∈ e'.slots) (relay : s'.relay = s.relay) (generation : s'.generation = s.generation)
    (current : e'.changed = false) (quiet : e'.dirty = false) (unpassed : a ≠ .reconcile)
    (asked : d ∈ e'.demandForSlot s'.relay s'.generation) :
    s'.covers d = true ∨ d ∈ (e.handed a).demandForSlot s.relay s.generation := by
  obtain ⟨authority, desired, served | routed⟩ :=
    (mem_demandForSlot (Engine.slot_eq_some (step_sound sound stepped) hs')).mp asked
  · exact .inl (covers_of_serves served)
  right
  have found := Engine.slot_eq_some sound hs
  rw [relay, generation] at routed
  rw [relay] at desired
  cases step_frame stepped with
  | observe registry is result =>
    rw [result] at current
    cases current
  | wake is result =>
    rw [result] at quiet
    cases quiet
  | revive registry is result =>
    subst is result
    exact mem_demandForSlot_of_route (s := s) authority found desired routed
  | authenticate session authentication is result =>
    subst is result
    exact mem_demandForSlot_of_route (s := s) authority found desired routed
  | own registry connections =>
    rw [registry] at desired
    by_cases acquires : ∃ relay generation session,
        e.receiving a = some (.acquired relay generation session)
    · obtain ⟨relay', generation', session, received⟩ := acquires
      rw [handed_of_acquired received]
      have there : ((e.withSlot relay' generation' fun s =>
          { s with session := some session }).slot s.relay s.generation).isSome = true := by
        apply slot_withSlot
        · exact fun _ _ _ => rfl
        · rw [found]
          rfl
      obtain ⟨t, here⟩ := Option.isSome_iff_exists.mp there
      refine mem_demandForSlot_of_route authority here desired ?_
      obtain ⟨rest, -, -, rfl⟩ := step_of_received received stepped
      change ({ e with inbox := rest }.acquired relay' generation' session).route s.relay authority =
        some s.generation at routed
      rw [route_acquired] at routed
      exact routed
    · push Not at acquires
      rw [handed_eq stepped registry connections acquires]
      refine mem_demandForSlot_of_route authority found desired ?_
      exact route_back sound stepped hs quiet unpassed connections acquires desired routed

theorem attribution_installed {plan : SubscriptionPlan} (planned : e.planned P s plan)
    {id : SubscriptionId} (attributed : id ∈ plan.attribution) :
    id ∉ plan.close ∧ id ∈ s.installed := by
  obtain ⟨entry, found⟩ := Option.isSome_iff_exists.mp
    (ExtTreeMap.mem_iff_isSome_getElem?.mp attributed)
  obtain ⟨stays, -, entry, here, -⟩ := (P.planner.lawful _ _ _ _ _ _ planned.1).attributes id _ found
  exact ⟨stays, ExtTreeMap.mem_iff_isSome_getElem?.mpr (Option.isSome_of_eq_some here)⟩

section Recorded

variable {installed : InstalledSubscriptions} {plan : SubscriptionPlan}
  {opened : List (Option SubscriptionId)} {closed : List SubscriptionId} {id : SubscriptionId}

/-- A request the plan retains keeps its filters, and serves whom the plan says. -/
theorem accepted_retained {entry : InstalledSubscription} {attributed : AttributedSubscription}
    (here : installed[id]? = some entry) (found : plan.attribution[id]? = some attributed)
    (stays : id ∉ closed) (new : some id ∉ opened) :
    (Holding.accepted installed plan opened closed)[id]? = some ⟨entry.filters, attributed.serves⟩ := by
  rw [Holding.accepted, BTreeMap.getElem?_insertAll_of_forall_not_mem,
    ExtTreeMap.getElem?_filterMap', here, Option.bind_some, if_neg stays, found, Option.map_some]
  exact fun planned named => new (Holding.opened_of_opening named)

/-- A request the session opened is on record as it was planned. -/
theorem accepted_opened (sound : Sound e.core) {done : Installing} (flying : done ∈ e.plans)
    {planned : PlannedSubscription} (named : (id, planned) ∈ Holding.opening done.plan.opens done.opened) :
    (Holding.accepted installed done.plan done.opened closed)[id]? =
      some ⟨planned.filters, planned.serves⟩ := by
  have listed : id ∈ Holding.accepted installed done.plan done.opened closed := by
    rw [Holding.accepted, BTreeMap.mem_insertAll]
    exact .inr ⟨planned, named⟩
  obtain ⟨entry, found⟩ := Option.isSome_iff_exists.mp (ExtTreeMap.mem_iff_isSome_getElem?.mp listed)
  obtain ⟨planned', named', is⟩ | ⟨-, absent⟩ := BTreeMap.insertAll_eq_some found
  · obtain ⟨x, hx, token, is', -⟩ := (sound.plans done flying).opened _ named
    obtain ⟨y, hy, token', is'', -⟩ := (sound.plans done flying).opened _ named'
    obtain rfl := handle_eq sound.named hx hy (token.trans token'.symm)
    have same : planned = planned' := is'.symm.trans is''
    rw [found, is, same]
  · exact (absent planned named).elim

/-- What the report settles is told, or carried by what is on record afterwards. -/
theorem covers_of_settles (sound : Sound e.core) (hs : s ∈ e.slots) {done : Installing}
    (flying : done ∈ e.current s) (settles : done.settles s.installed d = true) :
    (∃ x ∈ done.plan.shortfalls, x.demand = d.id) ∨ (s.record done).covers d = true := by
  obtain ⟨inside, generation, revision⟩ := mem_current.mp flying
  have there : s.toHolding ∈ e.core.holdings := List.mem_map.mpr ⟨s, hs, rfl⟩
  have baseline := sound.pending done inside s.toHolding there generation.symm revision
  rw [Installing.settles, Bool.or_eq_true, Bool.or_eq_true, List.any_eq_true, List.any_eq_true,
    List.any_eq_true] at settles
  obtain (⟨x, hx, is⟩ | ⟨⟨id, entry⟩, listed, kept⟩) | ⟨⟨id, planned⟩, named, carried⟩ := settles
  · exact .inl ⟨x, hx, of_decide_eq_true is⟩
  · obtain ⟨attributed, found, carried⟩ := (Option.any_eq_true _ _).mp kept
    have here := ExtTreeMap.mem_toList_iff_getElem?_eq_some.mp listed
    rw [Bool.or_eq_true, ExtTreeSet.contains_iff_mem] at carried
    refine .inr (covers_iff.mpr ⟨id, ⟨entry.filters, attributed.serves⟩, ?_, carried⟩)
    refine accepted_retained here found ?_ fun given => ?_
    · exact baseline.attributes id
        (ExtTreeMap.mem_iff_isSome_getElem?.mpr (Option.isSome_of_eq_some found))
    · exact sound.not_installed_of_opened inside there generation.symm given
        (ExtTreeMap.mem_iff_isSome_getElem?.mpr (Option.isSome_of_eq_some here))
  · rw [Bool.or_eq_true, ExtTreeSet.contains_iff_mem] at carried
    exact .inr (covers_iff.mpr ⟨id, _, accepted_opened sound inside named, carried⟩)

end Recorded

section Published

variable {generation : Round} {plan : SubscriptionPlan}

/-- What a plan could not carry is told to whoever wanted it. -/
theorem publishPlan_fallsShort {cohort : List RelayDemand}
    (found : e.slot relay generation = some s) (asked : d ∈ cohort)
    (short : ∃ x ∈ plan.shortfalls, x.demand = d.id) :
    ∃ op ∈ e.publishPlan relay generation cohort (some plan), op.fallsShort relay d = true := by
  obtain ⟨x, hx, is⟩ := short
  have listed : (plan.shortfalls.find? fun entry => entry.demand = d.id).isSome = true :=
    List.find?_isSome.mpr ⟨x, hx, decide_eq_true is⟩
  obtain ⟨entry, first⟩ := Option.isSome_iff_exists.mp listed
  rw [Engine.publishPlan, found]
  refine ⟨_, List.mem_flatMap.mpr ⟨d, asked, List.mem_cons_self⟩, ?_⟩
  have shortfall : Engine.shortfall (some plan) d = some ⟨[d.branch], .new (ShortfallReason.debug entry.reason)⟩ := by
    rw [Engine.shortfall, Option.bind_eq_bind, Option.bind_some, first]
    rfl
  rw [shortfall]
  simp [Evidence.State.Op.fallsShort]

theorem publishOwnerRefusal_fallsShort {demand : List RelayDemand} {round : Option Round}
    {error : String} (asked : d ∈ demand) :
    ∃ op ∈ Engine.publishOwnerRefusal relay demand round error, op.fallsShort relay d = true := by
  refine ⟨_, List.mem_map.mpr ⟨d.owner, List.mem_map.mpr ⟨d, asked, rfl⟩, rfl⟩, ?_⟩
  simp [Evidence.State.Op.fallsShort]

theorem writes_of_flushing {now : Timestamp} {detail : BoundedText}
    (flushed : e.flushing a = some (relay, generation)) :
    e.writes P e' a now detail = e.flushWrites P e' relay generation := by
  cases a with
  | visit | receive =>
    unfold Engine.flushing at flushed
    dsimp only at flushed
    split at flushed
    · rename_i pending
      cases flushed
      rw [Engine.writes, pending]
    · cases flushed
  | _ => cases flushed

theorem writes_of_recording {now : Timestamp} {detail : BoundedText} {done : Installing}
    (received : e.receiving a = some (.installed done)) :
    e.writes P e' a now detail = e.installedWrites e' done now := by
  obtain ⟨rfl, rest, inbox⟩ := Engine.receiving_eq_some.mp received
  rw [Engine.writes, inbox]

end Published

/-- Demand of a slot is carried, waits for a plan that accounts for it, or was refused. -/
def Fed (t : Told) (s : Slot) (d : RelayDemand) : Prop :=
  s.covers d = true ∨ s.armed = true ∨ (∃ p ∈ t.engine.current s, accounts p.plan d.id = true) ∨
    t.published s.relay d = true

/-- The pass has still to come to the slot. -/
def Awaits (e : Engine) (s : Slot) : Prop :=
  (∃ items, Visit.relay s.relay items ∈ e.todo) ∨ Visit.slot s.relay s.generation ∈ e.todo ∨
    Visit.flush s.relay s.generation ∈ e.todo

/-- Unless a pass is due, every connected slot has its demand fed or is still to be
visited. -/
def Nourished (t : Told) : Prop :=
  t.engine.changed = true ∨ t.engine.dirty = true ∨ ∀ s ∈ t.engine.slots, s.session.isSome = true →
    Awaits t.engine s ∨ ∀ d ∈ t.engine.demandForSlot s.relay s.generation, Fed t s d

theorem accounts_iff {plan : SubscriptionPlan} {d : DemandId} : accounts plan d = true ↔
    (∃ x ∈ plan.shortfalls, x.demand = d) ∨ d ∈ servedBy plan := by
  rw [accounts, decide_eq_true_eq, List.mem_append, List.mem_map]

theorem planned_of_answer {plan : SubscriptionPlan} (answer : e.answer P s = some plan) :
    P.planner.plan s.relay (e.demandForSlot s.relay s.generation) s.constraints s.installed
      (e.revisions + 1) = .ok plan := by
  unfold Engine.answer at answer
  cases is : P.planner.plan s.relay (e.demandForSlot s.relay s.generation) s.constraints s.installed
    (e.revisions + 1) with
  | error failure =>
    rw [is] at answer
    cases answer
  | ok plan' =>
    rw [is] at answer
    cases answer
    rfl

/-- A plan accounts for everything its slot was asked for. -/
theorem accounts_of_planned {plan : SubscriptionPlan} (planned : e.planned P s plan)
    (asked : d ∈ e.demandForSlot s.relay s.generation) : accounts plan d.id = true :=
  accounts_iff.mpr ((checkDemand_ok.mp (checkDemand_of_validatePlan planned.2)).2.1 d asked)

section Steps

variable {t t' : Told} {x : Action × Timestamp × BoundedText}

theorem Told.step_eq (stepped : t.step P x = some t') :
    Observe.step P t.engine x.1 = some t'.engine ∧
      t'.calls = t.calls ++ t.engine.writes P t'.engine x.1 x.2.1 x.2.2 := by
  obtain ⟨e, moves, rfl⟩ := Option.map_eq_some_iff.mp stepped
  exact ⟨moves, rfl⟩

theorem Told.published_step (stepped : t.step P x = some t') (before : t.published relay d = true) :
    t'.published relay d = true := by
  rw [Told.published, (Told.step_eq stepped).2, List.any_append, Bool.or_eq_true]
  exact .inl before

theorem Told.published_of_write (stepped : t.step P x = some t')
    (told : ∃ op ∈ t.engine.writes P t'.engine x.1 x.2.1 x.2.2, op.fallsShort relay d = true) :
    t'.published relay d = true := by
  rw [Told.published, (Told.step_eq stepped).2, List.any_append, Bool.or_eq_true]
  exact .inr (List.any_eq_true.mpr told)

variable (sound : Sound t.engine.core) (stepped : t.step P x = some t')
include sound stepped

/-- Closing the window of a slot feeds its demand, if the planner answers. -/
theorem fed_of_flush (answers : Answers P t.engine x.1)
    (flushed : t.engine.flushing x.1 = some (s.relay, s.generation)) (hs : s ∈ t.engine.slots)
    (hs' : s' ∈ t'.engine.slots) (change : SlotChange P t.engine x.1 t'.engine s s')
    (live : s'.session.isSome = true) (asked : d ∈ t.engine.demandForSlot s.relay s.generation) :
    Fed t' s' d := by
  have found := Engine.slot_eq_some sound hs
  have writes : t.engine.writes P t'.engine x.1 x.2.1 x.2.2 =
    t.engine.flushWrites P t'.engine s.relay s.generation := writes_of_flushing flushed
  have told : (∃ op ∈ t.engine.flushWrites P t'.engine s.relay s.generation,
      op.fallsShort s.relay d = true) → t'.published s.relay d = true := by
    rw [← writes]
    exact Told.published_of_write stepped
  cases change with
  | idle _ covered => exact .inl (covers_of_uncovered covered asked)
  | wait _ away =>
    change s.session.isSome = true at live
    rw [away] at live
    cases live
  | spent _ _ exhausted needs =>
    refine .inr (.inr (.inr (told ?_)))
    obtain ⟨session, is⟩ := Option.isSome_iff_exists.mp live
    change s.session = some session at is
    rw [Engine.flushWrites, found]
    dsimp only
    rw [if_neg needs, is, exhausted]
    exact publishOwnerRefusal_fallsShort asked
  | unplanned _ connected refused counted =>
    by_cases covered : s.uncovered (t.engine.demandForSlot s.relay s.generation) = []
    · exact .inl (covers_of_uncovered covered asked)
    · obtain ⟨plan, answer, valid⟩ := (Option.any_eq_true _ _).mp
        (answers _ flushed s found connected covered (Option.isSome_of_eq_some counted))
      exact (refused plan ⟨planned_of_answer answer, of_decide_eq_true valid⟩).elim
  | @retain plan _ connected planned noop counted needs =>
    have sound' := step_sound sound (Told.step_eq stepped).1
    have found' := Engine.slot_eq_some sound' hs'
    obtain short | served := accounts_iff.mp (accounts_of_planned planned asked)
    · refine .inr (.inr (.inr (told ?_)))
      obtain ⟨session, is⟩ := Option.isSome_iff_exists.mp connected
      rw [Engine.flushWrites, found]
      dsimp only
      rw [if_neg needs, is, counted]
      dsimp only
      rw [planned.1]
      dsimp only
      rw [if_pos ⟨planned.2, noop⟩]
      exact publishPlan_fallsShort found' asked short
    · rw [SubscriptionPlan.isNoop, Bool.and_eq_true, List.isEmpty_iff] at noop
      rw [servedBy, noop.1, List.flatMap_nil, List.append_nil, List.mem_flatMap] at served
      obtain ⟨⟨id, attributed⟩, listed, served⟩ := served
      rw [ExtTreeMap.mem_toList_iff_getElem?_eq_some] at listed
      have attributes := ExtTreeMap.mem_iff_isSome_getElem?.mpr (Option.isSome_of_eq_some listed)
      obtain ⟨entry, here⟩ := Option.isSome_iff_exists.mp
        (ExtTreeMap.mem_iff_isSome_getElem?.mp (attribution_installed planned attributes).2)
      refine .inl (covers_iff.mpr ⟨id, ⟨entry.filters, attributed.serves⟩, ?_,
        .inl (ExtTreeSet.mem_toList.mp served)⟩)
      exact accepted_retained here listed List.not_mem_nil List.not_mem_nil
  | @install plan _ _ planned flying =>
    refine .inr (.inr (.inl ⟨_, mem_current.mpr ⟨List.mem_append_left _ flying, rfl, rfl⟩, ?_⟩))
    exact accounts_of_planned planned asked
  | join armed visited =>
    rw [Engine.flushing_of_visiting visited] at flushed
    cases flushed
  | settle id received | limit constraints received | record received | acquire session received
  | refuse received | reconnect armed received =>
    rw [(Engine.working_of_received received (by simp)).2] at flushed
    cases flushed

/-- The report of a plan that is current for a slot is recorded. -/
theorem record_of_received {done : Installing}
    (received : t.engine.receiving x.1 = some (.installed done)) (current : done ∈ t.engine.current s)
    (hs : s ∈ t.engine.slots) (hs' : s' ∈ t'.engine.slots) (generation : s'.generation = s.generation) :
    s' = s.record done := by
  obtain ⟨inside, same, revision⟩ := mem_current.mp current
  have home : s.relay = done.relay :=
    (sound.relays done inside).2 s.toHolding (List.mem_map.mpr ⟨s, hs, rfl⟩) same.symm
  have found := Engine.slot_eq_some sound hs
  obtain ⟨rest, -, -, is⟩ := step_of_received received (Told.step_eq stepped).1
  obtain ⟨-, -, before, after, split, replaced⟩ := Engine.withSlot_slots found
  have slots : t'.engine.slots = before ++ s.record done :: after := by
    rw [is]
    change ({ t.engine with inbox := rest }.installed done).slots = _
    unfold Engine.installed
    rw [home, ← same] at found
    have here : { t.engine with inbox := rest }.slot done.relay done.generation = some s := found
    rw [here]
    dsimp only
    rw [if_neg (not_not.mpr revision), ← home, same]
    exact replaced { t.engine with inbox := rest, handles := _ } rfl _
  rw [slots, List.mem_append, List.mem_cons, or_left_comm, ← List.mem_append] at hs'
  obtain is | elsewhere := hs'
  · exact is
  · exact (other_generation sound split elsewhere generation).elim

/-- Recording a report feeds the demand that its slot carries, or that its plan accounts
for. -/
theorem fed_of_record (settles : Settles t.engine x.1) {done : Installing}
    (received : t.engine.receiving x.1 = some (.installed done)) (current : done ∈ t.engine.current s)
    (hs : s ∈ t.engine.slots) (hs' : s' ∈ t'.engine.slots) (generation : s'.generation = s.generation)
    (asked : d ∈ t.engine.demandForSlot s.relay s.generation)
    (asked' : d ∈ t'.engine.demandForSlot s.relay s.generation) (fed : Fed t s d) : Fed t' s' d := by
  obtain ⟨inside, same, revision⟩ := mem_current.mp current
  have home : s.relay = done.relay :=
    (sound.relays done inside).2 s.toHolding (List.mem_map.mpr ⟨s, hs, rfl⟩) same.symm
  have found := Engine.slot_eq_some sound hs
  obtain rfl := record_of_received sound stepped received current hs hs' generation
  have found' := Engine.slot_eq_some (step_sound sound (Told.step_eq stepped).1) hs'
  change t'.engine.slot s.relay s.generation = some (s.record done) at found'
  by_cases armed : s.armed = true
  · exact .inr (.inl armed)
  rw [Bool.not_eq_true] at armed
  have settled : accounts done.plan d.id = true ∨ s.covers d = true → Fed t' (s.record done) d := by
    intro carried
    have recorded : t.engine.recording x.1 = some done := by
      rw [Engine.recording, received]
      rfl
    rw [home, ← same] at found asked
    obtain short | covered := covers_of_settles sound hs current
      (settles done recorded s found revision armed d asked carried)
    · refine .inr (.inr (.inr (Told.published_of_write stepped ?_)))
      rw [writes_of_recording received, Engine.installedWrites, found]
      rw [home, ← same] at found' asked'
      rw [found']
      dsimp only
      rw [if_neg (not_not.mpr revision)]
      obtain ⟨op, member, falls⟩ := publishPlan_fallsShort found' asked' short
      refine ⟨op, List.mem_append_left _ member, ?_⟩
      change op.fallsShort s.relay d = true
      rw [home]
      exact falls
    · exact .inl covered
  obtain covered | armed' | ⟨p, current', accounted⟩ | told := fed
  · exact settled (.inr covered)
  · rw [armed] at armed'
    cases armed'
  · obtain ⟨inside', -, revision'⟩ := mem_current.mp current'
    rw [revision, Option.some.injEq] at revision'
    obtain rfl := List.inj_on_of_nodup_map sound.revised inside inside' revision'
    exact settled (.inl accounted)
  · exact .inr (.inr (.inr (Told.published_step stepped told)))

omit sound in
/-- A slot that the step leaves as it is stays fed. -/
theorem fed_of_kept (relay : s'.relay = s.relay) (generation : s'.generation = s.generation)
    (installed : s'.installed = s.installed) (armed : s'.armed = s.armed)
    (revision : s'.revision = s.revision)
    (unrecorded : ∀ p ∈ t.engine.current s, t.engine.receiving x.1 ≠ some (.installed p))
    (fed : Fed t s d) : Fed t' s' d := by
  obtain covered | armed' | ⟨p, current, accounted⟩ | told := fed
  · rw [← covers_congr installed] at covered
    exact .inl covered
  · exact .inr (.inl (armed.trans armed'))
  · obtain ⟨inside, same, latest⟩ := mem_current.mp current
    obtain ⟨opened, flying⟩ | received := plans_kept (Told.step_eq stepped).1 inside
    · exact .inr (.inr (.inl ⟨_, mem_current.mpr ⟨flying, same.trans generation.symm,
        revision.trans latest⟩, accounted⟩))
    · exact (unrecorded p current received).elim
  · rw [← relay] at told
    exact .inr (.inr (.inr (Told.published_step stepped told)))

end Steps

/-- A step that works on a slot, or records a report, hands nothing over. -/
theorem handed_of_working (working : (∃ x, e.visiting a = some x) ∨ ∃ x, e.flushing a = some x) :
    e.handed a = e := by
  cases a with
  | visit => rfl
  | receive =>
    obtain ⟨x, visited⟩ | ⟨x, flushed⟩ := working
    · cases visited
    · unfold Engine.flushing at flushed
      dsimp only at flushed
      split at flushed
      · rename_i relay generation rest inbox
        have received : e.receiving .receive = some (.flush relay generation) := by
          rw [Engine.receiving, inbox]
          rfl
        unfold Engine.handed
        rw [received]
      · cases flushed
  | _ => obtain ⟨x, is⟩ | ⟨x, is⟩ := working <;> cases is

theorem handed_of_recording {done : Installing} (received : e.receiving a = some (.installed done)) :
    e.handed a = e := by
  obtain ⟨rfl, -⟩ := Engine.receiving_eq_some.mp received
  unfold Engine.handed
  rw [received]

/-- Every slot that is left when a pass begins is at a relay it will visit. -/
theorem relay_of_reconcile {u : Engine} (hs : s ∈ u.reconcile.slots) : s.relay ∈ u.registry.relays := by
  change s ∈ (List.foldl Engine.releaseRelay u _).slots at hs
  rw [Engine.foldl_releaseRelay_slots, List.mem_filter, decide_eq_true_eq, List.mem_filter] at hs
  obtain ⟨there, kept⟩ := hs
  by_contra gone
  exact kept ⟨List.mem_map.mpr ⟨s, there, rfl⟩, decide_eq_true gone⟩

/-- A slot that is still to be visited is visited, flushed, or stays so. -/
theorem awaits_step (stepped : step P e a = some e') (unpassed : a ≠ .reconcile)
    (hs' : s' ∈ e'.slots) (relay : s'.relay = s.relay) (generation : s'.generation = s.generation)
    (awaits : Awaits e s) : Awaits e' s' ∨ e.visiting a = some (s.relay, s.generation) ∨
      e.flushing a = some (s.relay, s.generation) := by
  unfold Awaits
  rw [relay, generation]
  obtain ⟨is, -⟩ | ⟨relay', items, rest, todo, -, rfl⟩ | ⟨kept, -⟩ := step_pass stepped
  · exact (unpassed is).elim
  · left
    by_cases here : s.relay = relay'
    · refine .inr (.inl (List.mem_append_left _ (List.mem_map.mpr ⟨s', List.mem_filter.mpr
        ⟨hs', decide_eq_true (relay.trans here)⟩, ?_⟩)))
      rw [generation, here]
    · have passed := Engine.pass_foldl_establish { e with todo := rest } relay' items
      rw [Engine.passing, Engine.passing, Prod.mk.injEq] at passed
      have later : ∀ v ∈ e.todo, v ≠ .relay relay' items →
          v ∈ ({ e with todo := rest }.visitRelay relay' items).todo := by
        intro v hv other
        rw [todo, List.mem_cons] at hv
        refine List.mem_append_right _ ?_
        rw [passed.1]
        exact hv.resolve_left other
      obtain ⟨items', waiting⟩ | waiting | waiting := awaits
      · refine .inl ⟨items', later _ waiting fun is => ?_⟩
        cases is
        exact here rfl
      · exact .inr (.inl (later _ waiting (by simp)))
      · exact .inr (.inr (later _ waiting (by simp)))
  · obtain ⟨items, waiting⟩ | waiting | waiting := awaits
    · obtain still | ⟨_, _, ⟨is, -⟩ | ⟨is, -⟩⟩ := kept _ waiting
      · exact .inl (.inl ⟨items, still⟩)
      · cases is
      · cases is
    · obtain still | ⟨_, _, ⟨is, visited⟩ | ⟨is, -⟩⟩ := kept _ waiting
      · exact .inl (.inr (.inl still))
      · cases is
        exact .inr (.inl visited)
      · cases is
    · obtain still | ⟨_, _, ⟨is, -⟩ | ⟨is, flushed⟩⟩ := kept _ waiting
      · exact .inl (.inr (.inr still))
      · cases is
      · cases is
        exact .inr (.inr flushed)

section Nourished

variable {t t' : Told} {x : Action × Timestamp × BoundedText}

/-- A slot that keeps its generation stays fed. -/
theorem fed_step (sound : Sound t.engine.core) (stepped : t.step P x = some t')
    (meets : Answers P t.engine x.1 ∧ Settles t.engine x.1 ∧ Hands t.engine x.1)
    (current : t'.engine.changed = false) (quiet : t'.engine.dirty = false) (unpassed : x.1 ≠ .reconcile)
    (hs : s ∈ t.engine.slots) (hs' : s' ∈ t'.engine.slots)
    (change : s' = s ∨ SlotChange P t.engine x.1 t'.engine s s') (relay : s'.relay = s.relay)
    (generation : s'.generation = s.generation) (live : s'.session.isSome = true)
    (fed : s.session.isSome = true → Awaits t.engine s ∨
      ∀ d ∈ t.engine.demandForSlot s.relay s.generation, Fed t s d) :
    Awaits t'.engine s' ∨ ∀ d ∈ t'.engine.demandForSlot s'.relay s'.generation, Fed t' s' d := by
  obtain ⟨answers, settles, hands⟩ := meets
  have moves := (Told.step_eq stepped).1
  have back : ∀ d ∈ t'.engine.demandForSlot s'.relay s'.generation,
      s'.covers d = true ∨ d ∈ (t.engine.handed x.1).demandForSlot s.relay s.generation :=
    fun d => demand_back sound moves hs hs' relay generation current quiet unpassed
  by_cases visited : t.engine.visiting x.1 = some (s.relay, s.generation)
  · rw [handed_of_working (.inl ⟨_, visited⟩)] at back
    cases change_of_working sound moves hs hs' generation (.inl visited) with
    | join armed _ attached _ arms =>
      obtain armed | waiting | covered := arms
      · exact .inr fun d _ => .inr (.inl armed)
      · exact .inl (.inr (.inr waiting))
      · refine .inr fun d asked' => .inl ?_
        obtain covers | asked := back d asked'
        · exact covers
        · exact covers_of_uncovered covered asked
    | idle flushed | wait flushed | spent flushed | unplanned flushed | retain flushed
    | install flushed =>
      rw [Engine.flushing_of_visiting visited] at flushed
      cases flushed
    | settle id received | limit constraints received | record received | acquire session received
    | refuse received | reconnect armed received =>
      rw [(Engine.working_of_received received (by simp)).1] at visited
      cases visited
  by_cases flushed : t.engine.flushing x.1 = some (s.relay, s.generation)
  · rw [handed_of_working (.inr ⟨_, flushed⟩)] at back
    have change := change_of_working sound moves hs hs' generation (.inr flushed)
    refine .inr fun d asked' => ?_
    obtain covers | asked := back d asked'
    · exact .inl covers
    · exact fed_of_flush sound stepped answers flushed hs hs' change live asked
  have awaits : Awaits t.engine s → Awaits t'.engine s' := by
    intro awaits
    obtain still | visited' | flushed' := awaits_step moves unpassed hs' relay generation awaits
    · exact still
    · exact (visited visited').elim
    · exact (flushed flushed').elim
  by_cases recorded : ∃ done ∈ t.engine.current s, t.engine.receiving x.1 = some (.installed done)
  · obtain ⟨done, flying, received⟩ := recorded
    rw [handed_of_recording received] at back
    have is := record_of_received sound stepped received flying hs hs' generation
    rw [is] at live
    obtain waiting | fed := fed live
    · exact .inl (awaits waiting)
    · refine .inr fun d asked' => ?_
      obtain covers | asked := back d asked'
      · exact .inl covers
      · rw [relay, generation] at asked'
        exact fed_of_record sound stepped settles received flying hs hs' generation asked asked'
          (fed d asked)
  · have kept : s'.installed = s.installed → s'.armed = s.armed → s'.revision = s.revision →
        s'.session = s.session → Awaits t'.engine s' ∨
          ∀ d ∈ t'.engine.demandForSlot s'.relay s'.generation, Fed t' s' d := by
      intro installed armed revision session
      rw [session] at live
      obtain waiting | fed := fed live
      · exact .inl (awaits waiting)
      · refine .inr fun d asked' => ?_
        obtain covers | handed := back d asked'
        · exact .inl covers
        · refine fed_of_kept stepped relay generation installed armed revision
            (fun p flying received => recorded ⟨p, flying, received⟩) ?_
          by_cases waits : s.armed = true
          · exact .inr (.inl waits)
          · rw [Bool.not_eq_true] at waits
            obtain asked | covers := hands s hs live waits d handed
            · exact fed d asked
            · exact .inl covers
    obtain rfl | change := change
    · exact kept rfl rfl rfl rfl
    · cases change with
      | settle | limit => exact kept rfl rfl rfl rfl
      | acquire => exact .inr fun d _ => .inr (.inl rfl)
      | join armed visited' => exact (visited visited').elim
      | idle flushed' | wait flushed' | spent flushed' | unplanned flushed' | retain flushed'
      | install flushed' => exact (flushed flushed').elim
      | @record done received relay' generation' revision =>
        exact (recorded ⟨done, mem_current.mpr
          ⟨mem_plans_of_received received, generation'.symm, revision⟩, received⟩).elim
      | refuse | reconnect =>
        have old := sound.issued s.toHolding (List.mem_map.mpr ⟨s, hs, rfl⟩)
        rw [← generation] at old
        exact (Nat.not_succ_le_self _ old).elim

theorem Nourished.step (nourished : Nourished t) (sound : Sound t.engine.core) (meets : Feeds P t x)
    (stepped : t.step P x = some t') : Nourished t' := by
  have moves := (Told.step_eq stepped).1
  by_cases changed' : t'.engine.changed = true
  · exact .inl changed'
  by_cases dirty' : t'.engine.dirty = true
  · exact .inr (.inl dirty')
  rw [Bool.not_eq_true] at changed' dirty'
  refine .inr (.inr fun s' hs' live => ?_)
  by_cases passes : x.1 = .reconcile
  · rw [passes] at moves
    simp only [Observe.step, Option.ite_none_right_eq_some, Option.some.injEq] at moves
    rw [← moves.2] at hs' ⊢
    exact .inl (.inl ⟨_, List.mem_map.mpr ⟨s'.relay, relay_of_reconcile hs', rfl⟩⟩)
  -- Nothing was due before the step either.
  have current : t.engine.changed = false := by
    cases step_frame moves with
    | observe _ _ result =>
      rw [result] at changed'
      cases changed'
    | wake _ result =>
      rw [result] at dirty'
      cases dirty'
    | revive _ _ result | authenticate _ _ _ result =>
      rw [result] at changed'
      exact changed'
    | own _ _ changed => rw [← changed, changed']
  have clean : t.engine.dirty = false := by
    by_contra dirty
    rw [Bool.not_eq_false] at dirty
    obtain ⟨is, -⟩ | ⟨relay, items, rest, todo, -, is⟩ | ⟨-, still⟩ := step_pass moves
    · exact passes is
    · have passed := Engine.pass_foldl_establish { t.engine with todo := rest } relay items
      rw [Engine.passing, Engine.passing, Prod.mk.injEq] at passed
      rw [is] at dirty'
      exact Bool.false_ne_true (dirty'.symm.trans (passed.2.trans dirty))
    · rw [still dirty] at dirty'
      cases dirty'
  have meets := meets.resolve_left (by simp [current]) |>.resolve_left (by simp [clean])
  have fed := nourished.resolve_left (by simp [current]) |>.resolve_left (by simp [clean])
  have same : ∀ s ∈ t.engine.slots, s' = s ∨ SlotChange P t.engine x.1 t'.engine s s' →
      s'.relay = s.relay → s'.generation = s.generation → Awaits t'.engine s' ∨
        ∀ d ∈ t'.engine.demandForSlot s'.relay s'.generation, Fed t' s' d :=
    fun s hs change relay generation => fed_step sound stepped meets changed' dirty' passes hs hs'
      change relay generation live (fed s hs)
  obtain kept | ⟨s, hs, change⟩ | ⟨relay, authority, next, -, rfl⟩ :=
    (step_slots sound moves).origin hs'
  · exact same s' kept (.inl rfl) rfl rfl
  · by_cases old : s'.generation ≤ t.engine.rounds
    · exact same s hs (.inr change) change.connection.1 (change.generation_eq old)
    · have issued := sound.issued s.toHolding (List.mem_map.mpr ⟨s, hs, rfl⟩)
      cases change with
      | refuse received counted dirty =>
        rw [dirty'] at dirty
        cases dirty
      | reconnect armed received quiet =>
        obtain armed | empty := quiet
        · exact .inr fun d _ => .inr (.inl armed)
        · refine .inr fun d asked => ?_
          change d ∈ t'.engine.demandForSlot s.relay (t.engine.rounds + 1) at asked
          rw [empty] at asked
          cases asked
      | settle | limit | join | idle | wait | spent | unplanned | retain | install | record
      | acquire => exact (old issued).elim
  · cases live

end Nourished

theorem run_nourished {acts : List (Action × Timestamp × BoundedText)} {t : Told}
    (run : Run (Told.step P) (Feeds P) .start acts t) : Sound t.engine.core ∧ Nourished t := by
  refine run.invariant (fun t => Sound t.engine.core ∧ Nourished t)
    ⟨Engine.start_sound, .inr (.inl rfl)⟩ ?_
  rintro t x t' ⟨sound, nourished⟩ meets stepped
  exact ⟨step_sound sound (Told.step_eq stepped).1, nourished.step sound meets stepped⟩

/-- As long as the planner answers, sessions open what they were asked to, no plan takes
away what joined behind it, and no demand is moved to a slot without a pass, nobody
starves once the passes are through. -/
theorem noneStarves_of_feeds {acts : List (Action × Timestamp × BoundedText)} {t : Told}
    (run : Run (Told.step P) (Feeds P) .start acts t) (done : t.engine.todo = [])
    (clean : t.engine.dirty = false) (current : t.engine.changed = false) : NoneStarves t := by
  obtain ⟨-, nourished⟩ := run_nourished run
  have fed := nourished.resolve_left (by simp [current]) |>.resolve_left (by simp [clean])
  intro s hs live d asked
  obtain waiting | fed := fed s hs live
  · rw [Awaits, done] at waiting
    obtain ⟨items, listed⟩ | listed | listed := waiting <;> cases listed
  · obtain covered | armed | ⟨p, flying, -⟩ | told := fed d asked
    · exact .inl covered
    · exact .inr (.inl armed)
    · exact .inr (.inr (.inl (List.ne_nil_of_mem flying)))
    · exact .inr (.inr (.inr told))

section Refused

/-- Every action at the same time. -/
def atOnce (acts : List Action) : List (Action × Timestamp × BoundedText) :=
  acts.map fun a => (a, 0, .new "")

/-- The session refuses the only request of the first plan. -/
def refuseRequest : List Action :=
  [.observe [observes 1], .reconcile, .visit, .visit, .acquire 0 (some 5), .wake, .reconcile, .visit,
    .visit, .receive, .elapse 0, .receive, .subscribe 0 none, .finish 0, .receive]

/-- The demand is carried by nothing, no window is open, and nobody is told. -/
theorem refused_request_starves :
    ∃ acts t, Run (Told.step kindProviders) Free .start acts t ∧ t.engine.todo = [] ∧
      t.engine.dirty = false ∧ t.engine.changed = false ∧ ¬NoneStarves t := by
  obtain ⟨t, run, checked⟩ := Run.of_any (show (exec (Told.step kindProviders) Free .start
    (atOnce refuseRequest)).any (fun t => t.engine.todo.isEmpty && !t.engine.dirty &&
      !t.engine.changed && t.engine.slots.any fun s => s.session.isSome &&
        (t.engine.demandForSlot s.relay s.generation).any fun d => !s.covers d && !s.armed &&
          (t.engine.current s).isEmpty && !t.published s.relay d) = true by decide +kernel)
  simp only [Bool.and_eq_true, List.isEmpty_iff, Bool.not_eq_true', List.any_eq_true] at checked
  obtain ⟨⟨⟨done, clean⟩, current⟩, s, hs, live, d, asked, ⟨⟨uncovered, idle⟩, landed⟩, untold⟩ := checked
  refine ⟨_, t, run, done, clean, current, fun fed => ?_⟩
  obtain covered | armed | flying | told := fed s hs live d asked
  · rw [uncovered] at covered
    cases covered
  · rw [idle] at armed
    cases armed
  · exact flying landed
  · rw [untold] at told
    cases told

theorem noneStarves_after_openFirst :
    ∃ t, Run (Told.step kindProviders) (Feeds kindProviders) .start (atOnce openFirst) t ∧
      (∃ s ∈ t.engine.slots, s.session.isSome = true ∧
        t.engine.demandForSlot s.relay s.generation ≠ []) ∧ NoneStarves t := by
  obtain ⟨t, run, checked⟩ := Run.of_any (show (exec (Told.step kindProviders) (Feeds kindProviders)
    .start (atOnce openFirst)).any (fun t => t.engine.todo.isEmpty && !t.engine.dirty &&
      !t.engine.changed && t.engine.slots.any fun s => s.session.isSome &&
        !(t.engine.demandForSlot s.relay s.generation).isEmpty) = true by decide +kernel)
  simp only [Bool.and_eq_true, List.isEmpty_iff, Bool.not_eq_true', List.any_eq_true,
    List.isEmpty_eq_false_iff] at checked
  obtain ⟨⟨⟨done, clean⟩, current⟩, fed⟩ := checked
  exact ⟨t, run, fed, noneStarves_of_feeds run done clean current⟩

end Refused

end Fava.Observe
