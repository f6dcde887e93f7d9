import Fava.Lib.First
import Fava.Observe.Attribution

namespace Fava.Observe

open Std Fava.Lib Fava.Nostr Fava.Relay Fava.Subscriptions

/-- The authority an observation requires belongs to the observation. -/
def Registry.Honest (access : ObservationId → Authority) (r : Registry) : Prop :=
  ∀ o ∈ r, ∀ x ∈ o.relays, o.access = access x.demand.owner

instance (access : ObservationId → Authority) (r : Registry) : Decidable (r.Honest access) :=
  inferInstanceAs (Decidable (∀ o ∈ r, ∀ x ∈ o.relays, o.access = access x.demand.owner))

namespace Engine

/-- The demand a slot has on record, or will have once a plan in flight reports. -/
def bearing (e : Engine) (s : Slot) : List DemandId :=
  (s.installed.toList.flatMap fun x => x.2.serves.toList) ++
    (e.current s).flatMap fun p => servedBy p.plan

/-- The slot demand of this authority is routed to. -/
def route (e : Engine) (relay : RelayUrl) (authority : Authority) : Option Round :=
  (e.slotFor relay authority).map (·.generation)

/-- The engine with the connections the step leaves its slots with. -/
def moved (e : Engine) (a : Action) : Engine :=
  match a, e.receiving a with
  | .authenticate session authentication, _ =>
    { e with connections := Function.update e.connections session authentication }
  | _, some (.acquired relay generation session) =>
    e.withSlot relay generation fun s => { s with session := some session }
  | _, some (.refused relay generation) =>
    e.withSlot relay generation fun s => { s with session := none }
  | _, _ => e

def reviving : Action → Option Registry
  | .revive registry => some registry
  | _ => none

end Engine

/-- No step takes a slot away from the demand it is in charge of, or leaves demand that
had a slot without one. -/
def Steadfast (access : ObservationId → Authority) (e : Engine) (a : Action) : Prop :=
  (∀ registry ∈ Engine.observing a, registry.Honest access) ∧
    (∀ registry ∈ Engine.reviving a, ∀ relay ∈ registry.relays, ∀ x ∈ registry.desired relay,
      x ∈ e.registry.desired relay ∨ (e.slotFor relay x.2).isSome = true) ∧
    (∀ s ∈ e.slots, ∀ d ∈ e.bearing s, e.route s.relay (access d.owner) = some s.generation →
      (e.moved a).route s.relay (access d.owner) = some s.generation) ∧
    ∀ relay ∈ e.registry.relays, ∀ x ∈ e.registry.desired relay,
      (e.slotFor relay x.2).isSome = true → ((e.moved a).slotFor relay x.2).isSome = true

instance (access : ObservationId → Authority) (e : Engine) (a : Action) :
    Decidable (Steadfast access e a) :=
  inferInstanceAs (Decidable ((∀ registry ∈ Engine.observing a, registry.Honest access) ∧
    (∀ registry ∈ Engine.reviving a, ∀ relay ∈ registry.relays, ∀ x ∈ registry.desired relay,
      x ∈ e.registry.desired relay ∨ (e.slotFor relay x.2).isSome = true) ∧
    (∀ s ∈ e.slots, ∀ d ∈ e.bearing s, e.route s.relay (access d.owner) = some s.generation →
      (e.moved a).route s.relay (access d.owner) = some s.generation) ∧
    ∀ relay ∈ e.registry.relays, ∀ x ∈ e.registry.desired relay,
      (e.slotFor relay x.2).isSome = true → ((e.moved a).slotFor relay x.2).isSome = true))

/-- The slots of a relay share its demand out: no two claim the same, and together they
claim what is desired there. -/
structure Exclusive (e : Engine) (relay : RelayUrl) : Prop where
  disjoint : ∀ s ∈ e.slots, ∀ t ∈ e.slots, s.relay = relay → t.relay = relay →
    s.generation ≠ t.generation →
      (e.demandForSlot relay s.generation).Disjoint (e.demandForSlot relay t.generation)
  exact : ((e.slots.filter fun s => s.relay = relay).flatMap fun s =>
    e.demandForSlot relay s.generation).Perm ((e.registry.desired relay).map Prod.fst)

/-- Demand is routed to the slot that bears it. -/
def Placed (access : ObservationId → Authority) (e : Engine) : Prop :=
  ∀ s ∈ e.slots, ∀ d ∈ e.bearing s, e.route s.relay (access d.owner) = some s.generation

/-- Demand the pass has no slot for yet is still to be visited. -/
def Reached (e : Engine) : Prop :=
  2 ^ 64 - 1 ≤ e.rounds ∨ e.changed = true ∨ e.dirty = true ∨
    ∀ relay, ∀ x ∈ e.registry.desired relay,
      (∃ items, Visit.relay relay items ∈ e.todo ∧ x ∈ items) ∨ (e.slotFor relay x.2).isSome = true

variable {P : Providers} {access : ObservationId → Authority} {e e' : Engine} {a : Action}
  {acts : List Action} {relay : RelayUrl} {authority : Authority} {s s' : Slot} {d : DemandId}

theorem mem_bearing : d ∈ e.bearing s ↔
    (∃ (id : SubscriptionId) (entry : InstalledSubscription), s.installed[id]? = some entry ∧
      d ∈ entry.serves) ∨ ∃ p ∈ e.current s, d ∈ servedBy p.plan := by
  simp only [Engine.bearing, List.mem_append, List.mem_flatMap, Prod.exists, ExtTreeSet.mem_toList,
    ExtTreeMap.mem_toList_iff_getElem?_eq_some]

theorem serves_iff : s.serves d = true ↔
    ∃ (id : SubscriptionId) (entry : InstalledSubscription), s.installed[id]? = some entry ∧
      d ∈ entry.serves := by
  simp only [Holding.serves, List.any_eq_true, Prod.exists, ExtTreeSet.contains_iff_mem,
    ExtTreeMap.mem_toList_iff_getElem?_eq_some]

theorem mem_servedBy_of_attribution {plan : SubscriptionPlan} {id : SubscriptionId}
    {attributed : AttributedSubscription} (found : plan.attribution[id]? = some attributed)
    (served : d ∈ attributed.serves) : d ∈ servedBy plan :=
  List.mem_append_left _ (List.mem_flatMap.mpr ⟨(id, attributed),
    ExtTreeMap.mem_toList_iff_getElem?_eq_some.mpr found, ExtTreeSet.mem_toList.mpr served⟩)

theorem mem_servedBy_of_opens {plan : SubscriptionPlan} {planned : PlannedSubscription}
    (listed : planned ∈ plan.opens) (served : d ∈ planned.serves) : d ∈ servedBy plan :=
  List.mem_append_right _ (List.mem_flatMap.mpr ⟨planned, listed, ExtTreeSet.mem_toList.mpr served⟩)

/-- What a slot serves once a plan is recorded, the plan serves. -/
theorem servedBy_of_accepted {installed : InstalledSubscriptions} {plan : SubscriptionPlan}
    {opened : List (Option SubscriptionId)} {closed : List SubscriptionId} {id : SubscriptionId}
    {entry : InstalledSubscription}
    (here : (Holding.accepted installed plan opened closed)[id]? = some entry)
    (served : d ∈ entry.serves) : d ∈ servedBy plan := by
  obtain ⟨planned, named, rfl⟩ | ⟨current, -, attributed, found, rfl⟩ :=
    Holding.accepted_eq_some here
  · exact mem_servedBy_of_opens (List.of_mem_zip (Holding.mem_opening.mp named)).1 served
  · exact mem_servedBy_of_attribution found served

/-- A plan of a slot serves what the slot was asked for. -/
theorem asked_of_planned {plan : SubscriptionPlan} (planned : e.planned P s plan)
    (served : d ∈ servedBy plan) : ∃ item ∈ e.demandForSlot s.relay s.generation, item.id = d :=
  (checkDemand_ok.mp (checkDemand_of_validatePlan planned.2)).1 d served

theorem moved_of_visiting {x : RelayUrl × Round} (visited : e.visiting a = some x) :
    e.moved a = e := by
  cases a with
  | visit => rfl
  | _ => cases visited

theorem moved_of_flushing {x : RelayUrl × Round} (flushed : e.flushing a = some x) :
    e.moved a = e := by
  cases a with
  | visit => rfl
  | receive =>
    unfold Engine.flushing at flushed
    dsimp only at flushed
    split at flushed
    · rename_i inbox
      simp only [Engine.moved, Engine.receiving, inbox, List.head?_cons]
    · cases flushed
  | _ => cases flushed

/-- The demand a slot comes to bear is demand it was asked for. -/
theorem SlotChange.bearing (change : SlotChange P e a e' s s') (old : s'.generation ≤ e.rounds)
    {id : SubscriptionId} {entry : InstalledSubscription} (here : s'.installed[id]? = some entry)
    (served : d ∈ entry.serves) : d ∈ e.bearing s ∨
      e.moved a = e ∧ ∃ item ∈ e.demandForSlot s.relay s.generation, item.id = d := by
  cases change with
  | settle | limit | idle | wait | spent | unplanned | install | acquire =>
    exact .inl (mem_bearing.mpr (.inl ⟨id, entry, here, served⟩))
  | join armed visited attached _ _ =>
    subst attached
    obtain ⟨before, here, served⟩ | ⟨item, asked, is, -⟩ := Holding.attach_serves entry here served
    · exact .inl (mem_bearing.mpr (.inl ⟨id, before, here, served⟩))
    · exact .inr ⟨moved_of_visiting visited, item, asked, is⟩
  | retain flushed _ planned _ =>
    exact .inr ⟨moved_of_flushing flushed, asked_of_planned planned (servedBy_of_accepted here served)⟩
  | @record done received relay generation revision =>
    have flying := mem_plans_of_received received
    refine .inl (mem_bearing.mpr (.inr ⟨done, ?_, servedBy_of_accepted here served⟩))
    exact mem_current.mpr ⟨flying, generation.symm, revision⟩
  | refuse | reconnect => exact (Nat.not_succ_le_self _ old).elim

/-- The slot a plan stays current for keeps its revision. -/
theorem SlotChange.revision_eq (change : SlotChange P e a e' s s') (sound : Sound e.core)
    {p : Installing} {opened : List (Option SubscriptionId)}
    (flying : { p with opened := opened } ∈ e.plans) (revision : s'.revision = some p.revision) :
    s.revision = some p.revision := by
  cases change with
  | settle | limit | join | idle | wait | spent | acquire | record | refuse | reconnect =>
    exact revision
  | unplanned | retain | install => exact (not_current_of_issued sound flying revision).elim

/-- Demand a slot bears after a step it bore before, or was asked for. -/
theorem bearing_step (sound : Sound e.core) (stepped : step P e a = some e') (hs' : s' ∈ e'.slots)
    (borne : d ∈ e'.bearing s') : ∃ s ∈ e.slots, s'.relay = s.relay ∧ s'.generation = s.generation ∧
      (d ∈ e.bearing s ∨
        e.moved a = e ∧ ∃ item ∈ e.demandForSlot s.relay s.generation, item.id = d) := by
  have changes := step_slots sound stepped
  obtain ⟨id, entry, here, served⟩ | ⟨p, current, served⟩ := mem_bearing.mp borne
  · obtain kept | ⟨s, hs, change⟩ | ⟨relay, authority, next, -, rfl⟩ := changes.origin hs'
    · exact ⟨s', kept, rfl, rfl, .inl (mem_bearing.mpr (.inl ⟨id, entry, here, served⟩))⟩
    · by_cases old : s'.generation ≤ e.rounds
      · exact ⟨s, hs, change.connection.1, change.generation_eq old, change.bearing old here served⟩
      · -- A slot on a new generation has nothing installed.
        have empty : s'.installed = ∅ := by
          cases change with
          | refuse | reconnect => rfl
          | settle | limit | join | idle | wait | spent | unplanned | retain | install | record
          | acquire => exact (old (sound.issued s.toHolding (List.mem_map.mpr ⟨s, hs, rfl⟩))).elim
        rw [empty, ExtTreeMap.getElem?_empty] at here
        cases here
    · change (∅ : InstalledSubscriptions)[id]? = some entry at here
      rw [ExtTreeMap.getElem?_empty] at here
      cases here
  · obtain ⟨flying', generation, revision⟩ := mem_current.mp current
    obtain ⟨opened, flying⟩ | ⟨t, flushed, found, -, planned, -, is⟩ := step_plans stepped flying'
    · have old : p.generation ≤ e.rounds := (sound.relays _ flying).1
      rw [generation] at old
      obtain kept | ⟨s, hs, change, relay, same⟩ := changes.origin_of_old hs' old
      · exact ⟨s', kept, rfl, rfl, .inl (mem_bearing.mpr (.inr
          ⟨_, mem_current.mpr ⟨flying, generation, revision⟩, served⟩))⟩
      · refine ⟨s, hs, relay, same, .inl (mem_bearing.mpr (.inr ⟨_, mem_current.mpr
          ⟨flying, generation.trans same, change.revision_eq sound flying revision⟩, served⟩))⟩
    · obtain ⟨-, -, before, after, split, -⟩ := Engine.withSlot_slots found
      have inside : t ∈ e.slots := by simp [split]
      rw [is] at generation
      change t.generation = s'.generation at generation
      have old := sound.issued t.toHolding (List.mem_map.mpr ⟨t, inside, rfl⟩)
      rw [generation] at old
      have relay : s'.relay = t.relay := by
        obtain kept | ⟨s, hs, change, relay, same⟩ := changes.origin_of_old hs' old
        · rw [slot_unique sound inside kept generation]
        · rw [relay, slot_unique sound inside hs (generation.trans same)]
      exact ⟨t, inside, relay, generation.symm,
        .inr ⟨moved_of_flushing flushed, asked_of_planned planned served⟩⟩

namespace Registry

variable {r : Registry} {x : RelayDemand × Authority}

theorem mem_desired : x ∈ r.desired relay ↔ ∃ o ∈ r, o.active = true ∧
    ∃ share ∈ o.relays, share.withdrawn = false ∧ share.relay = relay ∧
      x = (share.demand, o.access) := by
  simp only [desired, List.mem_flatMap, List.mem_filter, List.mem_map, Bool.and_eq_true,
    Bool.not_eq_true', decide_eq_true_eq]
  constructor
  · rintro ⟨o, ⟨ho, active⟩, share, ⟨hshare, current, here⟩, rfl⟩
    exact ⟨o, ho, active, share, hshare, current, here, rfl⟩
  · rintro ⟨o, ho, active, share, hshare, current, here, rfl⟩
    exact ⟨o, ⟨ho, active⟩, share, ⟨hshare, current, here⟩, rfl⟩

/-- A relay with desired demand is one of the relays demand names. -/
theorem mem_relays_of_desired (desired : x ∈ r.desired relay) : relay ∈ r.relays := by
  obtain ⟨o, ho, active, share, hshare, current, rfl, -⟩ := mem_desired.mp desired
  rw [relays, ExtTreeSet.mem_toList, ExtTreeSet.mem_ofList, List.contains_iff_mem, List.mem_flatMap]
  refine ⟨o, List.mem_filter.mpr ⟨ho, active⟩, List.mem_map.mpr ⟨share, ?_, rfl⟩⟩
  exact List.mem_filter.mpr ⟨hshare, by simp [current]⟩

theorem Honest.requires (honest : r.Honest access) (desired : x ∈ r.desired relay) :
    x.2 = access x.1.owner := by
  obtain ⟨o, ho, -, share, hshare, -, -, rfl⟩ := mem_desired.mp desired
  exact honest o ho share hshare

end Registry

/-- What the slot is asked for is desired, and borne by the slot or routed to it. -/
theorem mem_demandForSlot (found : e.slot s.relay s.generation = some s) {item : RelayDemand} :
    item ∈ e.demandForSlot s.relay s.generation ↔ ∃ authority,
      (item, authority) ∈ e.registry.desired s.relay ∧
        (s.serves item.id = true ∨ e.route s.relay authority = some s.generation) := by
  rw [Engine.demandForSlot, found]
  simp only [List.mem_map, List.mem_filter, Bool.or_eq_true, Option.any_eq_true, decide_eq_true_eq,
    Prod.exists, exists_and_right, exists_eq_right, Engine.route, Option.map_eq_some_iff]

theorem Placed.asked (placed : Placed access e) (honest : e.registry.Honest access)
    (sound : Sound e.core) (hs : s ∈ e.slots) {item : RelayDemand}
    (asked : item ∈ e.demandForSlot s.relay s.generation) :
    e.route s.relay (access item.owner) = some s.generation := by
  obtain ⟨authority, desired, served | routed⟩ :=
    (mem_demandForSlot (Engine.slot_eq_some sound hs)).mp asked
  · exact placed s hs item.id (mem_bearing.mpr (.inl (serves_iff.mp served)))
  · rw [← honest.requires desired]
    exact routed

theorem slotFor_of_route (sound : Sound e.core) (hs : s ∈ e.slots)
    (routed : e.route relay authority = some s.generation) : e.slotFor relay authority = some s := by
  obtain ⟨t, found, same⟩ := Option.map_eq_some_iff.mp routed
  rw [found, slot_unique sound (List.mem_of_find?_eq_some found) hs same]

/-- A step other than a change of authentication leaves what connections can serve. -/
theorem connections_of_frame (stepped : step P e a = some e') :
    (∃ session authentication, a = .authenticate session authentication ∧ e' = e.moved a) ∨
      e'.connections = e.connections := by
  cases step_frame stepped with
  | observe registry _ result | revive registry _ result | wake _ result =>
    subst result
    exact .inr rfl
  | authenticate session authentication is result =>
    subst is
    exact .inl ⟨session, authentication, rfl, result⟩
  | own _ connections => exact .inr connections

/-- What a slot is searched for by. -/
def Slot.reaches (connections : Session → Authentication) (relay : RelayUrl) (authority : Authority)
    (s : Slot) : Bool := s.relay = relay && s.canServe connections authority

theorem slotFor_eq : e.slotFor relay authority = e.slots.find? (Slot.reaches e.connections relay authority) :=
  rfl

theorem Slot.reaches_congr {connections : Session → Authentication} (same : s'.relay = s.relay)
    (session : s'.session = s.session) (requested : s'.requested = s.requested) :
    s'.reaches connections relay authority = s.reaches connections relay authority := by
  rw [Slot.reaches, Slot.reaches, Slot.canServe, Slot.canServe, same, session, requested]

section Places

variable {before after : List Slot} (sound : Sound e.core) (at' : e.slots = before ++ s :: after)
include sound at'

theorem other_generation (hs' : s' ∈ before ++ after) : s'.generation ≠ s.generation := by
  have apart := sound.apart
  rw [Engine.core, List.map_map, at', (List.perm_middle.map _).nodup_iff, List.map_cons,
    List.nodup_cons] at apart
  exact fun same => apart.1 (List.mem_map.mpr ⟨s', hs', same⟩)

/-- Changing a slot changes it where it stands. -/
theorem withSlot_slots_at (change : Slot → Slot) :
    (e.withSlot s.relay s.generation change).slots = before ++ change s :: after := by
  have is : Engine.isSlot s.relay s.generation s = true := by simp [Engine.isSlot]
  have missed : ∀ c ∈ before, Engine.isSlot s.relay s.generation c = false := by
    intro c hc
    rw [Engine.isSlot, Bool.and_eq_false_iff, decide_eq_false_iff_not, decide_eq_false_iff_not]
    exact .inr (other_generation sound at' (List.mem_append_left _ hc))
  rw [Engine.withSlot, at', adjust_append missed is]

theorem moved_of_acquired {session : Session}
    (received : e.receiving a = some (.acquired s.relay s.generation session)) :
    (e.moved a).slotFor relay authority = (before ++ { s with session := some session } :: after).find?
      (Slot.reaches e.connections relay authority) := by
  have slots := withSlot_slots_at sound at' fun s => { s with session := some session }
  rw [← slots]
  cases a with
  | receive =>
    unfold Engine.moved
    rw [received]
    rfl
  | _ => cases received

theorem moved_of_refused (received : e.receiving a = some (.refused s.relay s.generation)) :
    (e.moved a).slotFor relay authority = (before ++ { s with session := none } :: after).find?
      (Slot.reaches e.connections relay authority) := by
  have slots := withSlot_slots_at sound at' fun s => { s with session := none }
  rw [← slots]
  cases a with
  | receive =>
    unfold Engine.moved
    rw [received]
    rfl
  | _ => cases received

end Places

/-- Demand that is routed to a slot stays routed to it, if the connections allow it. -/
theorem route_step (sound : Sound e.core) (stepped : step P e a = some e') (hs : s ∈ e.slots)
    (hs' : s' ∈ e'.slots) (generation : s'.generation = s.generation)
    (routed : e.route relay authority = some s.generation)
    (steady : (e.moved a).route relay authority = some s.generation) :
    e'.route relay authority = some s.generation := by
  have found := slotFor_of_route sound hs routed
  obtain ⟨-, -, -, rfl⟩ | connections := connections_of_frame stepped
  · exact steady
  rw [slotFor_eq] at found
  rw [Engine.route, slotFor_eq, connections]
  cases step_slots sound stepped with
  | same slots _ => rw [slots, found, Option.map_some]
  | vacate _ slots =>
    rw [slots, find?_filter_of_kept found, Option.map_some]
    rw [slots] at hs'
    obtain ⟨kept, listed⟩ := List.mem_filter.mp hs'
    rw [← slot_unique sound kept hs generation]
    exact listed
  | @release before after t at' _ unwanted slots =>
    have other : s ≠ t := by
      rintro rfl
      rw [slots] at hs'
      exact other_generation sound at' hs' generation
    rw [at'] at found
    rw [slots, find?_remove found other, Option.map_some]
  | establish visited slots new =>
    rw [slots, List.find?_append, found]
    rfl
  | @change before after t t' at' change slots =>
    have away : t'.generation = e.rounds + 1 → s ≠ t := by
      rintro fresh rfl
      rw [slots, List.mem_append, List.mem_cons, or_left_comm, ← List.mem_append] at hs'
      obtain rfl | elsewhere := hs'
      · have old := sound.issued s.toHolding (List.mem_map.mpr ⟨s, hs, rfl⟩)
        rw [← generation, fresh] at old
        exact Nat.not_succ_le_self _ old
      · exact other_generation sound at' elsewhere generation
    rw [at'] at found
    rw [slots]
    obtain ⟨kept, requested, ⟨unmoved, session, -⟩ | ⟨session, received, rfl⟩ |
      ⟨received, -, -, rfl⟩ | ⟨armed, -, rfl⟩⟩ := change.connection
    · rw [map_find?_replace (Slot.reaches_congr kept session requested) unmoved, found, Option.map_some]
    · rw [Engine.route, moved_of_acquired sound at' received] at steady
      rw [← steady]
      exact map_find?_replace (Slot.reaches_congr rfl rfl rfl) rfl
    · rw [Engine.route, moved_of_refused sound at' received] at steady
      obtain ⟨u, found', same⟩ := Option.map_eq_some_iff.mp steady
      have other : u ≠ { t with session := none } := by
        rintro rfl
        exact away rfl (slot_unique sound hs (by simp [at']) same.symm)
      refine Option.map_eq_some_iff.mpr ⟨u, find?_replace_of_ne ?_ found' other, same⟩
      exact Slot.reaches_congr rfl rfl rfl
    · refine Option.map_eq_some_iff.mpr ⟨s, find?_replace_of_ne ?_ found (away rfl), rfl⟩
      exact Slot.reaches_congr rfl rfl rfl

theorem Placed.step (placed : Placed access e) (honest : e.registry.Honest access)
    (sound : Sound e.core) (meets : Steadfast access e a) (stepped : step P e a = some e') :
    Placed access e' := by
  intro s' hs' d borne
  obtain ⟨s, hs, relay, generation, bore | ⟨unmoved, item, asked, rfl⟩⟩ :=
    bearing_step sound stepped hs' borne
  · rw [relay, generation]
    have routed := placed s hs d bore
    exact route_step sound stepped hs hs' generation routed (meets.2.2.1 s hs d bore routed)
  · rw [relay, generation]
    have routed := placed.asked honest sound hs asked
    refine route_step sound stepped hs hs' generation routed ?_
    rw [unmoved]
    exact routed

namespace Engine

variable {u : Engine} {generation : Round}

/-- What remains of the pass, and whether another one is due. -/
def passing (e : Engine) : List Visit × Bool := (e.todo, e.dirty)

theorem pass_flush : (u.flush P relay generation).passing = u.passing := by
  unfold flush execute
  dsimp only
  repeat' split
  all_goals rfl

theorem pass_establish : (u.establish relay authority).passing = u.passing := by
  unfold establish
  repeat' split
  all_goals rfl

theorem pass_foldl_establish (u : Engine) (relay : RelayUrl) (items : List (RelayDemand × Authority)) :
    (items.foldl (fun e (_, authority) =>
      if (e.slotFor relay authority).isNone then e.establish relay authority else e) u).passing =
        u.passing := by
  induction items generalizing u with
  | nil => rfl
  | cons item items ih =>
    rw [List.foldl_cons, ih]
    dsimp only
    split
    · exact pass_establish
    · rfl

theorem pass_visitSlot (u : Engine) (relay : RelayUrl) (generation : Round) :
    (u.visitSlot relay generation).passing = u.passing ∨
    (u.visitSlot relay generation).passing = (.flush relay generation :: u.todo, u.dirty) := by
  unfold visitSlot releaseSlot
  dsimp only
  repeat' split
  all_goals first | exact .inl rfl | exact .inr rfl

theorem pass_carried {id : SubscriptionId} {item : Item} :
    (u.carried P relay generation id item).passing = u.passing := by
  unfold carried storedComplete
  dsimp only
  repeat' split
  all_goals rfl

/-- A report leaves the pass alone, and makes another one due at most. -/
theorem pass_accept (P : Providers) (u : Engine) (report : Report) : (u.accept P report).todo = u.todo ∧
    (u.dirty = true → (u.accept P report).dirty = true) := by
  have kept : (u.accept P report).passing = u.passing → (u.accept P report).todo = u.todo ∧
      (u.dirty = true → (u.accept P report).dirty = true) := by
    intro same
    rw [passing, passing, Prod.mk.injEq] at same
    exact ⟨same.1, fun dirty => same.2.trans dirty⟩
  cases report with
  | acquired relay generation session =>
    apply kept
    simp only [accept, acquired]
    repeat' split
    all_goals rfl
  | refused relay generation =>
    simp only [accept, refused]
    repeat' split
    · exact ⟨rfl, fun dirty => dirty⟩
    · exact ⟨rfl, fun dirty => dirty⟩
    · exact ⟨rfl, fun _ => rfl⟩
  | installed done =>
    apply kept
    simp only [accept, installed]
    repeat' split
    all_goals rfl
  | flush relay generation => exact kept pass_flush
  | connectionReplaced relay generation =>
    apply kept
    simp only [accept, connectionReplaced, reconnected, enterAdmission]
    repeat' split
    all_goals rfl
  | carried relay generation id item => exact kept pass_carried
  | constraints relay generation constraints => exact kept rfl

theorem pass_post {report : Report} (posted : u.post report = some e') (same : u.passing = e.passing) :
    e'.passing = e.passing := by
  unfold post at posted
  rw [Option.ite_none_right_eq_some, Option.some.injEq] at posted
  rw [← same, ← posted.2]
  rfl

end Engine

open Engine in
/-- The pass starts over, opens the slots of a relay, or goes on with what it has still to
visit beside the slot it works on. -/
theorem step_pass (stepped : step P e a = some e') :
    a = .reconcile ∧
        e'.todo = e.registry.relays.map (fun relay => Visit.relay relay (e.registry.desired relay)) ∨
      (∃ relay items rest, e.todo = .relay relay items :: rest ∧ a = .visit ∧
        e' = { e with todo := rest }.visitRelay relay items) ∨
      (∀ v ∈ e.todo, v ∈ e'.todo ∨ ∃ relay generation,
          v = .slot relay generation ∧ e.visiting a = some (relay, generation) ∨
            v = .flush relay generation ∧ e.flushing a = some (relay, generation)) ∧
        (e.dirty = true → e'.dirty = true) := by
  have same : e'.passing = e.passing → (∀ v ∈ e.todo, v ∈ e'.todo ∨ ∃ relay generation,
      v = .slot relay generation ∧ e.visiting a = some (relay, generation) ∨
        v = .flush relay generation ∧ e.flushing a = some (relay, generation)) ∧
      (e.dirty = true → e'.dirty = true) := by
    intro same
    rw [passing, passing, Prod.mk.injEq] at same
    rw [same.1, same.2]
    exact ⟨fun _ => .inl, id⟩
  cases Stepped.of_step stepped with
  | observe | revive | authenticate | deny | subscribe => exact .inr (.inr (same rfl))
  | wake => exact .inr (.inr ⟨fun _ => .inl, fun _ => rfl⟩)
  | reconcile => exact .inl ⟨rfl, rfl⟩
  | @visitRelay relay items rest todo => exact .inr (.inl ⟨relay, items, rest, todo, rfl, rfl⟩)
  | @visitSlot relay generation rest todo =>
    right
    right
    have visited : e.visiting .visit = some (relay, generation) := by rw [visiting, todo]
    rw [todo]
    obtain kept | flushed := pass_visitSlot { e with todo := rest } relay generation
    · rw [passing, passing, Prod.mk.injEq] at kept
      refine ⟨List.forall_mem_cons.mpr ⟨.inr ⟨_, _, .inl ⟨rfl, visited⟩⟩, fun v hv => .inl ?_⟩,
        kept.2.trans⟩
      rw [kept.1]
      exact hv
    · rw [passing, Prod.mk.injEq] at flushed
      refine ⟨List.forall_mem_cons.mpr ⟨.inr ⟨_, _, .inl ⟨rfl, visited⟩⟩, fun v hv => .inl ?_⟩,
        flushed.2.trans⟩
      rw [flushed.1]
      exact List.mem_cons_of_mem _ hv
  | @flush relay generation rest todo =>
    right
    right
    have flushed : e.flushing .visit = some (relay, generation) := by rw [flushing, todo]
    have kept : ({ e with todo := rest }.flush P relay generation).passing =
      { e with todo := rest }.passing := pass_flush
    rw [passing, passing, Prod.mk.injEq] at kept
    rw [todo]
    refine ⟨List.forall_mem_cons.mpr ⟨.inr ⟨_, _, .inr ⟨rfl, flushed⟩⟩, fun v hv => .inl ?_⟩,
      kept.2.trans⟩
    rw [kept.1]
    exact hv
  | @receive report rest =>
    obtain ⟨todo, dirty⟩ := pass_accept P { e with inbox := rest } report
    rw [todo]
    exact .inr (.inr ⟨fun _ => .inl, dirty⟩)
  | acquire _ posted | elapse _ posted | replace _ posted | declare _ posted | finish _ _ posted
  | carry _ _ posted => exact .inr (.inr (same (pass_post posted rfl)))

theorem slotFor_append {u : Engine} {opened : List Slot} (slots : u.slots = e.slots ++ opened)
    (connections : u.connections = e.connections) (reached : (e.slotFor relay authority).isSome = true) :
    (u.slotFor relay authority).isSome = true := by
  rw [slotFor_eq] at reached ⊢
  rw [slots, connections, List.find?_append, Option.isSome_or, reached]
  rfl

/-- Every authority a relay is visited for is reached, unless the rounds are used up. -/
theorem foldl_establish_reaches (u : Engine) (relay : RelayUrl) (items : List (RelayDemand × Authority)) :
    let v := items.foldl (fun e (_, authority) =>
      if (e.slotFor relay authority).isNone then e.establish relay authority else e) u
    u.rounds ≤ v.rounds ∧ (∀ relay' authority, (u.slotFor relay' authority).isSome = true →
        (v.slotFor relay' authority).isSome = true) ∧
      ∀ x ∈ items, 2 ^ 64 - 1 ≤ v.rounds ∨ (v.slotFor relay x.2).isSome = true := by
  induction items generalizing u with
  | nil => exact ⟨Nat.le_refl _, fun _ _ => id, by simp⟩
  | cons item items ih =>
    rw [List.foldl_cons]
    dsimp only
    by_cases unreached : u.slotFor relay item.2 = none
    · rw [if_pos (Option.isNone_iff_eq_none.mpr unreached)]
      obtain ⟨exhausted, same⟩ | new := Engine.establish_eq unreached
      · rw [same]
        obtain ⟨grows, kept, rest⟩ := ih u
        refine ⟨grows, kept, List.forall_mem_cons.mpr ⟨.inl ?_, rest⟩⟩
        have spent : 2 ^ 64 - 1 ≤ u.rounds := by
          unfold allocate at exhausted
          split at exhausted
          · cases exhausted
          · omega
        exact spent.trans grows
      · obtain ⟨grows, kept, rest⟩ := ih (u.establish relay item.2)
        have rounds : u.rounds ≤ (u.establish relay item.2).rounds := by
          rw [new]
          exact Nat.le_succ _
        refine ⟨rounds.trans grows, fun relay' authority reached => kept _ _ ?_,
          List.forall_mem_cons.mpr ⟨.inr (kept _ _ ?_), rest⟩⟩
        · rw [new]
          exact slotFor_append rfl rfl reached
        · rw [new, slotFor_eq, List.find?_append, Option.isSome_or, Bool.or_eq_true]
          right
          rw [List.find?_cons_of_pos (by simp [Slot.reaches, Slot.canServe, Slot.new, Holding.new])]
          rfl
    · have reached : (u.slotFor relay item.2).isSome = true := Option.isSome_iff_ne_none.mpr unreached
      rw [if_neg (by simpa using unreached)]
      obtain ⟨grows, kept, rest⟩ := ih u
      exact ⟨grows, kept, List.forall_mem_cons.mpr ⟨.inr (kept _ _ reached), rest⟩⟩

/-- Desired demand that has a slot keeps one. -/
theorem reached_step (sound : Sound e.core) (stepped : step P e a = some e')
    (connections : e'.connections = e.connections) {x : RelayDemand × Authority}
    (desired : x ∈ e.registry.desired relay) (reached : (e.slotFor relay x.2).isSome = true)
    (steady : ((e.moved a).slotFor relay x.2).isSome = true) :
    e'.dirty = true ∨ (e'.slotFor relay x.2).isSome = true := by
  obtain ⟨t, found⟩ := Option.isSome_iff_exists.mp reached
  have ht : t ∈ e.slots := List.mem_of_find?_eq_some found
  have home : t.relay = relay := by
    have reaches := List.find?_some found
    rw [Bool.and_eq_true, decide_eq_true_eq] at reaches
    exact reaches.1
  rw [slotFor_eq] at found
  rw [slotFor_eq, connections]
  cases step_slots sound stepped with
  | same slots _ => exact .inr (by rw [slots, found]; rfl)
  | vacate _ slots =>
    have listed : decide (t.relay ∈ e.registry.relays) = true := by
      rw [home, decide_eq_true_eq]
      exact Registry.mem_relays_of_desired desired
    rw [slots, find?_filter_of_kept found listed]
    exact .inr rfl
  | @release before after u at' _ unwanted slots =>
    have other : t ≠ u := by
      rintro rfl
      have asked : x.1 ∈ e.demandForSlot t.relay t.generation := by
        refine (mem_demandForSlot (Engine.slot_eq_some sound ht)).mpr ⟨x.2, ?_, .inr ?_⟩
        · rw [home]
          exact desired
        · rw [Engine.route, home, slotFor_eq, found]
          rfl
      rw [unwanted] at asked
      cases asked
    rw [at'] at found
    rw [slots, find?_remove found other]
    exact .inr rfl
  | establish visited slots new =>
    rw [slots, List.find?_append, found]
    exact .inr rfl
  | @change before after u u' at' change slots =>
    have alike : ∀ v : Slot, v.relay = u'.relay → v.session = u'.session →
        v.requested = u'.requested → ((before ++ v :: after).find?
          (Slot.reaches e.connections relay x.2)).isSome = true →
            ((before ++ u' :: after).find? (Slot.reaches e.connections relay x.2)).isSome = true := by
      intro v relay' session requested reached
      rw [← Option.isSome_map (f := fun _ => ())] at reached ⊢
      rw [← map_find?_replace (Slot.reaches_congr relay' session requested) rfl]
      exact reached
    rw [slots]
    obtain ⟨kept, requested, ⟨-, session, -⟩ | ⟨session, received, rfl⟩ | ⟨-, -, dirty, -⟩ |
      ⟨armed, -, rfl⟩⟩ := change.connection
    · refine .inr (alike u kept.symm session.symm requested.symm ?_)
      rw [← at', found]
      rfl
    · rw [moved_of_acquired sound at' received] at steady
      exact .inr (alike { u with session := some session } rfl rfl rfl steady)
    · exact .inl dirty
    · refine .inr (alike u rfl rfl rfl ?_)
      rw [← at', found]
      rfl

theorem Reached.step (reached : Reached e) (sound : Sound e.core) (meets : Steadfast access e a)
    (stepped : step P e a = some e') : Reached e' := by
  obtain ⟨-, returned, -, moves⟩ := meets
  obtain spent | reached := reached
  · exact .inl (spent.trans (step_rounds_le stepped))
  cases step_frame stepped with
  | observe registry _ result =>
    subst result
    exact .inr (.inl rfl)
  | wake _ result =>
    subst result
    exact .inr (.inr (.inl rfl))
  | revive registry is result =>
    subst is result
    obtain changed | dirty | reached := reached
    · exact .inr (.inl changed)
    · exact .inr (.inr (.inl dirty))
    · refine .inr (.inr (.inr fun relay x desired => ?_))
      obtain before | there := returned registry rfl relay (Registry.mem_relays_of_desired desired) x desired
      · exact reached relay x before
      · exact .inr there
  | authenticate session authentication is result =>
    subst is result
    obtain changed | dirty | reached := reached
    · exact .inr (.inl changed)
    · exact .inr (.inr (.inl dirty))
    · refine .inr (.inr (.inr fun relay x desired => ?_))
      obtain waiting | there := reached relay x desired
      · exact .inl waiting
      · exact .inr (moves relay (Registry.mem_relays_of_desired desired) x desired there)
  | own registry connections changed =>
    by_cases dirty' : e'.dirty = true
    · exact .inr (.inr (.inl dirty'))
    obtain ⟨rfl, todo⟩ | ⟨relay, items, rest, todo, -, rfl⟩ | ⟨kept, dirty⟩ := step_pass stepped
    · refine .inr (.inr (.inr fun relay x desired => .inl ⟨e.registry.desired relay, ?_, ?_⟩))
      · rw [todo]
        rw [registry] at desired
        exact List.mem_map.mpr ⟨relay, Registry.mem_relays_of_desired desired, rfl⟩
      · rw [← registry]
        exact desired
    · obtain ⟨-, kept, opened⟩ := foldl_establish_reaches { e with todo := rest } relay items
      have passed := Engine.pass_foldl_establish { e with todo := rest } relay items
      rw [Engine.passing, Engine.passing, Prod.mk.injEq] at passed
      by_cases spent : 2 ^ 64 - 1 ≤ ({ e with todo := rest }.visitRelay relay items).rounds
      · exact .inl spent
      obtain before | old | reached := reached
      · exact .inr (.inl (changed.trans before))
      · exact (dirty' (passed.2.trans old)).elim
      · refine .inr (.inr (.inr fun relay' x desired => ?_))
        rw [registry] at desired
        obtain ⟨items', listed, inside⟩ | there := reached relay' x desired
        · rw [todo, List.mem_cons] at listed
          obtain first | later := listed
          · cases first
            obtain exhausted | there := opened x inside
            · exact (spent exhausted).elim
            · exact .inr there
          · refine .inl ⟨items', List.mem_append_right _ ?_, inside⟩
            rw [passed.1]
            exact later
        · exact .inr (kept relay' x.2 there)
    · obtain before | old | reached := reached
      · exact .inr (.inl (changed.trans before))
      · exact (dirty' (dirty old)).elim
      · refine .inr (.inr (.inr fun relay x desired => ?_))
        rw [registry] at desired
        obtain ⟨items, listed, inside⟩ | there := reached relay x desired
        · obtain listed | ⟨_, _, ⟨is, -⟩ | ⟨is, -⟩⟩ := kept _ listed
          · exact .inl ⟨items, listed, inside⟩
          · cases is
          · cases is
        · have steady := moves relay (Registry.mem_relays_of_desired desired) x desired there
          obtain due | kept := reached_step sound stepped connections desired there steady
          · exact (dirty' due).elim
          · exact .inr kept

theorem honest_step (honest : e.registry.Honest access) (meets : Steadfast access e a)
    (stepped : step P e a = some e') : e'.registry.Honest access := by
  cases step_frame stepped with
  | observe registry is result | revive registry is result =>
    subst is result
    exact meets.1 registry rfl
  | authenticate _ _ _ result | wake _ result =>
    subst result
    exact honest
  | own registry =>
    rw [registry]
    exact honest

theorem run_placed (run : Run (step P) (Steadfast access) .start acts e) :
    Sound e.core ∧ e.registry.Honest access ∧ Placed access e ∧ Reached e := by
  refine run.invariant (fun e => Sound e.core ∧ e.registry.Honest access ∧ Placed access e ∧ Reached e)
    ⟨Engine.start_sound, by simp [Registry.Honest, Engine.start], by simp [Placed, Engine.start],
      .inr (.inr (.inl rfl))⟩ ?_
  rintro e a e' ⟨sound, honest, placed, reached⟩ meets stepped
  exact ⟨step_sound sound stepped, honest_step honest meets stepped,
    placed.step honest sound meets stepped, reached.step sound meets stepped⟩

/-- A slot takes the demand that is routed to it, and no other. -/
theorem Placed.takes_iff (placed : Placed access e) (honest : e.registry.Honest access)
    (hs : s ∈ e.slots) (home : s.relay = relay) {t : Slot} {x : RelayDemand × Authority}
    (desired : x ∈ e.registry.desired relay) (found : e.slotFor relay x.2 = some t) :
    (s.serves x.1.id || (e.slotFor relay x.2).any fun c => c.generation = s.generation) = true ↔
      s.generation = t.generation := by
  rw [found, Option.any_some, Bool.or_eq_true, decide_eq_true_eq]
  constructor
  · rintro (served | same)
    · have routed := placed s hs x.1.id (mem_bearing.mpr (.inl (serves_iff.mp served)))
      change e.route s.relay (access x.1.owner) = some s.generation at routed
      rw [home, ← honest.requires desired, Engine.route, found, Option.map_some,
        Option.some.injEq] at routed
      exact routed.symm
    · exact same.symm
  · exact fun same => .inr same.symm

theorem demandForSlot_eq (found : e.slot relay s.generation = some s) :
    e.demandForSlot relay s.generation = ((e.registry.desired relay).filter fun x =>
      s.serves x.1.id || (e.slotFor relay x.2).any fun c => c.generation = s.generation).map Prod.fst := by
  rw [Engine.demandForSlot, found]

/-- As long as no step takes a slot away from the demand it is in charge of, every pass
leaves the slots of a relay with its demand shared out between them. -/
theorem exclusive_of_steadfast (run : Run (step P) (Steadfast access) .start acts e)
    (done : e.todo = []) (clean : e.dirty = false) (current : e.changed = false)
    (left : e.rounds < 2 ^ 64 - 1) (relay : RelayUrl) : Exclusive e relay := by
  obtain ⟨sound, honest, placed, reached⟩ := run_placed run
  have slotted : ∀ x ∈ e.registry.desired relay, ∃ t, e.slotFor relay x.2 = some t := by
    intro x desired
    obtain spent | changed | dirty | reached := reached
    · omega
    · rw [current] at changed
      cases changed
    · rw [clean] at dirty
      cases dirty
    · obtain ⟨items, waiting, -⟩ | there := reached relay x desired
      · rw [done] at waiting
        cases waiting
      · exact Option.isSome_iff_exists.mp there
  have found : ∀ s ∈ e.slots, s.relay = relay → e.slot relay s.generation = some s := by
    rintro s hs rfl
    exact Engine.slot_eq_some sound hs
  constructor
  · intro s hs t ht home home' apart item first second
    rw [demandForSlot_eq (found s hs home)] at first
    rw [demandForSlot_eq (found t ht home')] at second
    obtain ⟨x, claimed, rfl⟩ := List.mem_map.mp first
    obtain ⟨y, claimed', same⟩ := List.mem_map.mp second
    obtain ⟨desired, takes⟩ := List.mem_filter.mp claimed
    obtain ⟨desired', takes'⟩ := List.mem_filter.mp claimed'
    obtain ⟨u, slotted⟩ := slotted x desired
    have alike : y.2 = x.2 := by
      rw [honest.requires desired, honest.requires desired', same]
    have slotted' := slotted
    rw [← alike] at slotted'
    apply apart
    rw [(placed.takes_iff honest hs home desired slotted).mp takes,
      (placed.takes_iff honest ht home' desired' slotted').mp takes']
  · have shares : ((e.slots.filter fun s => s.relay = relay).flatMap fun s =>
        e.demandForSlot relay s.generation) = ((e.slots.filter fun s => s.relay = relay).flatMap fun s =>
          (e.registry.desired relay).filter fun x => s.serves x.1.id ||
            (e.slotFor relay x.2).any fun c => c.generation = s.generation).map Prod.fst := by
      rw [List.map_flatMap]
      refine List.flatMap_congr fun s hs => ?_
      obtain ⟨hs, home⟩ := List.mem_filter.mp hs
      exact demandForSlot_eq (found s hs (of_decide_eq_true home))
    rw [shares]
    refine List.Perm.map _ (deal_perm fun x desired => ?_)
    obtain ⟨t, slotted⟩ := slotted x desired
    have reaches := List.find?_some slotted
    rw [Bool.and_eq_true] at reaches
    have inside : t ∈ e.slots.filter fun s => s.relay = relay :=
      List.mem_filter.mpr ⟨List.mem_of_find?_eq_some slotted, reaches.1⟩
    have apart : ((e.slots.filter fun s => s.relay = relay).map (·.generation)).Nodup := by
      have apart := sound.apart
      rw [Engine.core, List.map_map] at apart
      exact apart.sublist (List.filter_sublist.map _)
    rw [← List.count_eq_one_of_mem apart (List.mem_map.mpr ⟨t, inside, rfl⟩), List.count,
      List.countP_map]
    refine List.countP_congr fun s hs => ?_
    obtain ⟨hs, home⟩ := List.mem_filter.mp hs
    rw [placed.takes_iff honest hs (of_decide_eq_true home) desired slotted]
    exact beq_iff_eq.symm

section Rerouted

/-- The connection of the only slot is taken by an account, and the owner reconciles
once more. -/
def claimFirst : List Action :=
  openFirst ++ [.authenticate 5 ⟨some 7, .idle⟩, .observe [observes 1], .wake, .reconcile, .visit,
    .visit, .visit]

/-- The pass opens a second slot for the demand, and the first one keeps it. -/
theorem two_slots_claim_one_demand :
    ∃ acts e, Run (step kindProviders) Free .start acts e ∧ e.todo = [] ∧ e.dirty = false ∧
      e.changed = false ∧ e.rounds < 2 ^ 64 - 1 ∧ ¬Exclusive e "wss://relay" := by
  obtain ⟨e, run, checked⟩ := Run.of_any (show (exec (step kindProviders) Free .start
    claimFirst).any (fun e => e.todo.isEmpty && !e.dirty && !e.changed &&
      decide (e.rounds < 2 ^ 64 - 1) && decide (((e.slots.filter fun s => s.relay = "wss://relay").flatMap
        fun s => e.demandForSlot "wss://relay" s.generation).length ≠
          (e.registry.desired "wss://relay").length)) = true by decide +kernel)
  simp only [Bool.and_eq_true, List.isEmpty_iff, Bool.not_eq_true', decide_eq_true_eq] at checked
  obtain ⟨⟨⟨⟨done, clean⟩, unchanged⟩, left⟩, doubled⟩ := checked
  refine ⟨_, e, run, done, clean, unchanged, left, fun exclusive => doubled ?_⟩
  rw [exclusive.exact.length_eq, List.length_map]

theorem exclusive_after_openFirst :
    ∃ e, Run (step kindProviders) (Steadfast fun _ => .unauthenticated) .start openFirst e ∧
      e.registry.desired "wss://relay" ≠ [] ∧ e.todo = [] ∧ Exclusive e "wss://relay" := by
  obtain ⟨e, run, checked⟩ := Run.of_any (show (exec (step kindProviders)
    (Steadfast fun _ => .unauthenticated) .start openFirst).any (fun e =>
      !(e.registry.desired "wss://relay").isEmpty && e.todo.isEmpty && !e.dirty && !e.changed &&
        decide (e.rounds < 2 ^ 64 - 1)) = true by decide +kernel)
  simp only [Bool.and_eq_true, List.isEmpty_iff, Bool.not_eq_true', decide_eq_true_eq,
    List.isEmpty_eq_false_iff] at checked
  obtain ⟨⟨⟨⟨wanted, done⟩, clean⟩, unchanged⟩, left⟩ := checked
  exact ⟨e, run, wanted, done, exclusive_of_steadfast run done clean unchanged left "wss://relay"⟩

end Rerouted

end Fava.Observe
