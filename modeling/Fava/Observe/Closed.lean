import Fava.Observe.Attribution
import Fava.Observe.Completeness
import Fava.Observe.Wire

namespace Fava.Subscriptions

open Std Fava.Lib Fava.Nostr Fava.Relay

/-- The planner puts demand only on running subscriptions that serve it already, or that
ask for all it wants. -/
def SubscriptionPlanner.Attaches (planner : SubscriptionPlanner) : Prop :=
  ∀ relay demand constraints installed revision plan,
    planner.plan relay demand constraints installed revision = .ok plan →
      ∀ (id : SubscriptionId) (a : AttributedSubscription), plan.attribution[id]? = some a →
        ∀ x ∈ a.serves,
          (∃ entry : InstalledSubscription, installed[id]? = some entry ∧ x ∈ entry.serves) ∨
            ∃ d ∈ demand, d.id = x ∧ ∃ f ∈ a.filters, filterCovers f d.filter = true

/-- Both policies do so; the standard one where its texts tell filters apart. -/
theorem planners_attach (encoder : Encoder) :
    (OnePerDemand.planner encoder).Attaches ∧
      ((∀ demand, Distinguishes encoder demand) →
        (StandardSubscriptionPlanner.planner encoder).Attaches) := by
  refine ⟨fun _ _ _ _ _ _ planned => ?_, fun distinct _ demand _ _ _ _ planned => ?_⟩
  · exact ((Observe.single_answered planned).covers Observe.runningHost_lawful).2
  · exact ((Observe.standard_answered (distinct demand) planned).covers Observe.hostFor_lawful).2

end Fava.Subscriptions

namespace Fava.Observe

open Std Fava.Lib Fava.Nostr Fava.Relay Fava.Subscriptions

/-- What is wanted at the relay. -/
def Registry.demandAt (r : Registry) (relay : RelayUrl) : List RelayDemand :=
  (r.desired relay).map Prod.fst

/-- A subscription carries demand it serves, and demand its filters cover. -/
def Carries (entry : InstalledSubscription) (d : RelayDemand) : Prop :=
  d.id ∈ entry.serves ∨ ∃ filter ∈ entry.filters, filterCovers filter d.filter = true

instance (entry : InstalledSubscription) (d : RelayDemand) : Decidable (Carries entry d) :=
  inferInstanceAs (Decidable (_ ∨ _))

/-- Once it is recorded, the plan makes the subscription carry the demand: it retains it
for the demand, or has opened it for demand like this. -/
def Installing.Brings (p : Installing) (id : SubscriptionId) (d : RelayDemand) : Prop :=
  (∃ attributed ∈ p.plan.attribution[id]?, d.id ∈ attributed.serves) ∨
    ∃ o ∈ Holding.opening p.plan.opens p.opened, o.1 = id ∧ Carries ⟨o.2.filters, o.2.serves⟩ d

instance (p : Installing) (id : SubscriptionId) (d : RelayDemand) : Decidable (p.Brings id d) :=
  inferInstanceAs (Decidable (_ ∨ _))

/-- Some of the demand is carried by the subscription, or is about to be. -/
def Engine.Holds (e : Engine) (x : RelayUrl × Token) (demand : List RelayDemand) : Prop :=
  ∃ s ∈ e.slot x.1 x.2.generation, ∃ d ∈ demand,
    (∃ entry ∈ s.installed[x.2.subscription]?, Carries entry d) ∨
      ∃ p ∈ e.current s, p.Brings x.2.subscription d

instance (e : Engine) (x : RelayUrl × Token) (demand : List RelayDemand) :
    Decidable (e.Holds x demand) :=
  inferInstanceAs (Decidable (∃ s ∈ e.slot x.1 x.2.generation, ∃ d ∈ demand,
    (∃ entry ∈ s.installed[x.2.subscription]?, Carries entry d) ∨
      ∃ p ∈ e.current s, p.Brings x.2.subscription d))

/-- The engine beside the subscriptions whose CLOSED it has processed while their slot
was on that generation. -/
structure Closing where
  engine : Engine
  closed : List (RelayUrl × Token)

namespace Closing

def start : Closing := ⟨.start, []⟩

/-- The subscription whose CLOSED the step processes. -/
def closes (e : Engine) (a : Action) : Option (RelayUrl × Token) :=
  match e.carrying a with
  | some (relay, token, .closed _) =>
    if (e.slot relay token.generation).isSome then some (relay, token) else none
  | _ => none

def step (P : Providers) (c : Closing) (a : Action) : Option Closing :=
  (Observe.step P c.engine a).map fun engine => ⟨engine, c.closed ++ (closes c.engine a).toList⟩

/-- A closed subscription carries nothing of what its slot is asked for. -/
structure Over (e : Engine) (closed : RelayUrl × Token) : Prop where
  empty : ∀ s ∈ e.slot closed.1 closed.2.generation, ∀ entry ∈ s.installed[closed.2.subscription]?,
    ∀ d ∈ e.demandForSlot closed.1 closed.2.generation, ¬Carries entry d
  unjoined : ∀ s ∈ e.slot closed.1 closed.2.generation,
    ∀ d ∈ e.demandForSlot closed.1 closed.2.generation,
      Holding.joins s.installed d ≠ some closed.2.subscription
  unplanned : ∀ s ∈ e.slot closed.1 closed.2.generation, ∀ p ∈ e.current s,
    ∀ attributed ∈ p.plan.attribution[closed.2.subscription]?,
      ∀ d ∈ e.demandForSlot closed.1 closed.2.generation, d.id ∉ attributed.serves
  replanned : ∀ s ∈ e.slot closed.1 closed.2.generation,
    ∀ d ∈ e.demandForSlot closed.1 closed.2.generation,
      d ∈ s.uncovered (e.demandForSlot closed.1 closed.2.generation) ∨
        ∃ other ≠ closed.2.subscription, ∃ entry ∈ s.installed[other]?, Carries entry d

/-- CLOSED is processed only of a subscription that carries nothing of what is wanted at
the relay, and nothing that a closed subscription would carry comes to be wanted. -/
def Unwanted (c : Closing) (a : Action) : Prop :=
  (∀ x ∈ closes c.engine a, ¬c.engine.Holds x (c.engine.registry.demandAt x.1)) ∧
    ∀ registry ∈ Engine.observing a, ∀ x ∈ c.closed, ¬c.engine.Holds x (registry.demandAt x.1)

instance (c : Closing) (a : Action) : Decidable (Unwanted c a) :=
  inferInstanceAs (Decidable (
    (∀ x ∈ closes c.engine a, ¬c.engine.Holds x (c.engine.registry.demandAt x.1)) ∧
      ∀ registry ∈ Engine.observing a, ∀ x ∈ c.closed, ¬c.engine.Holds x (registry.demandAt x.1)))

variable {P : Providers} {c c' : Closing} {e e' : Engine} {a : Action} {acts : List Action}
  {s s' : Slot} {x : RelayUrl × Token} {p : Installing} {id : SubscriptionId} {d : RelayDemand}

section Opened

variable {G : Core → Round → Prop} {b b' : Core} {planned : PlannedSubscription}

/-- An installation names a subscription that had its handle already only where it had
named it before: the session mints no identifier twice. -/
theorem opening_of_effect (effect : Effect G b b') (flying : p ∈ b'.plans)
    (named : (id, planned) ∈ Holding.opening p.plan.opens p.opened)
    (opened : ∃ h ∈ b.handles, h.token = ⟨p.generation, id⟩) :
    ∃ before, { p with opened := before } ∈ b.plans ∧
      (id, planned) ∈ Holding.opening p.plan.opens before := by
  cases effect with
  | release | issue | establish | advance | attach | revise | retain =>
    exact ⟨p.opened, flying, named⟩
  | shuffle same => exact ⟨p.opened, same.mem_iff.mp flying, named⟩
  | install at' free lawful added =>
    obtain rfl | old := List.mem_cons.mp (added.mem_iff.mp flying)
    · simp [Holding.opening] at named
    · exact ⟨p.opened, old, named⟩
  | deny short took onto =>
    obtain rfl | old := List.mem_cons.mp (onto.mem_iff.mp flying)
    · rw [Holding.opening_append (List.getElem?_eq_getElem short), Option.map_none, Option.toList_none,
        List.append_nil] at named
      exact ⟨_, took.mem_iff.mpr List.mem_cons_self, named⟩
    · exact ⟨p.opened, took.mem_iff.mpr (List.mem_cons_of_mem _ old), named⟩
  | subscribe next fresh took onto =>
    obtain rfl | old := List.mem_cons.mp (onto.mem_iff.mp flying)
    · rw [Holding.opening_append next, Option.map_some, Option.toList_some, List.mem_append,
        List.mem_singleton, Prod.mk.injEq] at named
      obtain named | ⟨rfl, -⟩ := named
      · exact ⟨_, took.mem_iff.mpr List.mem_cons_self, named⟩
      · obtain ⟨h, hh, token⟩ := opened
        exact (fresh h hh token).elim
    · exact ⟨p.opened, took.mem_iff.mpr (List.mem_cons_of_mem _ old), named⟩
  | discard took | accept took =>
    exact ⟨p.opened, took.mem_iff.mpr (List.mem_cons_of_mem _ flying), named⟩

theorem opening_of_effects (effects : Effects G b b') (flying : p ∈ b'.plans)
    (named : (id, planned) ∈ Holding.opening p.plan.opens p.opened)
    (opened : ∃ h ∈ b.handles, h.token = ⟨p.generation, id⟩) :
    ∃ before, { p with opened := before } ∈ b.plans ∧
      (id, planned) ∈ Holding.opening p.plan.opens before := by
  induction effects generalizing p with
  | refl => exact ⟨p.opened, flying, named⟩
  | tail first effect ih =>
    obtain ⟨h, hh, token⟩ := opened
    obtain ⟨h', hh', token', -⟩ := Effects.opened first hh
    obtain ⟨before, old, named⟩ := opening_of_effect effect flying named ⟨h', hh', token'.trans token⟩
    obtain ⟨earlier, older, named⟩ := ih old named ⟨h, hh, token⟩
    exact ⟨earlier, older, named⟩

end Opened

section Heard

/-- What waits to be processed of a subscription comes from its handle. -/
def Heard (e : Engine) : Prop :=
  ∀ relay generation id item, Report.carried relay generation id item ∈ e.inbox →
    ∃ h ∈ e.handles, h.token = ⟨generation, id⟩

theorem step_opened (stepped : Observe.step P e a = some e') {t : Token}
    (opened : ∃ h ∈ e.handles, h.token = t) : ∃ h ∈ e'.handles, h.token = t := by
  have effects : Effects (fun _ _ => True) e.core e'.core :=
    step_effects (fun _ _ _ => trivial) stepped
  obtain ⟨h, hh, token⟩ := opened
  obtain ⟨h', hh', token', -⟩ := effects.opened hh
  exact ⟨h', hh', token'.trans token⟩

theorem posting_carried {relay : RelayUrl} {generation : Round} {item : Item}
    (posted : e.posting a = some (.carried relay generation id item)) :
    ∃ h ∈ e.handles, h.token = ⟨generation, id⟩ := by
  cases a with
  | carry handle item =>
    simp only [Engine.posting, Option.map_eq_some_iff] at posted
    obtain ⟨h, here, is⟩ := posted
    cases is
    exact ⟨h, List.mem_of_getElem? here, rfl⟩
  | acquire task outcome =>
    simp only [Engine.posting] at posted
    split at posted
    · cases outcome <;> cases posted
    · cases posted
  | elapse task | declare task constraints | replace task =>
    simp only [Engine.posting] at posted
    split at posted <;> cases posted
  | finish task =>
    simp only [Engine.posting, Option.map_eq_some_iff] at posted
    obtain ⟨_, -, is⟩ := posted
    cases is
  | observe | revive | authenticate | wake | reconcile | visit | receive | subscribe => cases posted

theorem Heard.step (heard : Heard e) (stepped : Observe.step P e a = some e') : Heard e' := by
  intro relay generation id item waits
  apply step_opened stepped
  obtain ⟨report, rest, -, inbox, popped, -⟩ | ⟨-, pushed⟩ := step_inbox stepped
  · rw [popped] at waits
    exact heard relay generation id item (by rw [inbox]; exact List.mem_cons_of_mem _ waits)
  · rw [pushed, List.mem_append, Option.mem_toList] at waits
    obtain waits | posted := waits
    · exact heard relay generation id item waits
    · exact posting_carried posted

end Heard

theorem mem_demandAt {relay : RelayUrl} {generation : Round}
    (asked : d ∈ e.demandForSlot relay generation) : d ∈ e.registry.demandAt relay := by
  unfold Engine.demandForSlot at asked
  split at asked
  · cases asked
  · obtain ⟨y, hy, rfl⟩ := List.mem_map.mp asked
    exact List.mem_map.mpr ⟨y, (List.mem_filter.mp hy).1, rfl⟩

/-- Demand joins a subscription whose filters cover it. -/
theorem covers_of_joins {installed : InstalledSubscriptions}
    (joined : Holding.joins installed d = some id) :
    ∃ entry, installed[id]? = some entry ∧ ∃ f ∈ entry.filters, filterCovers f d.filter = true := by
  unfold Holding.joins at joined
  rw [Option.ite_none_left_eq_some, Option.map_eq_some_iff] at joined
  obtain ⟨-, found, first, rfl⟩ := joined
  have covers := List.find?_some first
  exact ⟨found.2, BTreeMap.find_of_first first, List.any_eq_true.mp covers⟩

/-- The slot, by itself, carries some of what is wanted at its relay on this
subscription, or is about to. -/
def Wants (e : Engine) (s : Slot) (id : SubscriptionId) : Prop :=
  ∃ d ∈ e.registry.demandAt s.relay, (∃ entry ∈ s.installed[id]?, Carries entry d) ∨
    ∃ p ∈ e.current s, p.Brings id d

theorem holds_iff (sound : Sound e.core) (member : s ∈ e.slots) :
    e.Holds (s.relay, ⟨s.generation, id⟩) (e.registry.demandAt s.relay) ↔ Wants e s id := by
  have found := Engine.slot_eq_some sound member
  unfold Engine.Holds
  dsimp only
  rw [found]
  exact ⟨fun ⟨_, same, wants⟩ => Option.mem_some.mp same ▸ wants, fun wants => ⟨s, rfl, wants⟩⟩

/-- What a plan for the slot attributes to a subscription, the subscription serves or
covers. -/
theorem wants_of_attributed (attaches : P.planner.Attaches) {plan : SubscriptionPlan}
    (planned : e.planned P s plan) {attributed : AttributedSubscription}
    (found : plan.attribution[id]? = some attributed) (served : d.id ∈ attributed.serves)
    (wanted : d ∈ e.registry.demandAt s.relay) : Wants e s id := by
  obtain ⟨-, -, entry, here, filters⟩ :=
    (P.planner.lawful _ _ _ _ _ _ planned.1).attributes id attributed found
  obtain ⟨entry', here', served⟩ | ⟨d', asked, -, covers⟩ :=
    attaches _ _ _ _ _ _ planned.1 id attributed found d.id served
  · exact ⟨d, wanted, .inl ⟨entry', here', .inl served⟩⟩
  · rw [filters] at covers
    exact ⟨d', mem_demandAt asked, .inl ⟨entry, here, .inr covers⟩⟩

/-- A plan in flight after the step is current to the slot before, unless it is issued by
the step. -/
theorem current_of_change (change : SlotChange P e a e' s s') (sound : Sound e.core)
    {opened : List (Option SubscriptionId)} (flying : { p with opened := opened } ∈ e.plans)
    (generation : p.generation = s'.generation) (revision : s'.revision = some p.revision) :
    { p with opened := opened } ∈ e.current s := by
  cases change with
  | settle | limit | join | idle | wait | spent | record | acquire =>
    exact mem_current.mpr ⟨flying, generation, revision⟩
  | unplanned | retain | install => exact (not_current_of_issued sound flying revision).elim
  | refuse | reconnect =>
    have issued : p.generation ≤ e.rounds := (sound.relays _ flying).1
    rw [generation] at issued
    exact (Nat.not_succ_le_self _ issued).elim

/-- What a subscription carries after a step of its slot, it carried before, or a plan in
flight was about to make it carry. -/
theorem wants_of_entry (change : SlotChange P e a e' s s') (attaches : P.planner.Attaches)
    (old : s'.generation ≤ e.rounds) {entry : InstalledSubscription}
    (here : s'.installed[id]? = some entry) (carries : Carries entry d)
    (wanted : d ∈ e.registry.demandAt s.relay) : Wants e s id := by
  cases change with
  | settle | limit | idle | wait | spent | unplanned | install | acquire =>
    exact ⟨d, wanted, .inl ⟨entry, here, carries⟩⟩
  | join armed visited attached =>
    subst attached
    obtain served | covers := carries
    · obtain ⟨before, here, served⟩ | ⟨d', asked, -, joined⟩ :=
        Holding.attach_serves entry here served
      · exact ⟨d, wanted, .inl ⟨before, here, .inl served⟩⟩
      · obtain ⟨before, here, covers⟩ := covers_of_joins joined
        exact ⟨d', mem_demandAt asked, .inl ⟨before, here, .inr covers⟩⟩
    · have wider : Holding.Widens s.installed (Holding.attach s.settled s.installed
        (e.demandForSlot s.relay s.generation)).1 := Holding.attach_spec.1
      have filters := wider.filters_eq id
      rw [here, Option.map_some] at filters
      obtain ⟨before, here', same⟩ := Option.map_eq_some_iff.mp filters.symm
      rw [← same] at covers
      exact ⟨d, wanted, .inl ⟨before, here', .inr covers⟩⟩
  | retain flushed live planned noop =>
    obtain ⟨_, named, -⟩ | ⟨before, kept, attributed, found, rfl⟩ := Holding.accepted_eq_some here
    · simp [Holding.opening] at named
    · obtain served | covers := carries
      · exact wants_of_attributed attaches planned found served wanted
      · exact ⟨d, wanted, .inl ⟨before, kept, .inr covers⟩⟩
  | @record done received relay generation revision =>
    have current : done ∈ e.current s :=
      mem_current.mpr ⟨mem_plans_of_received received, generation.symm, revision⟩
    obtain ⟨planned, named, rfl⟩ | ⟨before, kept, attributed, found, rfl⟩ :=
      Holding.accepted_eq_some here
    · exact ⟨d, wanted, .inr ⟨done, current, .inr ⟨(id, planned), named, rfl, carries⟩⟩⟩
    · obtain served | covers := carries
      · exact ⟨d, wanted, .inr ⟨done, current, .inl ⟨attributed, found, served⟩⟩⟩
      · exact ⟨d, wanted, .inl ⟨before, kept, .inr covers⟩⟩
  | refuse | reconnect => exact (Nat.not_succ_le_self _ old).elim

/-- A plan that is current to the slot after the step brings the subscription no demand
but what it was about to carry before. -/
theorem wants_of_brings (sound : Sound e.core) (attaches : P.planner.Attaches)
    (stepped : Observe.step P e a = some e') (member : s ∈ e.slots)
    (origin : s' = s ∨ SlotChange P e a e' s s') (generation : s'.generation = s.generation)
    (opened : ∃ h ∈ e.handles, h.token = ⟨s.generation, id⟩) (current : p ∈ e'.current s')
    (brings : p.Brings id d) (wanted : d ∈ e.registry.demandAt s.relay) : Wants e s id := by
  obtain ⟨flying', of, revision⟩ := mem_current.mp current
  have before : ∀ earlier : List (Option SubscriptionId), { p with opened := earlier } ∈ e.plans →
      { p with opened := earlier } ∈ e.current s := by
    intro earlier flying
    obtain rfl | change := origin
    · exact mem_current.mpr ⟨flying, of, revision⟩
    · exact current_of_change change sound flying of revision
  obtain ⟨attributed, found, served⟩ | ⟨⟨id, planned⟩, named, rfl, carries⟩ := brings
  · obtain ⟨earlier, flying⟩ | ⟨t, -, here, -, planned, -, is⟩ := step_plans stepped flying'
    · exact ⟨d, wanted, .inr ⟨_, before earlier flying, .inl ⟨attributed, found, served⟩⟩⟩
    · -- The step issues the plan, for the slot as it is.
      have same : t.generation = s.generation := by
        rw [← generation, ← of, is]
      obtain rfl := slot_unique sound (List.mem_of_find?_eq_some here) member same
      exact wants_of_attributed attaches planned found served wanted
  · have effects : Effects (fun _ _ => True) e.core e'.core :=
      step_effects (fun _ _ _ => trivial) stepped
    have given : ∃ h ∈ e.handles, h.token = ⟨p.generation, id⟩ := by
      rw [of, generation]
      exact opened
    obtain ⟨earlier, flying, named⟩ := opening_of_effects effects flying' named given
    exact ⟨d, wanted, .inr ⟨_, before earlier flying, .inr ⟨_, named, rfl, carries⟩⟩⟩

/-- A step that changes nothing of what is wanted makes no subscription carry any of it
that was not about to. -/
theorem holds_of_step (sound : Sound e.core) (attaches : P.planner.Attaches)
    (stepped : Observe.step P e a = some e') (old : x.2.generation ≤ e.rounds)
    (opened : ∃ h ∈ e.handles, h.token = x.2) (holds : e'.Holds x (e.registry.demandAt x.1)) :
    e.Holds x (e.registry.demandAt x.1) := by
  obtain ⟨s', found, d, wanted, carried⟩ := holds
  obtain ⟨home, of, -⟩ := Engine.withSlot_slots found
  have member := List.mem_of_find?_eq_some found
  have origin : ∃ s ∈ e.slots, (s' = s ∨ SlotChange P e a e' s s') ∧ s'.relay = s.relay ∧
      s'.generation = s.generation := by
    obtain kept | ⟨s, hs, change, relay, generation⟩ :=
      (step_slots sound stepped).origin_of_old member (of.trans_le old)
    · exact ⟨s', kept, .inl rfl, rfl, rfl⟩
    · exact ⟨s, hs, .inr change, relay, generation⟩
  obtain ⟨s, hs, origin, relay, generation⟩ := origin
  obtain ⟨at', g, id⟩ := x
  obtain rfl : s.relay = at' := relay.symm.trans home
  obtain rfl : s.generation = g := generation.symm.trans of
  refine (holds_iff sound hs).mpr ?_
  obtain ⟨entry, here, carries⟩ | ⟨p, current, brings⟩ := carried
  · obtain rfl | change := origin
    · exact ⟨d, wanted, .inl ⟨entry, here, carries⟩⟩
    · exact wants_of_entry change attaches (of.trans_le old) here carries wanted
  · exact wants_of_brings sound attaches stepped hs origin generation opened current brings wanted

/-- What was closed is a subscription that was opened, on a generation that was issued,
and carries nothing that is wanted. -/
structure Gone (e : Engine) (x : RelayUrl × Token) : Prop where
  issued : x.2.generation ≤ e.rounds
  opened : ∃ h ∈ e.handles, h.token = x.2
  free : ¬e.Holds x (e.registry.demandAt x.1)

theorem Gone.step (gone : Gone e x) (sound : Sound e.core) (attaches : P.planner.Attaches)
    (unwanted : ∀ registry ∈ Engine.observing a, ¬e.Holds x (registry.demandAt x.1))
    (stepped : Observe.step P e a = some e') : Gone e' x := by
  refine ⟨gone.issued.trans (step_rounds_le stepped), step_opened stepped gone.opened, fun holds => ?_⟩
  obtain ⟨registry, rfl | rfl⟩ | same := registry_of_step stepped
  · cases stepped
    exact unwanted registry rfl holds
  · cases stepped
    exact unwanted registry rfl holds
  · rw [same] at holds
    exact gone.free (holds_of_step sound attaches stepped gone.issued gone.opened holds)

theorem over_of_gone (gone : Gone e x) : Over e x := by
  have free : ∀ s ∈ e.slot x.1 x.2.generation, ∀ d ∈ e.demandForSlot x.1 x.2.generation,
      ¬((∃ entry ∈ s.installed[x.2.subscription]?, Carries entry d) ∨
        ∃ p ∈ e.current s, p.Brings x.2.subscription d) :=
    fun s found d asked carried => gone.free ⟨s, found, d, mem_demandAt asked, carried⟩
  constructor
  · intro s found entry here d asked carries
    exact free s found d asked (.inl ⟨entry, here, carries⟩)
  · intro s found d asked joined
    obtain ⟨entry, here, covers⟩ := covers_of_joins joined
    exact free s found d asked (.inl ⟨entry, here, .inr covers⟩)
  · intro s found p current attributed attributes d asked served
    exact free s found d asked (.inr ⟨p, current, .inl ⟨attributed, attributes, served⟩⟩)
  · intro s found d asked
    by_cases covered : s.covers d = true
    · right
      obtain ⟨⟨other, entry⟩, listed, carries⟩ := List.any_eq_true.mp covered
      have here : s.installed[other]? = some entry :=
        ExtTreeMap.mem_toList_iff_getElem?_eq_some.mp listed
      rw [Bool.or_eq_true, ExtTreeSet.contains_iff_mem, List.any_eq_true] at carries
      refine ⟨other, ?_, entry, here, carries⟩
      rintro rfl
      exact free s found d asked (.inl ⟨entry, here, carries⟩)
    · left
      exact List.mem_filter.mpr ⟨asked, by simpa using covered⟩

theorem step_eq_some (stepped : step P c a = some c') :
    Observe.step P c.engine a = some c'.engine ∧ c'.closed = c.closed ++ (closes c.engine a).toList := by
  obtain ⟨engine, moved, rfl⟩ := Option.map_eq_some_iff.mp stepped
  exact ⟨moved, rfl⟩

/-- What is processed as closed was opened, on the generation of a slot. -/
theorem gone_of_closes (closing : closes e a = some x) (sound : Sound e.core) (heard : Heard e)
    (free : ¬e.Holds x (e.registry.demandAt x.1)) : Gone e x ∧ Engine.observing a = none := by
  unfold closes at closing
  split at closing
  · rename_i relay token reason carried
    rw [Option.ite_none_right_eq_some, Option.some.injEq] at closing
    obtain ⟨here, rfl⟩ := closing
    obtain ⟨s, found⟩ := Option.isSome_iff_exists.mp here
    obtain ⟨-, generation, -⟩ := Engine.withSlot_slots found
    cases a with
    | receive =>
      rw [Engine.carrying] at carried
      split at carried
      · rename_i inbox
        cases carried
        refine ⟨⟨?_, heard _ _ _ _ (by rw [inbox]; exact List.mem_cons_self), free⟩, rfl⟩
        rw [← generation]
        exact sound.issued s.toHolding (List.mem_map.mpr ⟨s, List.mem_of_find?_eq_some found, rfl⟩)
      · cases carried
    | _ => cases carried
  · cases closing

/-- As long as CLOSED is only processed of subscriptions that carry nothing wanted, and
nothing they would carry comes to be wanted, no closed subscription carries demand. -/
theorem closed_over_of_unwanted (attaches : P.planner.Attaches)
    (run : Run (step P) Unwanted start acts c) : ∀ x ∈ c.closed, Over c.engine x := by
  suffices all : Sound c.engine.core ∧ Heard c.engine ∧ ∀ x ∈ c.closed, Gone c.engine x from
    fun x hx => over_of_gone (all.2.2 x hx)
  refine run.invariant
    (fun c => Sound c.engine.core ∧ Heard c.engine ∧ ∀ x ∈ c.closed, Gone c.engine x)
    ⟨Engine.start_sound, by simp [Heard, start, Engine.start], by simp [start]⟩ ?_
  rintro c a c' ⟨sound, heard, gone⟩ ⟨closing, back⟩ stepped
  obtain ⟨moved, closed⟩ := step_eq_some stepped
  refine ⟨step_sound sound moved, heard.step moved, fun x hx => ?_⟩
  rw [closed, List.mem_append, Option.mem_toList] at hx
  obtain old | new := hx
  · exact (gone x old).step sound attaches (fun registry observed => back registry observed x old) moved
  · obtain ⟨gone, quiet⟩ := gone_of_closes new sound heard (closing x new)
    refine gone.step sound attaches (fun registry observed => ?_) moved
    rw [quiet] at observed
    cases observed

section Refused

def refusal : Item := .closed ⟨"blocked", 0⟩

/-- The relay closes the first subscription after it was recorded. -/
def closeRecorded : List Action := openFirst ++ [.carry 0 refusal, .receive]

def singleProviders : Providers :=
  ⟨OnePerDemand.planner kindEncoder, fun _ => true, fun _ _ => true⟩

/-- The relay closes the first subscription when another kind is observed; the owner
attends to the new observation. -/
def closeUnwanted : List Action :=
  openFirst ++ [.observe [observes 2], .carry 0 refusal, .receive, .wake, .reconcile, .visit, .visit,
    .visit]

/-- The closed subscription still carries the demand it was opened for. -/
theorem closed_subscription_still_carries :
    ∃ acts c, Run (step singleProviders) Free start acts c ∧ ∃ x ∈ c.closed, ¬Over c.engine x := by
  obtain ⟨c, run, checked⟩ := Run.of_any (show (exec (step singleProviders) Free start
    closeRecorded).any (fun c => c.closed.any fun x =>
      (c.engine.slot x.1 x.2.generation).any fun s => (s.installed[x.2.subscription]?).any fun entry =>
        (c.engine.demandForSlot x.1 x.2.generation).any fun d => decide (Carries entry d)) = true by
    decide +kernel)
  obtain ⟨x, closed, checked⟩ := List.any_eq_true.mp checked
  obtain ⟨s, found, checked⟩ := (Option.any_eq_true _ _).mp checked
  obtain ⟨entry, here, checked⟩ := (Option.any_eq_true _ _).mp checked
  obtain ⟨d, asked, carries⟩ := List.any_eq_true.mp checked
  refine ⟨_, c, run, x, closed, fun ended => ?_⟩
  exact ended.empty s found entry here d asked (of_decide_eq_true carries)

theorem closed_over_when_unwanted :
    ∃ c, Run (step singleProviders) Unwanted start closeUnwanted c ∧
      (∃ x ∈ c.closed, ∃ s ∈ c.engine.slot x.1 x.2.generation, x.2.subscription ∈ s.installed ∧
        c.engine.demandForSlot x.1 x.2.generation ≠ [] ∧ c.engine.current s ≠ []) ∧
      ∀ x ∈ c.closed, Over c.engine x := by
  obtain ⟨c, run, checked⟩ := Run.of_any (show (exec (step singleProviders) Unwanted start
    closeUnwanted).any (fun c => c.closed.any fun x =>
      (c.engine.slot x.1 x.2.generation).any fun s => s.installed.contains x.2.subscription &&
        !(c.engine.demandForSlot x.1 x.2.generation).isEmpty && !(c.engine.current s).isEmpty) = true by
    decide +kernel)
  obtain ⟨x, closed, checked⟩ := List.any_eq_true.mp checked
  obtain ⟨s, found, checked⟩ := (Option.any_eq_true _ _).mp checked
  simp only [Bool.and_eq_true, Bool.not_eq_true', List.isEmpty_eq_false_iff,
    ExtTreeMap.contains_iff_mem] at checked
  obtain ⟨⟨installed, asked⟩, flying⟩ := checked
  exact ⟨c, run, ⟨x, closed, s, found, installed, asked, flying⟩,
    closed_over_of_unwanted (planners_attach kindEncoder).1 run⟩

end Refused

end Closing

end Fava.Observe
