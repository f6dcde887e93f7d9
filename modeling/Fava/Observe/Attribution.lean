import Fava.Observe.EarlyTraffic
import Fava.Observe.Sessions

namespace Fava.Observe

open Std Fava.Lib Fava.Nostr Fava.Relay Fava.Subscriptions

/-- Somebody wants this demand at the relay. -/
def Registry.wants (r : Registry) (relay : RelayUrl) (d : DemandId) : Bool :=
  (r.desired relay).any fun x => x.1.id = d

/-- Demand that recording the plan would take away from subscriptions that stay. -/
def drops (plan : SubscriptionPlan) (installed : InstalledSubscriptions) : List DemandId :=
  installed.toList.flatMap fun e =>
    match plan.attribution[e.1]? with
    | none => []
    | some attributed => e.2.serves.toList.filter fun d => !attributed.serves.contains d

theorem mem_drops {plan : SubscriptionPlan} {installed : InstalledSubscriptions} {d : DemandId} :
    d ∈ drops plan installed ↔ ∃ (id : SubscriptionId) (entry : InstalledSubscription)
      (attributed : AttributedSubscription), installed[id]? = some entry ∧
        plan.attribution[id]? = some attributed ∧ d ∈ entry.serves ∧ d ∉ attributed.serves := by
  rw [drops, List.mem_flatMap]
  constructor
  · rintro ⟨⟨id, entry⟩, listed, dropped⟩
    dsimp only at dropped
    split at dropped
    · cases dropped
    · rename_i attributed found
      obtain ⟨served, left⟩ := List.mem_filter.mp dropped
      refine ⟨id, entry, attributed, ExtTreeMap.mem_toList_iff_getElem?_eq_some.mp listed, found,
        ExtTreeSet.mem_toList.mp served, fun kept => ?_⟩
      rw [ExtTreeSet.contains_iff_mem.mpr kept] at left
      cases left
  · rintro ⟨id, entry, attributed, here, found, served, left⟩
    refine ⟨(id, entry), ExtTreeMap.mem_toList_iff_getElem?_eq_some.mpr here, ?_⟩
    dsimp only
    rw [found]
    refine List.mem_filter.mpr ⟨ExtTreeSet.mem_toList.mpr served, ?_⟩
    rw [Bool.not_eq_true', ← Bool.not_eq_true, ExtTreeSet.contains_iff_mem]
    exact left

namespace Engine

/-- The plans in flight whose report the slot would accept. -/
def current (e : Engine) (s : Slot) : List Installing :=
  e.plans.filter fun p => p.generation = s.generation && s.revision = some p.revision

/-- What the planner answers to the demand of a slot. -/
def answer (P : Providers) (e : Engine) (s : Slot) : Option SubscriptionPlan :=
  (P.planner.plan s.relay (e.demandForSlot s.relay s.generation) s.constraints s.installed
    (e.revisions + 1)).toOption

def observing : Action → Option Registry
  | .observe registry | .revive registry => some registry
  | _ => none

end Engine

/-- A plan leaves the demand it was asked for where it is served. -/
def PlansKeep (P : Providers) (e : Engine) (a : Action) : Prop :=
  ∀ x ∈ e.flushing a, ∀ s ∈ e.slot x.1 x.2, ∀ plan ∈ e.answer P s,
    ∀ d ∈ drops plan s.installed, (requestedIds (e.demandForSlot x.1 x.2)).contains d = false

/-- No demand joins a subscription that a plan in flight retains. -/
def JoinsAfter (e : Engine) (a : Action) : Prop :=
  ∀ x ∈ e.visiting a, ∀ s ∈ e.slot x.1 x.2, ∀ p ∈ e.current s, ∀ d ∈ e.demandForSlot x.1 x.2,
    ∀ id ∈ Holding.joins s.installed d, p.plan.attribution.contains id = false

/-- No demand that a plan in flight leaves out comes back to a subscription it retains. -/
def ReturnsAfter (e : Engine) (a : Action) : Prop :=
  ∀ registry ∈ Engine.observing a, ∀ s ∈ e.slots, ∀ p ∈ e.current s,
    ∀ d ∈ drops p.plan s.installed, registry.wants s.relay d = false

def Unraced (P : Providers) (e : Engine) (a : Action) : Prop :=
  PlansKeep P e a ∧ JoinsAfter e a ∧ ReturnsAfter e a

instance (P : Providers) (e : Engine) (a : Action) : Decidable (Unraced P e a) :=
  inferInstanceAs (Decidable ((∀ x ∈ e.flushing a, ∀ s ∈ e.slot x.1 x.2, ∀ plan ∈ e.answer P s,
    ∀ d ∈ drops plan s.installed, (requestedIds (e.demandForSlot x.1 x.2)).contains d = false) ∧
    (∀ x ∈ e.visiting a, ∀ s ∈ e.slot x.1 x.2, ∀ p ∈ e.current s, ∀ d ∈ e.demandForSlot x.1 x.2,
      ∀ id ∈ Holding.joins s.installed d, p.plan.attribution.contains id = false) ∧
    ∀ registry ∈ Engine.observing a, ∀ s ∈ e.slots, ∀ p ∈ e.current s,
      ∀ d ∈ drops p.plan s.installed, registry.wants s.relay d = false))

/-- Every subscription that stays on record keeps the demand somebody still wants, and
so tells its owner what it carries. -/
def NothingLost (e e' : Engine) : Prop :=
  ∀ s ∈ e.slots, ∀ s' ∈ e'.slots, s'.relay = s.relay → s'.generation = s.generation →
    ∀ (id : SubscriptionId) (entry entry' : InstalledSubscription),
      s.installed[id]? = some entry → s'.installed[id]? = some entry' → ∀ d ∈ entry.serves,
        e.registry.wants s.relay d = true → d ∈ entry'.serves ∧ d.owner ∈ s'.owners id

/-- Recording a plan in flight would take nothing away that somebody wants. -/
def Merges (e : Engine) : Prop :=
  ∀ s ∈ e.slots, ∀ p ∈ e.current s, ∀ d ∈ drops p.plan s.installed,
    e.registry.wants s.relay d = false

variable {P : Providers} {e e' : Engine} {a : Action} {acts : List Action} {s s' : Slot}

theorem mem_current {p : Installing} : p ∈ e.current s ↔
    p ∈ e.plans ∧ p.generation = s.generation ∧ s.revision = some p.revision := by
  rw [Engine.current, List.mem_filter, Bool.and_eq_true, decide_eq_true_eq, decide_eq_true_eq]

theorem mem_plans_of_received {done : Installing}
    (received : e.receiving a = some (.installed done)) : done ∈ e.plans := by
  obtain ⟨rfl, rest, inbox⟩ := Engine.receiving_eq_some.mp received
  refine List.mem_append_right _ (List.mem_filterMap.mpr ⟨.installed done, ?_, rfl⟩)
  rw [inbox]
  exact List.mem_cons_self

/-- Demand that is served by the slot and wanted is among what the slot is asked for. -/
theorem requested_of_served (found : e.slot s.relay s.generation = some s) {d : DemandId}
    (served : s.serves d = true) (wanted : e.registry.wants s.relay d = true) :
    (requestedIds (e.demandForSlot s.relay s.generation)).contains d = true := by
  obtain ⟨⟨item, authority⟩, desired, is⟩ := List.any_eq_true.mp wanted
  rw [decide_eq_true_eq] at is
  subst is
  have member : item ∈ e.demandForSlot s.relay s.generation := by
    rw [Engine.demandForSlot, found]
    refine List.mem_map.mpr ⟨(item, authority), List.mem_filter.mpr ⟨desired, ?_⟩, rfl⟩
    rw [Bool.or_eq_true]
    exact .inl served
  rw [contains_requestedIds]
  exact ⟨item, member, rfl⟩

theorem serves_of_entry {id : SubscriptionId} {entry : InstalledSubscription} {d : DemandId}
    (here : s.installed[id]? = some entry) (served : d ∈ entry.serves) : s.serves d = true :=
  List.any_eq_true.mpr ⟨(id, entry), ExtTreeMap.mem_toList_iff_getElem?_eq_some.mpr here,
    ExtTreeSet.contains_iff_mem.mpr served⟩

/-- A plan that was asked for takes nothing away that somebody wants. -/
theorem keeps_of_plansKeep (keep : PlansKeep P e a)
    (flushed : e.flushing a = some (s.relay, s.generation))
    (found : e.slot s.relay s.generation = some s) {plan : SubscriptionPlan}
    (planned : e.planned P s plan) :
    ∀ d ∈ drops plan s.installed, e.registry.wants s.relay d = false := by
  intro d dropped
  have answered : plan ∈ e.answer P s := by
    rw [Engine.answer, planned.1]
    rfl
  have unasked := keep _ flushed s found plan answered d dropped
  rw [Bool.eq_false_iff]
  intro wanted
  obtain ⟨id, entry, attributed, here, -, served, -⟩ := mem_drops.mp dropped
  rw [requested_of_served found (serves_of_entry here served) wanted] at unasked
  cases unasked

/-- Recording a plan keeps of each subscription what the plan attributes to it. -/
theorem kept_of_accepted {installed : InstalledSubscriptions} {plan : SubscriptionPlan}
    {opened : List (Option SubscriptionId)} {closed : List SubscriptionId} {id : SubscriptionId}
    {entry entry' : InstalledSubscription} (new : some id ∉ opened)
    (here : installed[id]? = some entry)
    (here' : (Holding.accepted installed plan opened closed)[id]? = some entry') {d : DemandId}
    (served : d ∈ entry.serves) : d ∈ entry'.serves ∨ d ∈ drops plan installed := by
  obtain ⟨planned, named, -⟩ | ⟨kept, -⟩ := BTreeMap.insertAll_eq_some here'
  · exact (new (Holding.opened_of_opening named)).elim
  · rw [ExtTreeMap.getElem?_filterMap', here, Option.bind_some, Option.ite_none_left_eq_some,
      Option.map_eq_some_iff] at kept
    obtain ⟨-, attributed, found, rfl⟩ := kept
    by_cases inside : d ∈ attributed.serves
    · exact .inl inside
    · exact .inr (mem_drops.mpr ⟨id, entry, attributed, here, found, served, inside⟩)

/-- The demand of an entry is still there after a step of its slot. -/
theorem SlotChange.kept (change : SlotChange P e a e' s s') (sound : Sound e.core)
    (member : s ∈ e.slots) (old : s'.generation ≤ e.rounds) (keep : PlansKeep P e a)
    (merges : Merges e) {id : SubscriptionId} {entry entry' : InstalledSubscription}
    (here : s.installed[id]? = some entry) (here' : s'.installed[id]? = some entry') {d : DemandId}
    (served : d ∈ entry.serves) (wanted : e.registry.wants s.relay d = true) :
    d ∈ entry'.serves := by
  have found := Engine.slot_eq_some sound member
  have still : s'.installed = s.installed → d ∈ entry'.serves := by
    intro equal
    rw [equal, here, Option.some.injEq] at here'
    rw [← here']
    exact served
  cases change with
  | settle | limit | idle | wait | spent | unplanned | install | acquire => exact still rfl
  | join armed visited attached still arms =>
    subst attached
    obtain ⟨wider, here'', sub⟩ := Holding.attach_spec.1.serves id entry here
    have equal := here''.symm.trans here'
    rw [Option.some.injEq] at equal
    rw [← equal]
    exact sub d served
  | retain flushed live planned noop =>
    obtain kept | dropped := kept_of_accepted (by simp) here here' served
    · exact kept
    · rw [keeps_of_plansKeep keep flushed found planned d dropped] at wanted
      cases wanted
  | @record done received relay generation revision =>
    have flying := mem_plans_of_received received
    have new : some id ∉ done.opened := by
      intro named
      refine sound.not_installed_of_opened flying (h := s.toHolding)
        (List.mem_map.mpr ⟨s, member, rfl⟩) generation named ?_
      exact ExtTreeMap.mem_iff_isSome_getElem?.mpr (Option.isSome_of_eq_some here)
    obtain kept | dropped := kept_of_accepted new here here' served
    · exact kept
    · rw [merges s member done (mem_current.mpr ⟨flying, generation.symm, revision⟩) d dropped]
        at wanted
      cases wanted
  | refuse | reconnect => exact (Nat.not_succ_le_self _ old).elim

theorem nothingLost_step (sound : Sound e.core) (keep : PlansKeep P e a) (merges : Merges e)
    (stepped : step P e a = some e') : NothingLost e e' := by
  intro s hs s' hs' _ generation id entry entry' here here' d served wanted
  suffices inside : d ∈ entry'.serves from
    ⟨inside, (Engine.mem_owners here').mpr (List.mem_map.mpr ⟨d, ExtTreeSet.mem_toList.mpr inside, rfl⟩)⟩
  have old := sound.issued s.toHolding (List.mem_map.mpr ⟨s, hs, rfl⟩)
  rw [← generation] at old
  obtain kept | ⟨t, ht, change, -, same⟩ := (step_slots sound stepped).origin_of_old hs' old
  · obtain rfl := slot_unique sound kept hs generation
    rw [here, Option.some.injEq] at here'
    rw [← here']
    exact served
  · obtain rfl := slot_unique sound hs ht (generation.symm.trans same)
    exact change.kept sound hs old keep merges here here' served wanted

/-- A step that issues a revision leaves no older plan current. -/
theorem not_current_of_issued (sound : Sound e.core) {p : Installing} {opened : List (Option SubscriptionId)}
    (flying : { p with opened := opened } ∈ e.plans) (revision : some (e.revisions + 1) = some p.revision) :
    False := by
  have latest := sound.latest.1 _ flying
  rw [Option.some.injEq] at revision
  change p.revision ≤ e.revisions at latest
  omega

/-- Plans that were in flight take away no more than before. -/
theorem SlotChange.merges (change : SlotChange P e a e' s s') (sound : Sound e.core)
    (stepped : step P e a = some e') (member : s ∈ e.slots) (join : JoinsAfter e a)
    (merges : Merges e) {p : Installing} {opened : List (Option SubscriptionId)}
    (flying : { p with opened := opened } ∈ e.plans) (flying' : p ∈ e'.plans)
    (generation : p.generation = s'.generation) (revision : s'.revision = some p.revision)
    {d : DemandId} (dropped : d ∈ drops p.plan s'.installed) :
    e.registry.wants s.relay d = false := by
  have found := Engine.slot_eq_some sound member
  have still : s'.generation = s.generation → s'.revision = s.revision →
      d ∈ drops p.plan s.installed → e.registry.wants s.relay d = false := by
    intro same unrevised before
    refine merges s member { p with opened := opened } ?_ d before
    exact mem_current.mpr ⟨flying, generation.trans same, unrevised.symm.trans revision⟩
  cases change with
  | settle | limit | idle | wait | spent | acquire => exact still rfl rfl dropped
  | join armed visited attached _ arms =>
    subst attached
    obtain ⟨id, entry, attributed, here, found', served, left⟩ := mem_drops.mp dropped
    obtain ⟨before, here, served⟩ | ⟨item, asked, -, joined⟩ :=
      Holding.attach_serves entry here served
    · exact still rfl rfl (mem_drops.mpr ⟨id, before, attributed, here, found', served, left⟩)
    · have current : { p with opened := opened } ∈ e.current s :=
        mem_current.mpr ⟨flying, generation, revision⟩
      have absent : p.plan.attribution.contains id = false :=
        join _ visited s found _ current item asked id joined
      rw [ExtTreeMap.contains_iff_mem.mpr
        (ExtTreeMap.mem_iff_isSome_getElem?.mpr (Option.isSome_of_eq_some found'))] at absent
      cases absent
  | unplanned | retain | install => exact (not_current_of_issued sound flying revision).elim
  | @record done received relay of expected =>
    -- The plan that was recorded is not in flight any more, and no other has its revision.
    have took := plans_of_installed received stepped
    have apart := sound.revised
    change (e.plans.map Installing.revision).Nodup at apart
    rw [(took.map _).nodup_iff, List.map_cons, List.nodup_cons] at apart
    refine (apart.1 (List.mem_map.mpr ⟨p, flying', ?_⟩)).elim
    have equal : s.revision = some p.revision := revision
    rw [expected, Option.some.injEq] at equal
    exact equal.symm
  | refuse | reconnect =>
    have issued : p.generation ≤ e.rounds := (sound.relays _ flying).1
    rw [generation] at issued
    exact (Nat.not_succ_le_self _ issued).elim

/-- The plan the step issues was made of what the slot serves. -/
theorem SlotChange.merges_issued (change : SlotChange P e a e' s s') (sound : Sound e.core)
    (member : s ∈ e.slots) (keep : PlansKeep P e a)
    (flushed : e.flushing a = some (s.relay, s.generation)) {plan : SubscriptionPlan}
    (planned : e.planned P s plan) (opens : plan.isNoop = false)
    (revision : s'.revision = some (e.revisions + 1)) {d : DemandId}
    (dropped : d ∈ drops plan s'.installed) : e.registry.wants s.relay d = false := by
  have found := Engine.slot_eq_some sound member
  have unissued : s.revision = some (e.revisions + 1) → e.registry.wants s.relay d = false := by
    intro issued
    have latest := sound.latest.2 s.toHolding (List.mem_map.mpr ⟨s, member, rfl⟩) _ issued
    exact (Nat.not_succ_le_self _ latest).elim
  cases change with
  | install => exact keeps_of_plansKeep keep flushed found planned d dropped
  | unplanned _ _ refused => exact (refused plan planned).elim
  | retain _ _ planned' noop =>
    have equal := planned'.1.symm.trans planned.1
    rw [Except.ok.injEq] at equal
    rw [equal, opens] at noop
    cases noop
  | settle | limit | join | idle | wait | spent | acquire | record | refuse | reconnect =>
    exact unissued revision

/-- Only the application, and reports that revive a share, change what is wanted. -/
theorem registry_of_step (stepped : step P e a = some e') :
    (∃ registry, a = .observe registry ∨ a = .revive registry) ∨ e'.registry = e.registry := by
  cases step_frame stepped with
  | observe registry is => exact .inl ⟨registry, .inl is⟩
  | revive registry is => exact .inl ⟨registry, .inr is⟩
  | authenticate _ _ _ result | wake _ result => exact .inr (by rw [result])
  | own registry => exact .inr registry

theorem merges_step (sound : Sound e.core) (meets : Unraced P e a) (merges : Merges e)
    (stepped : step P e a = some e') : Merges e' := by
  obtain ⟨keep, join, back⟩ := meets
  intro s' hs' p current d dropped
  obtain ⟨flying', generation, revision⟩ := mem_current.mp current
  obtain ⟨registry, rfl | rfl⟩ | same := registry_of_step stepped
  · cases stepped
    exact back registry rfl s' hs' p current d dropped
  · cases stepped
    exact back registry rfl s' hs' p current d dropped
  rw [same]
  obtain ⟨opened, flying⟩ | ⟨t, flushed, found, live, planned, opens, is⟩ := step_plans stepped flying'
  · have old : p.generation ≤ e.rounds := (sound.relays _ flying).1
    rw [generation] at old
    obtain kept | ⟨s, hs, change, relay, -⟩ := (step_slots sound stepped).origin_of_old hs' old
    · exact merges s' kept _ (mem_current.mpr ⟨flying, generation, revision⟩) d dropped
    · rw [relay]
      exact change.merges sound stepped hs join merges flying flying' generation revision dropped
  · obtain ⟨-, -, before, after, split, -⟩ := Engine.withSlot_slots found
    have inside : t ∈ e.slots := by simp [split]
    have old := sound.issued t.toHolding (List.mem_map.mpr ⟨t, inside, rfl⟩)
    rw [is] at generation revision
    change t.generation = s'.generation at generation
    rw [generation] at old
    obtain kept | ⟨s, hs, change, relay, same⟩ := (step_slots sound stepped).origin_of_old hs' old
    · have latest := sound.latest.2 s'.toHolding (List.mem_map.mpr ⟨s', kept, rfl⟩) _ revision
      exact (Nat.not_succ_le_self _ latest).elim
    · obtain rfl := slot_unique sound inside hs (generation.trans same)
      rw [relay]
      exact change.merges_issued sound hs keep flushed planned opens revision dropped

theorem run_merges (run : Run (step P) (Unraced P) .start acts e) : Sound e.core ∧ Merges e := by
  refine run.invariant (fun e => Sound e.core ∧ Merges e)
    ⟨Engine.start_sound, by simp [Merges, Engine.start]⟩ ?_
  rintro e a e' ⟨sound, merges⟩ meets stepped
  exact ⟨step_sound sound stepped, merges_step sound meets merges stepped⟩

/-- As long as nothing joins or comes back behind a plan in flight, and plans keep what
they were asked for, no step takes wanted demand from a subscription that stays. -/
theorem nothingLost_of_unraced (run : Run (step P) (Unraced P) .start acts e)
    (meets : Unraced P e a) (stepped : step P e a = some e') : NothingLost e e' := by
  obtain ⟨sound, merges⟩ := run_merges run
  exact nothingLost_step sound meets.1 merges stepped

section Planners

variable {relay : RelayUrl} {revision : Nat} {constraints : RelayReadConstraints}
  {installed : InstalledSubscriptions} {encoder : Encoder}

/-- A plan that keeps the owners of running subscriptions drops only demand it does not
admit. -/
theorem not_admitted_of_drops {admissible : List RelayDemand} {opened : List PlannedSubscription}
    {attached : Attached} {shortfalls : List SubscriptionShortfall} {d : DemandId}
    (dropped : d ∈ drops (assemble relay revision opened constraints installed
      (survivingOwners admissible installed attached) shortfalls) installed) :
    d ∉ requestedIds admissible := by
  obtain ⟨id, entry, attributed, here, found, served, left⟩ := mem_drops.mp dropped
  obtain ⟨serves, entry', owned, -, rfl⟩ := attributed_eq_some.mp found
  obtain ⟨entry'', here'', -, owns⟩ := survivingOwners_eq_some.mp owned
  rw [here, Option.some.injEq] at here''
  subst here''
  intro admitted
  exact left ((owns d).mpr (.inl ⟨served, admitted⟩))

/-- The plans of the standard policy keep what they were asked for, as long as the relay
declares no limit that the demand exceeds. -/
theorem plansKeep_of_standard (standard : P.planner = StandardSubscriptionPlanner.planner encoder)
    (within : ∀ x ∈ e.flushing a, ∀ s ∈ e.slot x.1 x.2, ∀ d ∈ e.demandForSlot x.1 x.2,
      withinLimit s.constraints d = true) : PlansKeep P e a := by
  intro x flushed s found plan answered d dropped
  obtain ⟨relay, generation, -⟩ := Engine.withSlot_slots found
  rw [Engine.answer, standard, relay, generation] at answered
  have made : StandardSubscriptionPlanner.plan encoder x.1 (e.demandForSlot x.1 x.2) s.constraints
      s.installed (e.revisions + 1) = .ok plan := by
    generalize eq : (StandardSubscriptionPlanner.planner encoder).plan x.1 (e.demandForSlot x.1 x.2)
      s.constraints s.installed (e.revisions + 1) = made at answered
    cases made with
    | error error => cases answered
    | ok made =>
      cases answered
      exact eq
  obtain ⟨candidates, shortfalls, -, opened, attached, -, rfl⟩ :=
    StandardSubscriptionPlanner.plan_eq_ok made
  have refused := not_admitted_of_drops dropped
  rw [← Bool.not_eq_true, contains_requestedIds]
  rintro ⟨item, asked, rfl⟩
  apply refused
  exact mem_requestedIds.mpr ⟨item, List.mem_filter.mpr ⟨asked, within x flushed s found item asked⟩,
    rfl⟩

end Planners

section Joined

/-- Somebody else observes a kind at the relay. -/
def observesAs (owner kind : Nat) : Observation :=
  ⟨owner, .unauthenticated, true, [⟨"wss://relay",
    ⟨owner, 0, { Filter.new with kinds := some {kind} }, ⟨none, none, none⟩⟩, false⟩]⟩

/-- A second subscription is planned and opened. -/
def openSecond : List Action :=
  openFirst ++ [.observe [observes 1, observes 2], .wake, .reconcile, .visit, .visit, .elapse 2,
    .receive, .subscribe 0 (some 2)]

/-- Before its report, a third observation joins the first subscription. -/
def joinDuring : List Action :=
  openSecond ++ [.observe [observes 1, observes 2, observesAs 3 1], .wake, .reconcile, .visit, .visit,
    .finish 0]

/-- Recording the plan takes the third observation off the subscription it had joined. -/
theorem recording_loses_joined :
    ∃ acts e done e', Run (step kindProviders) Free .start acts e ∧
      e.receiving .receive = some (.installed done) ∧ step kindProviders e .receive = some e' ∧
      ¬NothingLost e e' := by
  obtain ⟨e, run, checked⟩ := Run.of_any (show (exec (step kindProviders) Free .start
    joinDuring).any (fun e => (e.receiving .receive).any (·.done.isSome) &&
      (step kindProviders e .receive).any fun e' => e.slots.any fun s => e'.slots.any fun s' =>
        decide (s'.relay = s.relay) && decide (s'.generation = s.generation) &&
        (s.installed[1]?).any fun entry => (s'.installed[1]?).any fun entry' =>
          entry.serves.contains ⟨3, 0⟩ && e.registry.wants s.relay ⟨3, 0⟩ &&
            !entry'.serves.contains ⟨3, 0⟩) = true by decide +kernel)
  rw [Bool.and_eq_true] at checked
  obtain ⟨received, checked⟩ := checked
  obtain ⟨report, received, reports⟩ := (Option.any_eq_true _ _).mp received
  obtain ⟨done, is⟩ := Option.isSome_iff_exists.mp reports
  obtain rfl := Report.eq_installed is
  obtain ⟨e', stepped, checked⟩ := (Option.any_eq_true _ _).mp checked
  obtain ⟨s, hs, checked⟩ := List.any_eq_true.mp checked
  obtain ⟨s', hs', checked⟩ := List.any_eq_true.mp checked
  simp only [Bool.and_eq_true, decide_eq_true_eq] at checked
  obtain ⟨⟨relay, generation⟩, checked⟩ := checked
  obtain ⟨entry, here, checked⟩ := (Option.any_eq_true _ _).mp checked
  obtain ⟨entry', here', checked⟩ := (Option.any_eq_true _ _).mp checked
  rw [Bool.and_eq_true, Bool.and_eq_true, Bool.not_eq_true', ExtTreeSet.contains_iff_mem] at checked
  obtain ⟨⟨served, wanted⟩, lost⟩ := checked
  refine ⟨_, e, done, e', run, received, stepped, fun nothing => ?_⟩
  have kept := (nothing s hs s' hs' relay generation 1 entry entry' here here' _ served wanted).1
  rw [← ExtTreeSet.contains_iff_mem, lost] at kept
  cases kept

theorem nothingLost_after_openSecond :
    ∃ e e', Run (step kindProviders) (Unraced kindProviders) .start (openSecond ++ [.finish 0]) e ∧
      (∃ done, e.receiving .receive = some (.installed done)) ∧
      step kindProviders e .receive = some e' ∧ NothingLost e e' := by
  obtain ⟨e, run, checked⟩ := Run.of_any (show (exec (step kindProviders) (Unraced kindProviders)
    .start (openSecond ++ [.finish 0])).any (fun e => (e.receiving .receive).any (·.done.isSome) &&
      decide (Unraced kindProviders e .receive) && (step kindProviders e .receive).isSome) = true by
    decide +kernel)
  simp only [Bool.and_eq_true, decide_eq_true_eq] at checked
  obtain ⟨⟨received, meets⟩, moves⟩ := checked
  obtain ⟨report, received, reports⟩ := (Option.any_eq_true _ _).mp received
  obtain ⟨done, is⟩ := Option.isSome_iff_exists.mp reports
  obtain rfl := Report.eq_installed is
  obtain ⟨e', stepped⟩ := Option.isSome_iff_exists.mp moves
  exact ⟨e, e', run, ⟨done, received⟩, stepped, nothingLost_of_unraced run meets stepped⟩

end Joined

end Fava.Observe
