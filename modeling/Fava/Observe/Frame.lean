import Fava.Observe.Slots

namespace Fava.Observe

open Std Fava.Lib Fava.Nostr Fava.Relay Fava.Subscriptions

/-- The generation a listener watches the connection for. -/
def Task.listened : Task → Option Round
  | .listen _ generation => some generation
  | _ => none

namespace Engine

/-- What most of the owner's own work leaves alone: the application, the connections,
the queue of reports, who listens and what is being installed. -/
def frame (e : Engine) :
    Registry × (Session → Authentication) × Bool × List Report × List Round × List Installing :=
  (e.registry, e.connections, e.changed, e.inbox, e.tasks.filterMap Task.listened, e.installing)

variable {P : Providers} {e e' u : Engine} {a : Action} {relay : RelayUrl} {generation : Round}

theorem frame_spawn {task : Task} (silent : task.listened = none) :
    (e.spawn task).frame = e.frame := by
  rw [frame, spawn, List.filterMap_append, List.filterMap_cons, silent, List.filterMap_nil,
    List.append_nil]
  rfl

theorem frame_arm : (e.arm relay generation).frame = e.frame := frame_spawn rfl

theorem frame_establish {authority : Authority} :
    (e.establish relay authority).frame = e.frame := by
  unfold establish
  split
  · split
    · rfl
    · exact frame_spawn rfl
  · split
    · rfl
    · rename_i next _
      have silent : (Task.acquire relay next).listened = none := rfl
      exact frame_spawn silent

theorem frame_releaseSlot : (e.releaseSlot relay generation).frame = e.frame := by
  unfold releaseSlot
  split <;> rfl

theorem frame_execute {constraints : RelayReadConstraints} {plan : SubscriptionPlan} :
    (e.execute relay generation constraints plan).frame = e.frame ∨
      plan.isNoop = false ∧ (e.execute relay generation constraints plan).frame = { e with
        installing := e.installing ++ [Installing.mk relay generation plan.revision plan []] }.frame := by
  unfold execute
  dsimp only
  split
  · exact .inl rfl
  · rename_i opens
    exact .inr ⟨Bool.eq_false_iff.mpr opens, rfl⟩

/-- Closing an admission window starts the installation of at most one plan. -/
theorem frame_flush : (e.flush P relay generation).frame = e.frame ∨
    ∃ s plan, e.slot relay generation = some s ∧ s.session.isSome = true ∧ e.planned P s plan ∧
      plan.isNoop = false ∧ (e.flush P relay generation).frame = { e with
        installing := e.installing ++ [Installing.mk relay generation (e.revisions + 1) plan []] }.frame := by
  unfold flush
  dsimp only
  split
  · exact .inl rfl
  · rename_i s here
    obtain ⟨rfl, rfl, -⟩ := withSlot_slots here
    split
    · exact .inl rfl
    · split
      · exact .inl frame_arm
      · rename_i session live
        split
        · exact .inl rfl
        · rename_i revision minted
          obtain rfl := allocate_eq_some minted
          split
          · exact .inl rfl
          · rename_i plan planned
            split
            · rename_i valid
              obtain same | ⟨opens, more⟩ := frame_execute
              · exact .inl same
              · refine .inr ⟨s, plan, here, by rw [live]; rfl, ⟨planned, valid⟩, opens, more.trans ?_⟩
                rw [(P.planner.lawful _ _ _ _ _ _ planned).revised]
                rfl
            · exact .inl rfl

theorem frame_foldl_establish {items : List (RelayDemand × Authority)} :
    (items.foldl (fun e (_, authority) =>
      if (e.slotFor relay authority).isNone then e.establish relay authority else e) e).frame =
        e.frame := by
  induction items generalizing e with
  | nil => rfl
  | cons item items ih =>
    rw [List.foldl_cons, ih]
    dsimp only
    split
    · exact frame_establish
    · rfl

theorem frame_visitRelay {items : List (RelayDemand × Authority)} :
    (e.visitRelay relay items).frame = e.frame := frame_foldl_establish

theorem frame_visitSlot : (e.visitSlot relay generation).frame = e.frame := by
  unfold visitSlot
  dsimp only
  split
  · exact frame_releaseSlot
  · split
    · rfl
    · split
      · rfl
      · split
        · rfl
        · exact frame_arm

theorem frame_reconcile : e.reconcile.frame = e.frame := by
  suffices released : ∀ relays : List RelayUrl, (relays.foldl releaseRelay e).frame = e.frame
    from released _
  intro relays
  induction relays generalizing e with
  | nil => rfl
  | cons relay relays ih => exact ih

theorem frame_refused : (e.refused relay generation).frame = e.frame := by
  unfold refused
  split
  · rfl
  · dsimp only
    split <;> rfl

theorem frame_enterAdmission : (e.enterAdmission relay generation).frame = e.frame := by
  unfold enterAdmission
  split
  · rfl
  · split
    · rfl
    · exact frame_arm

theorem frame_installed {done : Installing} : (e.installed done).frame = e.frame := by
  unfold installed
  split
  · rfl
  · split <;> rfl

theorem frame_carried {id : SubscriptionId} {item : Item} :
    (e.carried P relay generation id item).frame = e.frame := by
  unfold carried
  split
  · rfl
  · split
    · rfl
    · unfold storedComplete
      dsimp only
      split
      · rfl
      · split <;> rfl
    all_goals rfl

/-- A listener joins where a slot has its connection. -/
inductive Listens (u e' : Engine) : Prop
  | same (frame : e'.frame = u.frame)
  | more (relay : RelayUrl) (generation : Round)
      (live : ∃ s ∈ e'.slots, s.generation = generation ∧ s.session.isSome = true)
      (frame : e'.frame = { u with tasks := u.tasks ++ [Task.listen relay generation] }.frame)

theorem acquired_listens {session : Session} : Listens u (u.acquired relay generation session) := by
  unfold acquired
  split
  · exact .same rfl
  · rename_i s here
    obtain ⟨rfl, rfl, before, after, split, replaced⟩ := withSlot_slots here
    dsimp only
    generalize eq : (((u.withSlot s.relay s.generation fun s =>
      { s with session := some session, busy := false, armed := true }).spawn
        (.listen s.relay s.generation)).spawn (.fetch s.relay s.generation)) = held
    have slots : held.slots = before ++ { s with session := some session, busy := false, armed := true } ::
        after := by
      rw [← eq]
      exact replaced u rfl _
    have framed : held.frame =
        { u with tasks := u.tasks ++ [Task.listen s.relay s.generation] }.frame := by
      rw [← eq, frame_spawn rfl]
      rfl
    have live : ∃ t ∈ held.slots, t.generation = s.generation ∧ t.session.isSome = true := by
      rw [slots]
      exact ⟨_, List.mem_append_right _ List.mem_cons_self, rfl, rfl⟩
    split
    · exact .more s.relay s.generation live framed
    · exact .more s.relay s.generation live (frame_arm.trans framed)

theorem reconnected_listens : Listens u (u.reconnected relay generation) := by
  unfold reconnected
  split
  · exact .same rfl
  · rename_i next _
    split
    · exact .same rfl
    · rename_i s here
      obtain ⟨rfl, rfl, before, after, split, replaced⟩ := withSlot_slots here
      dsimp only
      split
      · rename_i connected
        refine .more s.relay next ?_ (frame_enterAdmission.trans rfl)
        have advanced : s.advance next ∈ (({ u with rounds := next }.withSlot s.relay s.generation
            (·.advance next)).cancel s.generation).slots := by
          have slots := replaced { u with rounds := next } rfl (·.advance next)
          change s.advance next ∈ ({ u with rounds := next }.withSlot s.relay s.generation
            (·.advance next)).slots
          rw [slots]
          exact List.mem_append_right _ List.mem_cons_self
        unfold enterAdmission
        split
        · exact ⟨_, advanced, rfl, connected⟩
        · split
          · exact ⟨_, advanced, rfl, connected⟩
          · obtain kept | armed := mem_adjust advanced
            · exact ⟨_, kept, rfl, connected⟩
            · exact ⟨_, armed, rfl, connected⟩
      · exact .same frame_enterAdmission

theorem accept_listens {report : Report}
    (plain : ∀ relay generation, report ≠ .flush relay generation) :
    Listens u (u.accept P report) := by
  cases report with
  | acquired relay generation session => exact acquired_listens
  | refused relay generation => exact .same frame_refused
  | installed done => exact .same frame_installed
  | flush relay generation => exact (plain relay generation rfl).elim
  | connectionReplaced relay generation =>
    simp only [accept, connectionReplaced]
    split
    · exact .same rfl
    · exact reconnected_listens
  | carried relay generation id item => exact .same frame_carried
  | constraints relay generation constraints => exact .same rfl

/-- The report the step puts into the queue. -/
def posting (e : Engine) : Action → Option Report
  | .acquire task outcome =>
    match e.tasks[task]? with
    | some (.acquire relay generation) =>
      some (match outcome with
        | some session => .acquired relay generation session
        | none => .refused relay generation)
    | _ => none
  | .elapse task =>
    match e.tasks[task]? with
    | some (.admission relay generation) => some (.flush relay generation)
    | _ => none
  | .replace task =>
    match e.tasks[task]? with
    | some (.listen relay generation) => some (.connectionReplaced relay generation)
    | _ => none
  | .declare task constraints =>
    match e.tasks[task]? with
    | some (.fetch relay generation) => some (.constraints relay generation constraints)
    | _ => none
  | .finish task => e.installing[task]?.map .installed
  | .carry handle item => e.handles[handle]?.map fun h => .carried h.relay h.generation h.id item
  | _ => none

/-- Where an installation comes from: it was running, with less of it opened, or the
step closes the window of a slot the planner answers. -/
def Installs (P : Providers) (e : Engine) (a : Action) (p : Installing) : Prop :=
  (∃ opened, { p with opened := opened } ∈ e.installing) ∨
    ∃ s, e.flushing a = some (s.relay, s.generation) ∧ e.slot s.relay s.generation = some s ∧
      s.session.isSome = true ∧ e.planned P s p.plan ∧ p.plan.isNoop = false ∧
        p = ⟨s.relay, s.generation, e.revisions + 1, p.plan, []⟩

/-- What one step does outside the slots: the application or a connection changes, the
owner wakes up, or it works on what it has. -/
inductive FrameChange (P : Providers) (e : Engine) (a : Action) (e' : Engine) : Prop
  | observe (registry : Registry) (is : a = .observe registry)
      (result : e' = { e with registry := registry, changed := true })
  | revive (registry : Registry) (is : a = .revive registry)
      (result : e' = { e with registry := registry })
  | authenticate (session : Session) (authentication : Authentication)
      (is : a = .authenticate session authentication)
      (result : e' = { e with connections := Function.update e.connections session authentication })
  | wake (is : a = .wake) (result : e' = { e with changed := false, dirty := true })
  | own (registry : e'.registry = e.registry) (connections : e'.connections = e.connections)
      (changed : e'.changed = e.changed)
      (reports : ∀ r ∈ e'.inbox, r ∈ e.inbox ∨ e.posting a = some r)
      (listeners : ∀ g ∈ e'.tasks.filterMap Task.listened, g ∈ e.tasks.filterMap Task.listened ∨
        ∃ s ∈ e'.slots, s.generation = g ∧ s.session.isSome = true)
      (installing : ∀ p ∈ e'.installing, e.Installs P a p)

theorem installs_of_mem {p : Installing} (running : p ∈ e.installing) : e.Installs P a p :=
  .inl ⟨p.opened, running⟩

theorem FrameChange.of_frame {v : Engine} (same : e'.frame = v.frame)
    (registry : v.registry = e.registry) (connections : v.connections = e.connections)
    (changed : v.changed = e.changed) (reports : ∀ r ∈ v.inbox, r ∈ e.inbox ∨ e.posting a = some r)
    (listeners : ∀ g ∈ v.tasks.filterMap Task.listened, g ∈ e.tasks.filterMap Task.listened ∨
      ∃ s ∈ e'.slots, s.generation = g ∧ s.session.isSome = true)
    (installing : ∀ p ∈ v.installing, e.Installs P a p) : FrameChange P e a e' := by
  simp only [frame, Prod.mk.injEq] at same
  obtain ⟨registry', connections', changed', inbox', tasks', installing'⟩ := same
  refine .own (registry'.trans registry) (connections'.trans connections) (changed'.trans changed)
    ?_ ?_ ?_
  · rw [inbox']
    exact reports
  · rw [tasks']
    exact listeners
  · rw [installing']
    exact installing

theorem FrameChange.of_listens (listens : Listens u e') (registry : u.registry = e.registry)
    (connections : u.connections = e.connections) (changed : u.changed = e.changed)
    (inbox : ∀ r ∈ u.inbox, r ∈ e.inbox) (tasks : u.tasks = e.tasks)
    (installing : u.installing = e.installing) : FrameChange P e a e' := by
  have running : ∀ p ∈ u.installing, e.Installs P a p := by
    rw [installing]
    exact fun p hp => installs_of_mem hp
  cases listens with
  | same frame =>
    refine .of_frame frame registry connections changed (fun r hr => .inl (inbox r hr)) ?_ running
    rw [tasks]
    exact fun g hg => .inl hg
  | more relay generation live frame =>
    refine .of_frame frame registry connections changed (fun r hr => .inl (inbox r hr)) ?_ running
    rw [tasks, List.filterMap_append]
    intro g hg
    obtain old | new := List.mem_append.mp hg
    · exact .inl old
    · rw [List.mem_singleton.mp new]
      exact .inr live

theorem FrameChange.of_flush (flushed : e.flushing a = some (relay, generation))
    (slots : u.slots = e.slots) (registry : u.registry = e.registry)
    (connections : u.connections = e.connections) (changed : u.changed = e.changed)
    (revisions : u.revisions = e.revisions)
    (demand : u.demandForSlot relay generation = e.demandForSlot relay generation)
    (inbox : ∀ r ∈ u.inbox, r ∈ e.inbox) (tasks : u.tasks = e.tasks)
    (installing : u.installing = e.installing) :
    FrameChange P e a (u.flush P relay generation) := by
  have listeners : ∀ g ∈ u.tasks.filterMap Task.listened, g ∈ e.tasks.filterMap Task.listened ∨
      ∃ s ∈ (u.flush P relay generation).slots, s.generation = g ∧ s.session.isSome = true := by
    rw [tasks]
    exact fun g hg => .inl hg
  have reports : ∀ r ∈ u.inbox, r ∈ e.inbox ∨ e.posting a = some r := fun r hr => .inl (inbox r hr)
  obtain same | ⟨s, plan, here, live, ⟨planned, valid⟩, opens, more⟩ := frame_flush (e := u)
  · refine .of_frame same registry connections changed reports listeners ?_
    rw [installing]
    exact fun p hp => installs_of_mem hp
  · refine .of_frame more registry connections changed reports listeners ?_
    obtain ⟨rfl, rfl, -⟩ := withSlot_slots here
    intro p hp
    obtain old | new := List.mem_append.mp hp
    · rw [installing] at old
      exact installs_of_mem old
    · rw [List.mem_singleton.mp new]
      rw [slot, slots] at here
      rw [demand, revisions] at planned
      rw [demand] at valid
      refine .inr ⟨s, flushed, here, live, ⟨planned, valid⟩, opens, ?_⟩
      rw [revisions]

theorem FrameChange.of_post {report : Report} (posted : u.post report = some e')
    (posting : e.posting a = some report) (registry : u.registry = e.registry)
    (connections : u.connections = e.connections) (changed : u.changed = e.changed)
    (inbox : u.inbox = e.inbox) (tasks : u.tasks.Sublist e.tasks)
    (installing : u.installing.Sublist e.installing) : FrameChange P e a e' := by
  unfold post at posted
  rw [Option.ite_none_right_eq_some, Option.some.injEq] at posted
  obtain ⟨-, rfl⟩ := posted
  refine .own registry connections changed ?_ (fun g hg => .inl ((tasks.filterMap _).subset hg))
    (fun p hp => installs_of_mem (installing.subset hp))
  intro r hr
  obtain old | new := List.mem_append.mp hr
  · rw [inbox] at old
    exact .inl old
  · rw [List.mem_singleton.mp new]
    exact .inr posting

theorem installs_of_answered {task : Nat} {doing : Installing} {outcome : Option SubscriptionId}
    (here : e.installing[task]? = some doing) :
    ∀ p ∈ e.installing.set task { doing with opened := doing.opened ++ [outcome] },
      e.Installs P a p := by
  intro p hp
  obtain old | rfl := List.mem_or_eq_of_mem_set hp
  · exact installs_of_mem old
  · exact .inl ⟨doing.opened, List.mem_of_getElem? here⟩

end Engine

open Engine in
theorem step_frame {P : Providers} {e e' : Engine} {a : Action} (stepped : step P e a = some e') :
    FrameChange P e a e' := by
  cases Stepped.of_step stepped with
  | observe registry => exact .observe registry rfl rfl
  | revive registry => exact .revive registry rfl rfl
  | authenticate session authentication => exact .authenticate session authentication rfl rfl
  | wake => exact .wake rfl rfl
  | reconcile => exact .of_listens (.same frame_reconcile) rfl rfl rfl (fun _ hr => hr) rfl rfl
  | visitRelay => exact .of_listens (.same frame_visitRelay) rfl rfl rfl (fun _ hr => hr) rfl rfl
  | visitSlot => exact .of_listens (.same frame_visitSlot) rfl rfl rfl (fun _ hr => hr) rfl rfl
  | flush todo =>
    refine .of_flush ?_ rfl rfl rfl rfl rfl rfl (fun _ hr => hr) rfl rfl
    rw [flushing, todo]
  | @receive report rest inbox =>
    have popped : ∀ r ∈ rest, r ∈ e.inbox := by
      rw [inbox]
      exact fun r hr => List.mem_cons_of_mem _ hr
    by_cases flushed : ∃ relay generation, report = .flush relay generation
    · obtain ⟨relay, generation, rfl⟩ := flushed
      refine .of_flush (u := { e with inbox := rest }) ?_ rfl rfl rfl rfl rfl rfl popped rfl rfl
      rw [flushing, inbox]
    · push Not at flushed
      exact .of_listens (accept_listens flushed) rfl rfl rfl popped rfl rfl
  | @acquire _ _ _ _ outcome here posted =>
    refine .of_post posted ?_ rfl rfl rfl rfl (List.eraseIdx_sublist _ _) (.refl _)
    cases outcome <;> rw [posting, here]
  | elapse here posted | declare here posted =>
    refine .of_post posted ?_ rfl rfl rfl rfl (List.eraseIdx_sublist _ _) (.refl _)
    rw [posting, here]
  | replace here posted =>
    refine .of_post posted ?_ rfl rfl rfl rfl (.refl _) (.refl _)
    rw [posting, here]
  | deny here | subscribe here =>
    exact .own rfl rfl rfl (fun _ => .inl) (fun _ => .inl) (installs_of_answered here)
  | finish here _ posted =>
    refine .of_post posted ?_ rfl rfl rfl rfl (.refl _) (List.eraseIdx_sublist _ _)
    rw [posting, here]
    rfl
  | carry here _ posted =>
    refine .of_post posted ?_ rfl rfl rfl rfl (.refl _) (.refl _)
    rw [posting, here]
    rfl

section Inbox

variable {P : Providers} {e e' u : Engine} {a : Action}

theorem inbox_of_frame (same : e'.frame = u.frame) : e'.inbox = u.inbox := by
  simp only [Engine.frame, Prod.mk.injEq] at same
  exact same.2.2.2.1

theorem inbox_flush {relay : RelayUrl} {generation : Round} :
    (u.flush P relay generation).inbox = u.inbox := by
  obtain same | ⟨s, plan, -, -, -, -, more⟩ := Engine.frame_flush (P := P) (e := u)
  · exact inbox_of_frame same
  · exact (inbox_of_frame more :)

/-- Processing a report posts none. -/
theorem inbox_accept {report : Report} : (u.accept P report).inbox = u.inbox := by
  by_cases flushed : ∃ relay generation, report = .flush relay generation
  · obtain ⟨relay, generation, rfl⟩ := flushed
    exact inbox_flush
  · push Not at flushed
    cases Engine.accept_listens (P := P) (u := u) flushed with
    | same frame => exact inbox_of_frame frame
    | more relay generation live frame => exact (inbox_of_frame frame :)

theorem inbox_post {report : Report} (posted : u.post report = some e') :
    e'.inbox = u.inbox ++ [report] := by
  unfold Engine.post at posted
  rw [Option.ite_none_right_eq_some, Option.some.injEq] at posted
  rw [← posted.2]

/-- The queue of reports is first in, first out: a step takes its first report, or puts
what it posts at its end. -/
theorem step_inbox (stepped : step P e a = some e') :
    (∃ report rest, a = .receive ∧ e.inbox = report :: rest ∧ e'.inbox = rest ∧
        e' = { e with inbox := rest }.accept P report) ∨
      a ≠ .receive ∧ e'.inbox = e.inbox ++ (e.posting a).toList := by
  by_cases receives : a = .receive
  · subst receives
    cases Stepped.of_step stepped with
    | @receive report rest inbox => exact .inl ⟨report, rest, rfl, inbox, inbox_accept, rfl⟩
  refine .inr ⟨receives, ?_⟩
  cases Stepped.of_step stepped with
  | observe | revive | authenticate | wake | deny | subscribe => exact (List.append_nil _).symm
  | reconcile =>
    refine (inbox_of_frame Engine.frame_reconcile).trans ?_
    exact (List.append_nil _).symm
  | visitRelay => exact (inbox_of_frame Engine.frame_visitRelay).trans (List.append_nil _).symm
  | visitSlot => exact (inbox_of_frame Engine.frame_visitSlot).trans (List.append_nil _).symm
  | flush => exact inbox_flush.trans (List.append_nil _).symm
  | receive => exact (receives rfl).elim
  | acquire here posted | elapse here posted | replace here posted | declare here posted
  | finish here _ posted | carry here _ posted =>
    refine (inbox_post posted).trans ?_
    rw [Engine.posting, here]
    rfl

end Inbox

section Plans

variable {P : Providers} {e e' : Engine} {a : Action}

/-- Where a plan in flight comes from: it was in flight, with less of it opened, or the
step issues it. -/
theorem step_plans (stepped : step P e a = some e') {p : Installing} (flying : p ∈ e'.plans) :
    (∃ opened, { p with opened := opened } ∈ e.plans) ∨
      ∃ s, e.flushing a = some (s.relay, s.generation) ∧ e.slot s.relay s.generation = some s ∧
        s.session.isSome = true ∧ e.planned P s p.plan ∧ p.plan.isNoop = false ∧
          p = ⟨s.relay, s.generation, e.revisions + 1, p.plan, []⟩ := by
  cases step_frame stepped with
  | observe registry _ result | revive registry _ result
  | authenticate session authentication _ result | wake _ result =>
    subst result
    exact .inl ⟨p.opened, flying⟩
  | own registry connections changed reports listeners installing =>
    obtain running | waiting := List.mem_append.mp flying
    · obtain ⟨opened, before⟩ | new := installing p running
      · exact .inl ⟨opened, List.mem_append_left _ before⟩
      · exact .inr new
    · left
      obtain ⟨report, inside, done⟩ := List.mem_filterMap.mp waiting
      obtain old | posted := reports report inside
      · exact ⟨p.opened, List.mem_append_right _ (List.mem_filterMap.mpr ⟨report, old, done⟩)⟩
      · -- The report of an installation is posted by the installation.
        obtain rfl := Report.eq_installed done
        cases a with
        | finish task =>
          simp only [Engine.posting, Option.map_eq_some_iff] at posted
          obtain ⟨doing, here, is⟩ := posted
          cases is
          exact ⟨p.opened, List.mem_append_left _ (List.mem_of_getElem? here)⟩
        | acquire task outcome =>
          simp only [Engine.posting] at posted
          split at posted
          · cases outcome <;> cases posted
          · cases posted
        | elapse task | declare task constraints | replace task =>
          simp only [Engine.posting] at posted
          split at posted <;> cases posted
        | carry handle item =>
          simp only [Engine.posting, Option.map_eq_some_iff] at posted
          obtain ⟨_, -, is⟩ := posted
          cases is
        | observe | revive | authenticate | wake | reconcile | visit | receive | subscribe => cases posted

/-- Once its report has been processed, a plan is no longer in flight. -/
theorem plans_of_installed {done : Installing} (received : e.receiving a = some (.installed done))
    (stepped : step P e a = some e') : e.plans.Perm (done :: e'.plans) := by
  obtain ⟨rest, rfl, inbox, rfl⟩ := step_of_received received stepped
  have same : ({ e with inbox := rest }.installed done).frame = { e with inbox := rest }.frame :=
    Engine.frame_installed
  simp only [Engine.frame, Prod.mk.injEq] at same
  obtain ⟨-, -, -, inbox', -, installing'⟩ := same
  change e.plans.Perm (done :: ({ e with inbox := rest }.installed done).plans)
  rw [Engine.plans, Engine.plans, inbox', installing', inbox, List.filterMap_cons]
  exact List.perm_middle

theorem plans_of_frame {u : Engine} (same : e'.frame = u.frame) : e'.plans = u.plans := by
  simp only [Engine.frame, Prod.mk.injEq] at same
  rw [Engine.plans, Engine.plans, same.2.2.2.1, same.2.2.2.2.2]

theorem plans_of_flush {u : Engine} {relay : RelayUrl} {generation : Round} {p : Installing}
    (flying : p ∈ u.plans) : p ∈ (u.flush P relay generation).plans := by
  obtain same | ⟨s, plan, -, -, -, -, more⟩ := Engine.frame_flush (P := P) (e := u)
  · rw [plans_of_frame same]
    exact flying
  · rw [plans_of_frame more]
    obtain running | waiting := List.mem_append.mp flying
    · exact List.mem_append_left _ (List.mem_append_left _ running)
    · exact List.mem_append_right _ waiting

theorem plans_of_post {u : Engine} {report : Report} (posted : u.post report = some e')
    {p : Installing} (flying : p ∈ u.plans) : p ∈ e'.plans := by
  unfold Engine.post at posted
  rw [Option.ite_none_right_eq_some, Option.some.injEq] at posted
  obtain ⟨-, rfl⟩ := posted
  obtain running | waiting := List.mem_append.mp flying
  · exact List.mem_append_left _ running
  · refine List.mem_append_right _ ?_
    rw [List.filterMap_append]
    exact List.mem_append_left _ waiting

/-- An installation that gets an answer stays in flight, with the answer. -/
theorem plans_of_answered {task : Nat} {doing : Installing} {outcome : Option SubscriptionId}
    (here : e.installing[task]? = some doing) {p : Installing} (flying : p ∈ e.plans) :
    ∃ opened, { p with opened := opened } ∈
      e.installing.set task { doing with opened := doing.opened ++ [outcome] } ++
        e.inbox.filterMap Report.done := by
  obtain running | waiting := List.mem_append.mp flying
  · obtain ⟨i, inside, at'⟩ := List.mem_iff_getElem.mp running
    by_cases same : i = task
    · subst same
      rw [List.getElem?_eq_getElem inside, at', Option.some.injEq] at here
      subst here
      exact ⟨_, List.mem_append_left _ (List.mem_set inside _)⟩
    · refine ⟨p.opened, List.mem_append_left _ (List.mem_iff_getElem.mpr ⟨i, ?_, ?_⟩)⟩
      · rw [List.length_set]
        exact inside
      · rw [List.getElem_set_ne (Ne.symm same), at']
  · exact ⟨p.opened, List.mem_append_right _ waiting⟩

/-- A plan stays in flight until its report is processed. -/
theorem plans_kept (stepped : step P e a = some e') {p : Installing} (flying : p ∈ e.plans) :
    (∃ opened, { p with opened := opened } ∈ e'.plans) ∨ e.receiving a = some (.installed p) := by
  have still : p ∈ e'.plans →
      (∃ opened, { p with opened := opened } ∈ e'.plans) ∨ e.receiving a = some (.installed p) :=
    fun kept => .inl ⟨p.opened, kept⟩
  cases Stepped.of_step stepped with
  | observe | revive | authenticate | wake => exact .inl ⟨p.opened, flying⟩
  | reconcile =>
    rw [plans_of_frame Engine.frame_reconcile]
    exact .inl ⟨p.opened, flying⟩
  | visitRelay =>
    rw [plans_of_frame Engine.frame_visitRelay]
    exact .inl ⟨p.opened, flying⟩
  | visitSlot =>
    rw [plans_of_frame Engine.frame_visitSlot]
    exact .inl ⟨p.opened, flying⟩
  | flush => exact still (plans_of_flush flying)
  | @receive report rest inbox =>
    have popped : p ∈ { e with inbox := rest }.plans ∨ report = .installed p := by
      obtain running | waiting := List.mem_append.mp flying
      · exact .inl (List.mem_append_left _ running)
      · rw [inbox] at waiting
        obtain ⟨r, inside, done⟩ := List.mem_filterMap.mp waiting
        obtain rfl | later := List.mem_cons.mp inside
        · exact .inr (Report.eq_installed done)
        · exact .inl (List.mem_append_right _ (List.mem_filterMap.mpr ⟨r, later, done⟩))
    obtain flying | rfl := popped
    · by_cases flushed : ∃ relay generation, report = .flush relay generation
      · obtain ⟨relay, generation, rfl⟩ := flushed
        exact still (plans_of_flush flying)
      · push Not at flushed
        cases Engine.accept_listens (P := P) (u := { e with inbox := rest }) flushed with
        | same frame =>
          apply still
          rw [plans_of_frame frame]
          exact flying
        | more relay generation live frame =>
          apply still
          rw [plans_of_frame frame]
          exact flying
    · right
      rw [Engine.receiving, inbox]
      rfl
  | acquire _ posted | elapse _ posted | replace _ posted | declare _ posted | carry _ _ posted =>
    exact still (plans_of_post posted flying)
  | deny here | subscribe here => exact .inl (plans_of_answered here flying)
  | @finish _ task doing here _ posted =>
    apply still
    obtain running | waiting := List.mem_append.mp flying
    · obtain ⟨i, inside, at'⟩ := List.mem_iff_getElem.mp running
      by_cases same : i = task
      · -- The installation that ends is the plan itself: its report carries it on.
        subst same
        rw [List.getElem?_eq_getElem inside, at', Option.some.injEq] at here
        subst here
        unfold Engine.post at posted
        rw [Option.ite_none_right_eq_some, Option.some.injEq] at posted
        obtain ⟨-, rfl⟩ := posted
        refine List.mem_append_right _ ?_
        rw [List.filterMap_append]
        exact List.mem_append_right _ (List.mem_filterMap.mpr ⟨_, List.mem_singleton.mpr rfl, rfl⟩)
      · refine plans_of_post posted (List.mem_append_left _ ?_)
        exact List.mem_eraseIdx_iff_getElem.mpr ⟨i, inside, same, at'⟩
    · exact plans_of_post posted (List.mem_append_right _ waiting)

end Plans

end Fava.Observe
