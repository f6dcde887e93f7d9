import Fava.Observe.Engine
import Fava.Observe.Holding
import Mathlib.Logic.Relation

namespace Fava.Observe

open Std Fava.Lib Fava.Nostr Fava.Relay Fava.Subscriptions

/-- What ties wire subscriptions to the slots that answer for them: holdings, plans in
flight, fired generations and opened handles. -/
structure Core where
  holdings : List Holding
  plans : List Installing
  fired : List Round
  handles : List Handle
  rounds : Nat
  revisions : Nat

def Report.done : Report → Option Installing
  | .installed done => some done
  | _ => none

theorem Report.eq_installed {report : Report} {done : Installing} (is : report.done = some done) :
    report = .installed done := by
  cases report with
  | installed done' =>
    cases is
    rfl
  | _ => cases is

/-- A plan is in flight until the owner has processed its report. -/
def Engine.plans (e : Engine) : List Installing := e.installing ++ e.inbox.filterMap Report.done

def Engine.core (e : Engine) : Core :=
  ⟨e.slots.map Slot.toHolding, e.plans, e.fired, e.handles, e.rounds, e.revisions⟩

/-- Drop the handles of these tokens. -/
def cancelled (tokens : List Token) (handles : List Handle) : List Handle :=
  handles.map fun h => if h.token ∈ tokens then { h with cancelled := true } else h

/-- What one step of the owner or of an installation can do to the core. Plans are
only counted, so their order is free. A new revision is issued under `G`. -/
inductive Effect (G : Core → Round → Prop) (c : Core) : Core → Prop
  | shuffle {plans : List Installing} (same : plans.Perm c.plans) :
      Effect G c { c with plans := plans }
  | release {kept : List Holding} {fired : List Round} (sub : kept.Sublist c.holdings)
      (dropped : ∀ h ∈ c.holdings, h ∈ kept ∨ h.generation ∈ fired)
      (more : ∀ g ∈ c.fired, g ∈ fired) : Effect G c { c with holdings := kept, fired := fired }
  | issue : Effect G c { c with rounds := c.rounds + 1 }
  | establish (relay : RelayUrl) :
      Effect G c { c with
        rounds := c.rounds + 1, holdings := c.holdings ++ [.new relay (c.rounds + 1)] }
  | advance {before after : List Holding} {h : Holding} (at' : c.holdings = before ++ h :: after) :
      Effect G c { c with
        rounds := c.rounds + 1
        fired := h.generation :: c.fired
        holdings := before ++ h.advance (c.rounds + 1) :: after }
  | attach {before after : List Holding} {h : Holding} {installed : InstalledSubscriptions}
      (at' : c.holdings = before ++ h :: after) (widens : Holding.Widens h.installed installed) :
      Effect G c { c with holdings := before ++ { h with installed := installed } :: after }
  | revise {before after : List Holding} {h : Holding} (at' : c.holdings = before ++ h :: after)
      (free : G c h.generation) :
      Effect G c { c with
        revisions := c.revisions + 1
        holdings := before ++ { h with revision := some (c.revisions + 1) } :: after }
  | retain {before after : List Holding} {h : Holding} {constraints : RelayReadConstraints}
      {plan : SubscriptionPlan} (at' : c.holdings = before ++ h :: after)
      (free : G c h.generation)
      (lawful : PlanLawful constraints h.installed (c.revisions + 1) plan)
      (noop : plan.isNoop = true) :
      Effect G c { c with
        revisions := c.revisions + 1
        handles := Engine.replan h.generation constraints plan c.handles
        holdings := before ++ ((Holding.recordCompleteness
          { h with revision := some (c.revisions + 1) } plan).recordInstalled plan [] []) :: after }
  | install {before after : List Holding} {h : Holding} {constraints : RelayReadConstraints}
      {plan : SubscriptionPlan} {plans : List Installing}
      (at' : c.holdings = before ++ h :: after) (free : G c h.generation)
      (lawful : PlanLawful constraints h.installed (c.revisions + 1) plan)
      (added : plans.Perm (⟨h.relay, h.generation, c.revisions + 1, plan, []⟩ :: c.plans)) :
      Effect G c { c with
        revisions := c.revisions + 1
        plans := plans
        handles := Engine.replan h.generation constraints plan c.handles
        holdings := before ++ (Holding.recordCompleteness
          { h with revision := some (c.revisions + 1) } plan) :: after }
  | deny {plans rest : List Installing} {doing : Installing}
      (short : doing.opened.length < doing.plan.opens.length) (took : c.plans.Perm (doing :: rest))
      (onto : plans.Perm ({ doing with opened := doing.opened ++ [none] } :: rest)) :
      Effect G c { c with plans := plans }
  | subscribe {plans rest : List Installing} {doing : Installing} {id : SubscriptionId}
      {planned : PlannedSubscription}
      (next : doing.plan.opens[doing.opened.length]? = some planned)
      (fresh : ∀ x ∈ c.handles, x.token ≠ ⟨doing.generation, id⟩)
      (took : c.plans.Perm (doing :: rest))
      (onto : plans.Perm ({ doing with opened := doing.opened ++ [some id] } :: rest)) :
      Effect G c { c with
        plans := plans
        handles := c.handles ++ [⟨doing.relay, doing.generation, id, planned, false, false, none⟩] }
  | discard {plans : List Installing} {done : Installing} (took : c.plans.Perm (done :: plans))
      (missed : (∀ h ∈ c.holdings, h.relay = done.relay → h.generation ≠ done.generation) ∨
        ∃ h ∈ c.holdings, h.generation = done.generation ∧ h.revision ≠ some done.revision) :
      Effect G c { c with plans := plans }
  | accept {plans : List Installing} {done : Installing} {before after : List Holding} {h : Holding}
      (took : c.plans.Perm (done :: plans)) (at' : c.holdings = before ++ h :: after)
      (generation : h.generation = done.generation) (revision : h.revision = some done.revision) :
      Effect G c { c with
        plans := plans
        handles := cancelled (h.attend (done.opened.filterMap id) done.plan.close).2
          (Engine.record done c.handles)
        holdings := before ++ ((h.attend (done.opened.filterMap id) done.plan.close).1.recordInstalled
          done.plan done.opened done.plan.close) :: after }

/-- Several effects, one after the other. -/
abbrev Effects (G : Core → Round → Prop) : Core → Core → Prop := Relation.ReflTransGen (Effect G)

namespace Engine

variable {G : Core → Round → Prop} {P : Providers} {e e' : Engine} {relay : RelayUrl}
  {generation : Round} {change : Slot → Slot} {s : Slot}

theorem core_withSlot (kept : ∀ s, (change s).toHolding = s.toHolding) :
    (e.withSlot relay generation change).core = e.core := by
  simp only [core, withSlot, map_adjust fun c _ => kept c]
  rfl

theorem effects_of_core_eq (same : e'.core = e.core) : Effects G e.core e'.core := by
  rw [same]

/-- The place of a slot among the others. -/
theorem slots_split (found : e.slot relay generation = some s) :
    s.relay = relay ∧ s.generation = generation ∧ isSlot relay generation s = true ∧
      ∃ before after, e.slots = before ++ s :: after ∧
        ∀ c ∈ before, isSlot relay generation c = false := by
  have is : isSlot relay generation s = true := List.find?_some found
  obtain ⟨before, after, split, missed⟩ := (List.find?_eq_some_iff_append.mp found).2
  have fields := is
  rw [isSlot, Bool.and_eq_true, decide_eq_true_eq, decide_eq_true_eq] at fields
  exact ⟨fields.1, fields.2, is, before, after, split, fun c hc => by simpa using missed c hc⟩

/-- A change of one slot, seen from the core. -/
theorem core_withSlot_of_slot (found : e.slot relay generation = some s) :
    ∃ before after, e.core.holdings = before ++ s.toHolding :: after ∧
      ∀ change, (e.withSlot relay generation change).core =
        { e.core with holdings := before ++ (change s).toHolding :: after } := by
  obtain ⟨-, -, is, before, after, split, missed⟩ := slots_split found
  refine ⟨before.map Slot.toHolding, after.map Slot.toHolding, ?_, fun change => ?_⟩
  · rw [core, split, List.map_append, List.map_cons]
  · rw [withSlot, split, adjust_append missed is, core, List.map_append, List.map_cons]
    rfl

theorem releaseRelay_effects : Effects G e.core (e.releaseRelay relay).core := by
  refine .single (.release ?_ ?_ ?_)
  · exact List.filter_sublist.map _
  · intro h hh
    obtain ⟨s, hs, rfl⟩ := List.mem_map.mp hh
    by_cases here : s.relay = relay
    · exact .inr (List.mem_append_left _ (List.mem_map.mpr
        ⟨s, List.mem_filter.mpr ⟨hs, decide_eq_true here⟩, rfl⟩))
    · exact .inl (List.mem_map.mpr ⟨s, List.mem_filter.mpr ⟨hs, decide_eq_true here⟩, rfl⟩)
  · exact fun g hg => List.mem_append_right _ hg

theorem releaseSlot_effects : Effects G e.core (e.releaseSlot relay generation).core := by
  unfold releaseSlot
  split
  · exact .refl
  · refine .single (.release ?_ ?_ ?_)
    · exact List.eraseP_sublist.map _
    · intro h hh
      obtain ⟨s, hs, rfl⟩ := List.mem_map.mp hh
      by_cases here : isSlot relay generation s = true
      · have same : s.generation = generation := by
          simp only [isSlot, Bool.and_eq_true, decide_eq_true_eq] at here
          exact here.2
        exact .inr (List.mem_cons.mpr (.inl same))
      · exact .inl (List.mem_map.mpr ⟨s, (List.mem_eraseP_of_neg here).mpr hs, rfl⟩)
    · exact fun g hg => List.mem_cons_of_mem _ hg

theorem allocate_eq_some {issued next : Nat} (h : allocate issued = some next) :
    next = issued + 1 := by
  unfold allocate at h
  rw [Option.ite_none_right_eq_some, Option.some.injEq] at h
  exact h.2.symm

theorem establish_effects {authority : Authority} :
    Effects G e.core (e.establish relay authority).core := by
  unfold establish
  split
  · split
    · exact .refl
    · exact effects_of_core_eq (core_withSlot fun _ => rfl)
  · split
    · exact .refl
    · rename_i next minted
      obtain rfl := allocate_eq_some minted
      refine .single (cast (congrArg _ ?_) (Effect.establish relay))
      simp only [core, List.map_append, List.map_cons, List.map_nil]
      rfl

/-- Whether closing this admission window asks for a new plan. -/
def replans (e : Engine) (relay : RelayUrl) (generation : Round) : Bool :=
  (e.slot relay generation).any fun s =>
    s.session.isSome && !((s.uncovered (e.demandForSlot relay generation)).isEmpty &&
      !s.orphaned (e.demandForSlot relay generation))

theorem execute_effects {constraints : RelayReadConstraints} {plan : SubscriptionPlan}
    (found : e.slot relay generation = some s) (free : G e.core generation)
    (lawful : PlanLawful constraints s.installed (e.revisions + 1) plan) :
    Effects G e.core (({ e with revisions := e.revisions + 1 }.withSlot relay generation fun s =>
      { s with armed := false, revision := some (e.revisions + 1) }).execute relay generation
        constraints plan).core := by
  obtain ⟨rfl, rfl, is, before, after, split, missed⟩ := slots_split found
  have at' : e.core.holdings = before.map Slot.toHolding ++ s.toHolding ::
      after.map Slot.toHolding := by
    rw [core, split, List.map_append, List.map_cons]
  have is' : isSlot s.relay s.generation
      { s with armed := false, revision := some (e.revisions + 1) } = true := is
  unfold execute
  split
  · rename_i noop
    refine .single (cast (congrArg _ ?_) (Effect.retain at' free lawful noop))
    simp only [core, withSlot, split, adjust_append missed is, adjust_append missed is',
      List.map_append, List.map_cons]
    rfl
  · have added : (e.installing ++ [Installing.mk s.relay s.generation plan.revision plan []] ++
        e.inbox.filterMap Report.done).Perm
          (⟨s.relay, s.generation, e.revisions + 1, plan, []⟩ :: e.plans) := by
      rw [lawful.revised, List.append_assoc]
      exact List.perm_middle
    refine .single (cast (congrArg _ ?_) (Effect.install at' free lawful added))
    simp only [core, withSlot, split, adjust_append missed is, adjust_append missed is',
      List.map_append, List.map_cons]
    rfl

theorem flush_effects (free : e.replans relay generation = true → G e.core generation) :
    Effects G e.core (e.flush P relay generation).core := by
  unfold flush
  dsimp only
  split
  · exact .refl
  · rename_i s found
    split
    · exact effects_of_core_eq (core_withSlot fun _ => rfl)
    · rename_i wanted
      split
      · exact effects_of_core_eq (core_withSlot fun _ => rfl)
      · rename_i session live
        have anew : e.replans relay generation = true := by
          rw [Bool.not_eq_true] at wanted
          rw [replans, found, Option.any_some, live, wanted]
          rfl
        replace free := free anew
        split
        · exact effects_of_core_eq (core_withSlot fun _ => rfl)
        · rename_i revision minted
          obtain rfl := allocate_eq_some minted
          have revised : Effects G e.core ({ e with revisions := e.revisions + 1 }.withSlot relay
              generation fun s =>
                { s with armed := false, revision := some (e.revisions + 1) }).core := by
            obtain ⟨rfl, rfl, -⟩ := slots_split found
            obtain ⟨before, after, at', changed⟩ := core_withSlot_of_slot found
            refine .single (cast (congrArg _ ?_) (Effect.revise at' free))
            have same := changed fun s =>
              { s with armed := false, revision := some (e.revisions + 1) }
            exact congrArg (fun c : Core => { c with revisions := e.revisions + 1 }) same.symm
          split
          · exact revised
          · rename_i plan planned
            split
            · exact execute_effects found free (P.planner.lawful _ _ _ _ _ _ planned)
            · exact revised

theorem visitRelay_effects {items : List (RelayDemand × Authority)} :
    Effects G e.core (e.visitRelay relay items).core := by
  unfold visitRelay
  induction items generalizing e with
  | nil => exact .refl
  | cons item items ih =>
    rw [List.foldl_cons]
    refine .trans ?_ ih
    dsimp only
    split
    · exact establish_effects
    · exact .refl

theorem reconcile_effects : Effects G e.core e.reconcile.core := by
  suffices released : ∀ relays : List RelayUrl, Effects G e.core (relays.foldl releaseRelay e).core
    from released _
  intro relays
  induction relays generalizing e with
  | nil => exact .refl
  | cons relay relays ih => exact releaseRelay_effects.trans ih

theorem visitSlot_effects : Effects G e.core (e.visitSlot relay generation).core := by
  unfold visitSlot
  dsimp only
  split
  · exact releaseSlot_effects
  · split
    · exact .refl
    · rename_i s found
      obtain ⟨before, after, at', changed⟩ := core_withSlot_of_slot found
      have attached : Effects G e.core (e.withSlot relay generation fun t =>
          { t with installed := (Holding.attach s.settled s.installed
            (e.demandForSlot relay generation)).1 }).core := by
        rw [changed]
        exact .single (.attach at' Holding.attach_spec.1)
      split
      · exact attached
      · split
        · exact attached
        · exact attached.trans (effects_of_core_eq (core_withSlot fun _ => rfl))

theorem acquired_effects {session : Session} :
    Effects G e.core (e.acquired relay generation session).core := by
  unfold acquired
  dsimp only
  split
  · exact .refl
  · split
    · exact effects_of_core_eq (core_withSlot fun _ => rfl)
    · exact effects_of_core_eq (core_withSlot fun _ => rfl)

/-- Moving a slot to a fresh generation fires the token of the one it leaves. -/
theorem advance_effects {change : Slot → Slot} (found : e.slot relay generation = some s)
    (advanced : ∀ s, (change s).toHolding = s.toHolding.advance (e.rounds + 1)) :
    Effects G e.core (({ e with rounds := e.rounds + 1 }.withSlot relay generation change).cancel
      generation).core := by
  obtain ⟨rfl, rfl, -⟩ := slots_split found
  obtain ⟨before, after, at', changed⟩ := core_withSlot_of_slot found
  refine .single (cast (congrArg _ ?_) (Effect.advance at'))
  have same := changed change
  rw [advanced] at same
  exact congrArg (fun c : Core =>
    { c with rounds := e.rounds + 1, fired := s.generation :: e.fired }) same.symm

theorem issue_effects : Effects G e.core { e with rounds := e.rounds + 1 }.core :=
  .single .issue

theorem refused_effects : Effects G e.core (e.refused relay generation).core := by
  unfold refused
  split
  · exact .refl
  · rename_i next minted
    obtain rfl := allocate_eq_some minted
    dsimp only
    split
    · exact issue_effects
    · rename_i s found
      have advanced : Effects G e.core (({ e with rounds := e.rounds + 1 }.withSlot relay generation
          fun s => { s.advance (e.rounds + 1) with session := none }).cancel generation).core :=
        advance_effects found fun _ => rfl
      exact advanced

theorem core_enterAdmission : (e.enterAdmission relay generation).core = e.core := by
  unfold enterAdmission
  split
  · rfl
  · split
    · rfl
    · exact core_withSlot fun _ => rfl

theorem reconnected_effects : Effects G e.core (e.reconnected relay generation).core := by
  unfold reconnected
  split
  · exact .refl
  · rename_i next minted
    obtain rfl := allocate_eq_some minted
    split
    · exact issue_effects
    · rename_i s found
      have advanced : Effects G e.core (({ e with rounds := e.rounds + 1 }.withSlot relay generation
          (·.advance (e.rounds + 1))).cancel generation).core := advance_effects found fun _ => rfl
      refine .trans ?_ (effects_of_core_eq core_enterAdmission)
      split
      · exact advanced
      · exact advanced

theorem connectionReplaced_effects :
    Effects G e.core (e.connectionReplaced relay generation).core := by
  unfold connectionReplaced
  split
  · exact .refl
  · exact reconnected_effects

theorem carried_effects {id : SubscriptionId} {item : Item} :
    Effects G e.core (e.carried P relay generation id item).core := by
  unfold carried
  split
  · exact .refl
  · split
    · exact .refl
    · unfold storedComplete
      dsimp only
      split
      · exact .refl
      · split
        · exact effects_of_core_eq (core_withSlot fun _ => rfl)
        · exact effects_of_core_eq (core_withSlot fun _ => rfl)
    all_goals exact .refl

/-- The core while the report of an installation is being processed. -/
theorem installed_effects {done : Installing} :
    Effects G { e.core with plans := done :: e.plans } (e.installed done).core := by
  unfold installed
  split
  · rename_i missing
    refine .single (.discard (.refl _) (.inl fun h hh same differs => ?_))
    obtain ⟨s, hs, rfl⟩ := List.mem_map.mp hh
    have := List.find?_eq_none.mp missing s hs
    simp [isSlot, same, differs] at this
  · rename_i s found
    obtain ⟨-, generation, -⟩ := slots_split found
    obtain ⟨before, after, at', changed⟩ := core_withSlot_of_slot found
    split
    · rename_i differs
      refine .single (.discard (.refl _) (.inr ⟨s.toHolding, ?_, generation, differs⟩))
      change s.toHolding ∈ e.core.holdings
      rw [at']
      simp
    · rename_i revision
      rw [not_not] at revision
      refine .single (cast (congrArg _ ?_) (Effect.accept (.refl _) at' generation revision))
      have same := changed fun t => t.rebase ((s.attend (done.opened.filterMap id)
        done.plan.close).1.recordInstalled done.plan done.opened done.plan.close)
      exact congrArg (fun c : Core => { c with
        handles := cancelled (s.attend (done.opened.filterMap id) done.plan.close).2
          (record done e.handles) }) same.symm

theorem accept_effects {report : Report} (plain : report.done = none)
    (free : ∀ relay generation, report = .flush relay generation →
      e.replans relay generation = true → G e.core generation) :
    Effects G e.core (e.accept P report).core := by
  cases report with
  | acquired relay generation session => exact acquired_effects
  | refused relay generation => exact refused_effects
  | installed done => cases plain
  | flush relay generation => exact flush_effects (free relay generation rfl)
  | connectionReplaced relay generation => exact connectionReplaced_effects
  | carried relay generation id item => exact carried_effects
  | constraints relay generation constraints =>
    exact effects_of_core_eq (core_withSlot fun _ => rfl)

theorem post_effects {report : Report} (posted : e.post report = some e') :
    Effects G { e.core with plans := e.plans ++ report.done.toList } e'.core := by
  unfold post at posted
  rw [Option.ite_none_right_eq_some, Option.some.injEq] at posted
  obtain ⟨-, rfl⟩ := posted
  have same : { e with inbox := e.inbox ++ [report] }.plans = e.plans ++ report.done.toList := by
    unfold plans
    rw [List.filterMap_append, ← List.append_assoc]
    cases h : report.done <;> simp [h]
  rw [← same]
  exact .refl

theorem post_effects_of_plain {report : Report} (plain : report.done = none)
    (posted : e.post report = some e') : Effects G e.core e'.core := by
  have effects := post_effects posted (G := G)
  rw [plain, Option.toList_none, List.append_nil] at effects
  exact effects

/-- A plan whose installation runs is in flight beside the others. -/
theorem plans_of_installing {task : Nat} {doing : Installing} (here : e.installing[task]? = some doing) :
    e.plans.Perm (doing :: (e.installing.eraseIdx task ++ e.inbox.filterMap Report.done)) := by
  obtain ⟨inside, rfl⟩ := List.getElem?_eq_some_iff.mp here
  exact (List.getElem_cons_eraseIdx_perm inside).symm.append_right _

theorem plans_of_set {task : Nat} {doing p : Installing} (here : e.installing[task]? = some doing) :
    (e.installing.set task p ++ e.inbox.filterMap Report.done).Perm
      (p :: (e.installing.eraseIdx task ++ e.inbox.filterMap Report.done)) :=
  (List.set_perm_cons_eraseIdx (List.getElem?_eq_some_iff.mp here).1 _).append_right _

end Engine

/-- The slot whose admission window the step closes. -/
def Engine.flushing (e : Engine) : Action → Option (RelayUrl × Round)
  | .visit =>
    match e.todo with
    | .flush relay generation :: _ => some (relay, generation)
    | _ => none
  | .receive =>
    match e.inbox with
    | .flush relay generation :: _ => some (relay, generation)
    | _ => none
  | _ => none

open Engine in
/-- Every step is a sequence of effects, and only a step that asks for a new plan
issues a revision. -/
theorem step_effects {G : Core → Round → Prop} {P : Providers} {e e' : Engine} {a : Action}
    (free : ∀ slot ∈ e.flushing a, e.replans slot.1 slot.2 = true → G e.core slot.2)
    (stepped : step P e a = some e') : Effects G e.core e'.core := by
  cases Stepped.of_step stepped with
  | observe | revive | authenticate | wake => exact .refl
  | reconcile => exact reconcile_effects (e := { e with dirty := false })
  | @visitRelay _ _ rest => exact visitRelay_effects (e := { e with todo := rest })
  | @visitSlot _ _ rest => exact visitSlot_effects (e := { e with todo := rest })
  | @flush relay generation rest todo =>
    refine flush_effects (e := { e with todo := rest }) (free (relay, generation) ?_)
    rw [flushing, todo]
    rfl
  | @receive report rest inbox =>
    cases plain : report.done with
    | none =>
      have same : { e with inbox := rest }.core = e.core := by
        simp only [core, plans, inbox, List.filterMap_cons, plain]
      rw [← same]
      refine accept_effects plain fun relay generation flushed anew => ?_
      subst flushed
      rw [same]
      refine free (relay, generation) ?_ anew
      rw [flushing, inbox]
      rfl
    | some done =>
      obtain rfl := Report.eq_installed plain
      refine .trans (.single (.shuffle ?_)) (installed_effects (e := { e with inbox := rest }))
      simp only [core, plans, inbox, List.filterMap_cons, plain]
      exact List.perm_middle.symm
  | @acquire e' task _ _ outcome _ posted =>
    cases outcome with
    | none => exact post_effects_of_plain (e := { e with tasks := e.tasks.eraseIdx task }) rfl posted
    | some session =>
      exact post_effects_of_plain (e := { e with tasks := e.tasks.eraseIdx task }) rfl posted
  | @elapse e' task _ _ _ posted | @declare e' task _ _ _ _ posted =>
    exact post_effects_of_plain (e := { e with tasks := e.tasks.eraseIdx task }) rfl posted
  | replace _ posted => exact post_effects_of_plain rfl posted
  | deny here next =>
    have short := (List.getElem?_eq_some_iff.mp next).1
    exact .single (.deny short (plans_of_installing here) (plans_of_set here))
  | subscribe here next unused =>
    refine .single (.subscribe next (fun x hx same => unused ?_) (plans_of_installing here)
      (plans_of_set here))
    exact List.any_eq_true.mpr ⟨x, hx, decide_eq_true same⟩
  | finish here _ posted =>
    have effects := post_effects (G := G) posted
    refine .trans (.single (.shuffle ?_)) effects
    exact List.perm_append_comm.trans (plans_of_installing here).symm
  | carry _ _ posted =>
    have effects := post_effects_of_plain (G := G) rfl posted
    exact effects

end Fava.Observe
