import Fava.Observe.Starvation

namespace Fava.Observe

open Std Fava.Lib Fava.Nostr Fava.Relay Fava.Subscriptions

/-- Only what was at the place is taken out. -/
theorem mem_eraseIdx {α : Type} {x y : α} {l : List α} {i : Nat} (here : l[i]? = some y)
    (member : x ∈ l) : x ∈ l.eraseIdx i ∨ x = y := by
  obtain ⟨j, at'⟩ := List.mem_iff_getElem?.mp member
  by_cases same : j = i
  · subst same
    rw [here] at at'
    exact .inr (Option.some.inj at').symm
  · exact .inl (List.mem_eraseIdx_iff_getElem?.mpr ⟨j, same, at'⟩)

namespace Engine

/-- The admission window of a slot ends: its timer runs, or has reported. -/
def Admits (e : Engine) (relay : RelayUrl) (generation : Round) : Prop :=
  Task.admission relay generation ∈ e.tasks ∨ Report.flush relay generation ∈ e.inbox

/-- Whoever acquires the connection of a slot is at it, or has reported what came of it. -/
def Acquires (e : Engine) (relay : RelayUrl) (generation : Round) : Prop :=
  Task.acquire relay generation ∈ e.tasks ∨ Report.refused relay generation ∈ e.inbox ∨
    ∃ session, Report.acquired relay generation session ∈ e.inbox

/-- What each slot waits for comes. -/
def Tended (e : Engine) : Prop :=
  ∀ s ∈ e.slots, (s.armed = true → e.Admits s.relay s.generation) ∧
    (s.busy = true → e.Acquires s.relay s.generation ∨ allocate e.rounds = none)

/-- Work of the owner on `u` forgets no task, and spawns one for whatever it makes a slot
wait for. -/
structure Tends (u v : Engine) : Prop where
  tasks : u.tasks ⊆ v.tasks
  inbox : v.inbox = u.inbox
  rounds : u.rounds ≤ v.rounds
  armed : ∀ s ∈ v.slots, s.armed = true → Task.admission s.relay s.generation ∈ v.tasks ∨
    ∃ t ∈ u.slots, t.relay = s.relay ∧ t.generation = s.generation ∧ t.armed = true
  busy : ∀ s ∈ v.slots, s.busy = true → Task.acquire s.relay s.generation ∈ v.tasks ∨
    ∃ t ∈ u.slots, t.relay = s.relay ∧ t.generation = s.generation ∧ t.busy = true

variable {P : Providers} {e e' u v w : Engine} {relay : RelayUrl} {generation : Round} {s : Slot}

theorem exhausted_of_le (later : u.rounds ≤ v.rounds) (exhausted : allocate u.rounds = none) :
    allocate v.rounds = none := by
  unfold allocate at exhausted ⊢
  split at exhausted
  · cases exhausted
  · exact if_neg (by omega)

/-- A slot is one that was there, or the one that was changed. -/
theorem mem_withSlot {change : Slot → Slot} {t : Slot} (here : u.slot relay generation = some s)
    (ht : t ∈ (u.withSlot relay generation change).slots) : t ∈ u.slots ∨ t = change s := by
  obtain ⟨-, -, before, after, split, replaced⟩ := withSlot_slots here
  rw [replaced u rfl] at ht
  rw [split]
  simp only [List.mem_append, List.mem_cons] at ht ⊢
  tauto

/-- A later change of a slot that hides an earlier one. -/
theorem withSlot_over (first change : Slot → Slot)
    (kept : ∀ s, isSlot relay generation (first s) = isSlot relay generation s)
    (hides : ∀ s, change (first s) = change s) :
    (u.withSlot relay generation first).withSlot relay generation change =
      u.withSlot relay generation change := by
  rw [withSlot_withSlot kept]
  congr
  exact funext hides

theorem slot_withSlot {change : Slot → Slot} (here : u.slot relay generation = some s)
    (kept : isSlot relay generation (change s) = true) :
    (u.withSlot relay generation change).slot relay generation = some (change s) := by
  obtain ⟨-, -, is, before, after, split, missed⟩ := slots_split here
  rw [Engine.slot, Engine.withSlot, split, adjust_append missed is, List.find?_append,
    List.find?_eq_none.mpr fun c hc => by simp [missed c hc], Option.none_or, List.find?_cons, kept]

namespace Tends

theorem tended (tends : Tends u v) (tended : u.Tended) : v.Tended := by
  intro s hs
  constructor
  · intro armed
    obtain spawned | ⟨t, ht, relay, generation, before⟩ := tends.armed s hs armed
    · exact .inl spawned
    · obtain waits | told := (tended t ht).1 before
      · rw [relay, generation] at waits
        exact .inl (tends.tasks waits)
      · rw [relay, generation, ← tends.inbox] at told
        exact .inr told
  · intro busy
    obtain spawned | ⟨t, ht, relay, generation, before⟩ := tends.busy s hs busy
    · exact .inl (.inl spawned)
    · obtain (waits | told) | exhausted := (tended t ht).2 before
      · rw [relay, generation] at waits
        exact .inl (.inl (tends.tasks waits))
      · rw [relay, generation, ← tends.inbox] at told
        exact .inl (.inr told)
      · exact .inr (exhausted_of_le tends.rounds exhausted)

/-- No slot is made to wait for anything. -/
theorem of_slots (tasks : u.tasks ⊆ v.tasks) (inbox : v.inbox = u.inbox)
    (rounds : u.rounds ≤ v.rounds) (slots : v.slots ⊆ u.slots) : Tends u v where
  tasks := tasks
  inbox := inbox
  rounds := rounds
  armed s hs armed := .inr ⟨s, slots hs, rfl, rfl, armed⟩
  busy s hs busy := .inr ⟨s, slots hs, rfl, rfl, busy⟩

theorem refl (u : Engine) : Tends u u :=
  .of_slots (List.Subset.refl _) rfl (Nat.le_refl _) (List.Subset.refl _)

theorem trans (first : Tends u v) (second : Tends v w) : Tends u w where
  tasks := List.Subset.trans first.tasks second.tasks
  inbox := second.inbox.trans first.inbox
  rounds := Nat.le_trans first.rounds second.rounds
  armed s hs armed := by
    obtain spawned | ⟨t, ht, relay, generation, before⟩ := second.armed s hs armed
    · exact .inl spawned
    · have origin := first.armed t ht before
      rw [relay, generation] at origin
      exact origin.imp_left (second.tasks ·)
  busy s hs busy := by
    obtain spawned | ⟨t, ht, relay, generation, before⟩ := second.busy s hs busy
    · exact .inl spawned
    · have origin := first.busy t ht before
      rw [relay, generation] at origin
      exact origin.imp_left (second.tasks ·)

/-- Nothing that slots wait for is told apart. -/
theorem like (tends : Tends u v) (tasks : w.tasks = v.tasks) (inbox : w.inbox = v.inbox)
    (rounds : w.rounds = v.rounds) (slots : w.slots = v.slots) : Tends u w :=
  tends.trans (.of_slots (by rw [tasks]; exact List.Subset.refl _) inbox rounds.ge
    (by rw [slots]; exact List.Subset.refl _))

theorem popped {rest : List Visit} : Tends u { u with todo := rest } :=
  .like (.refl u) rfl rfl rfl rfl

theorem spawn (u : Engine) (task : Task) : Tends u (u.spawn task) :=
  .of_slots (List.subset_append_left _ _) rfl (Nat.le_refl _) (List.Subset.refl _)

/-- One slot is changed, and waits for nothing it did not wait for. -/
theorem withSlot {change : Slot → Slot}
    (keeps : ∀ s, u.slot relay generation = some s →
      ((change s).armed = true →
        s.relay = (change s).relay ∧ s.generation = (change s).generation ∧ s.armed = true) ∧
      ((change s).busy = true →
        s.relay = (change s).relay ∧ s.generation = (change s).generation ∧ s.busy = true)) :
    Tends u (u.withSlot relay generation change) := by
  cases here : u.slot relay generation with
  | none =>
    refine .of_slots (List.Subset.refl _) rfl (Nat.le_refl _) ?_
    rw [Engine.withSlot, adjust_of_find?_eq_none here]
    exact List.Subset.refl _
  | some s =>
    have hs : s ∈ u.slots := List.mem_of_find?_eq_some here
    refine ⟨List.Subset.refl _, rfl, Nat.le_refl _, fun t ht armed => ?_, fun t ht busy => ?_⟩
    · obtain kept | rfl := mem_withSlot here ht
      · exact .inr ⟨t, kept, rfl, rfl, armed⟩
      · exact .inr ⟨s, hs, (keeps s here).1 armed⟩
    · obtain kept | rfl := mem_withSlot here ht
      · exact .inr ⟨t, kept, rfl, rfl, busy⟩
      · exact .inr ⟨s, hs, (keeps s here).2 busy⟩

/-- What a slot waits for is untouched. -/
theorem rest {change : Slot → Slot} (relays : ∀ s, (change s).relay = s.relay)
    (generations : ∀ s, (change s).generation = s.generation)
    (armed : ∀ s, (change s).armed = true → s.armed = true)
    (busy : ∀ s, (change s).busy = true → s.busy = true) :
    Tends u (u.withSlot relay generation change) :=
  withSlot fun s _ => ⟨fun still => ⟨(relays s).symm, (generations s).symm, armed s still⟩,
    fun still => ⟨(relays s).symm, (generations s).symm, busy s still⟩⟩

/-- A window is opened where its timer runs. -/
theorem opens (change : Slot → Slot) (relays : ∀ s, (change s).relay = s.relay)
    (generations : ∀ s, (change s).generation = s.generation)
    (busy : ∀ s, (change s).busy = true → s.busy = true) (tasks : u.tasks ⊆ v.tasks)
    (runs : Task.admission relay generation ∈ v.tasks) (inbox : v.inbox = u.inbox)
    (rounds : v.rounds = u.rounds) (slots : v.slots = (u.withSlot relay generation change).slots) :
    Tends u v := by
  cases here : u.slot relay generation with
  | none =>
    rw [Engine.withSlot, adjust_of_find?_eq_none here] at slots
    exact .of_slots tasks inbox rounds.ge (by rw [slots]; exact List.Subset.refl _)
  | some s =>
    obtain ⟨rfl, rfl, -⟩ := slots_split here
    refine ⟨tasks, inbox, rounds.ge, fun t ht armed => ?_, fun t ht waits => ?_⟩
    · rw [slots] at ht
      obtain kept | rfl := mem_withSlot here ht
      · exact .inr ⟨t, kept, rfl, rfl, armed⟩
      · rw [relays, generations]
        exact .inl runs
    · rw [slots] at ht
      obtain kept | rfl := mem_withSlot here ht
      · exact .inr ⟨t, kept, rfl, rfl, waits⟩
      · exact .inr ⟨s, List.mem_of_find?_eq_some here, (relays s).symm, (generations s).symm,
          busy s waits⟩

theorem arms :
    Tends u ((u.withSlot relay generation fun s => { s with armed := true }).arm relay generation) :=
  opens (fun s => { s with armed := true }) (fun _ => rfl) (fun _ => rfl) (fun _ => id)
    (List.subset_append_left _ _) (List.mem_append_right _ (List.mem_singleton.mpr rfl)) rfl rfl rfl

theorem establish {authority : Authority} (unreached : u.slotFor relay authority = none) :
    Tends u (u.establish relay authority) := by
  obtain ⟨-, same⟩ | new := establish_eq unreached
  · rw [same]
    exact .refl u
  · rw [new]
    refine ⟨List.subset_append_left _ _, rfl, Nat.le_succ _, fun t ht armed => ?_,
      fun t ht busy => ?_⟩
    · obtain kept | opened := List.mem_append.mp ht
      · exact .inr ⟨t, kept, rfl, rfl, armed⟩
      · rw [List.mem_singleton.mp opened] at armed
        cases armed
    · obtain kept | opened := List.mem_append.mp ht
      · exact .inr ⟨t, kept, rfl, rfl, busy⟩
      · rw [List.mem_singleton.mp opened]
        exact .inl (List.mem_append_right _ (List.mem_singleton.mpr rfl))

theorem visitRelay {items : List (RelayDemand × Authority)} :
    Tends u (u.visitRelay relay items) := by
  suffices established : Tends u (items.foldl (fun e item =>
      if (e.slotFor relay item.2).isNone then e.establish relay item.2 else e) u) from
    established.trans (.of_slots (List.Subset.refl _) rfl (Nat.le_refl _) (List.Subset.refl _))
  induction items generalizing u with
  | nil => exact .refl u
  | cons item items ih =>
    rw [List.foldl_cons]
    refine .trans ?_ ih
    split
    · exact establish (Option.isNone_iff_eq_none.mp ‹_›)
    · exact .refl u

theorem releaseSlot : Tends u (u.releaseSlot relay generation) := by
  unfold Engine.releaseSlot
  split
  · exact .refl u
  · exact .of_slots (List.Subset.refl _) rfl (Nat.le_refl _) List.eraseP_subset

theorem visitSlot : Tends u (u.visitSlot relay generation) := by
  unfold Engine.visitSlot
  dsimp only
  split
  · exact releaseSlot
  · split
    · exact .refl u
    · rename_i s here
      generalize (Holding.attach s.settled s.installed (u.demandForSlot relay generation)).1 = joined
      generalize (Holding.attach s.settled s.installed (u.demandForSlot relay generation)).2 = credited
      have attached :
          Tends u (u.withSlot relay generation fun s => { s with installed := joined }) :=
        rest (fun _ => rfl) (fun _ => rfl) (fun _ => id) fun _ => id
      split
      · exact attached.like rfl rfl rfl rfl
      · split
        · exact attached.like rfl rfl rfl rfl
        · refine .trans ?_ arms
          exact attached.like rfl rfl rfl rfl

theorem releaseRelay : Tends u (u.releaseRelay relay) :=
  .of_slots (List.Subset.refl _) rfl (Nat.le_refl _) List.filter_sublist.subset

theorem reconcile : Tends u u.reconcile := by
  suffices released : ∀ relays : List RelayUrl, Tends u (relays.foldl Engine.releaseRelay u) from
    (released _).like rfl rfl rfl rfl
  intro relays
  induction relays generalizing u with
  | nil => exact .refl u
  | cons relay relays ih => exact .trans releaseRelay ih

theorem execute {constraints : RelayReadConstraints} {plan : SubscriptionPlan} :
    Tends u (u.execute relay generation constraints plan) := by
  unfold Engine.execute
  dsimp only
  have recorded : Tends u { u with handles := replan generation constraints plan u.handles } :=
    .like (.refl u) rfl rfl rfl rfl
  split
  · exact recorded.trans (rest (fun _ => rfl) (fun _ => rfl) (fun _ => id) fun _ => id)
  · have promised : Tends u ({ u with handles := replan generation constraints plan u.handles }.withSlot
        relay generation fun s => { s with toHolding := s.recordCompleteness plan }) :=
      recorded.trans (rest (fun _ => rfl) (fun _ => rfl) (fun _ => id) fun _ => id)
    exact promised.like rfl rfl rfl rfl

/-- The window closes whatever becomes of the plan, or is opened once more. -/
theorem flush : Tends (u.withSlot relay generation fun s => { s with armed := false })
    (u.flush P relay generation) := by
  unfold Engine.flush
  dsimp only
  split
  · rename_i here
    rw [Engine.withSlot, adjust_of_find?_eq_none here]
    exact .refl u
  · split
    · exact .refl _
    · split
      · rw [← withSlot_over (fun s => { s with armed := false }) (fun s => { s with armed := true })
          (fun _ => rfl) fun _ => rfl]
        exact arms
      · split
        · exact .refl _
        · rename_i revision _
          have closed : Tends (u.withSlot relay generation fun s => { s with armed := false })
              ({ u with revisions := revision }.withSlot relay generation fun s =>
                { s with armed := false }) := .like (.refl _) rfl rfl rfl rfl
          have issued : Tends (u.withSlot relay generation fun s => { s with armed := false })
              ({ u with revisions := revision }.withSlot relay generation fun s =>
                { s with armed := false, revision := some revision }) := by
            rw [← withSlot_over (fun s => { s with armed := false })
              (fun s => { s with armed := false, revision := some revision }) (fun _ => rfl)
              fun _ => rfl]
            exact closed.trans (rest (fun _ => rfl) (fun _ => rfl) (fun _ still => by cases still)
              fun _ => id)
          split
          · exact issued
          · split
            · exact issued.trans execute
            · exact issued

/-- Once the connection is there, a window for it is open with its timer. -/
theorem acquired {session : Session} :
    Tends (u.withSlot relay generation fun s => { s with busy := false })
      (u.acquired relay generation session) := by
  unfold Engine.acquired
  split
  · rename_i here
    rw [Engine.withSlot, adjust_of_find?_eq_none here]
    exact .refl u
  · rename_i s here
    have again : (u.withSlot relay generation fun s => { s with busy := false }).withSlot relay
        generation (fun s => { s with session := some session, busy := false, armed := true }) =
        u.withSlot relay generation fun s =>
          { s with session := some session, busy := false, armed := true } :=
      withSlot_over _ _ (fun _ => rfl) fun _ => rfl
    dsimp only
    split
    · rename_i open'
      have held : Tends (u.withSlot relay generation fun s => { s with busy := false })
          (u.withSlot relay generation fun s =>
            { s with session := some session, busy := false, armed := true }) := by
        rw [← again]
        refine withSlot fun t found => ⟨fun _ => ⟨rfl, rfl, ?_⟩, fun still => by cases still⟩
        rw [slot_withSlot here (slots_split here).2.2.1] at found
        cases found
        exact open'
      exact (held.trans (spawn _ _)).trans (spawn _ _)
    · have first :
          u.tasks ⊆ u.tasks ++ [Task.listen relay generation] ++ [Task.fetch relay generation] :=
        List.Subset.trans (List.subset_append_left _ _) (List.subset_append_left _ _)
      refine opens (fun s => { s with session := some session, busy := false, armed := true })
        (fun _ => rfl) (fun _ => rfl) (fun _ still => by cases still)
        (List.Subset.trans first (List.subset_append_left _ _))
        (List.mem_append_right _ (List.mem_singleton.mpr rfl)) rfl rfl ?_
      rw [again]
      rfl

/-- A slot on its next generation waits for nothing. -/
theorem advance (change : Slot → Slot) (armed : ∀ s, (change s).armed = false)
    (busy : ∀ s, (change s).busy = false) : Tends u (u.withSlot relay generation change) :=
  withSlot fun s _ => ⟨fun still => by simp [armed] at still, fun still => by simp [busy] at still⟩

theorem refused {next : Round} (minted : allocate u.rounds = some next) :
    Tends (u.withSlot relay generation fun s => { s with busy := false })
      (u.refused relay generation) := by
  unfold Engine.refused
  rw [minted]
  obtain rfl := allocate_eq_some minted
  dsimp only
  split
  · rename_i gone
    rw [Engine.withSlot, adjust_of_find?_eq_none gone]
    exact .of_slots (List.Subset.refl _) rfl (Nat.le_succ _) (List.Subset.refl _)
  · have later : Tends (u.withSlot relay generation fun s => { s with busy := false })
        ({ u with rounds := u.rounds + 1 }.withSlot relay generation fun s =>
          { s with busy := false }) :=
      .of_slots (List.Subset.refl _) rfl (Nat.le_succ _) (List.Subset.refl _)
    have moved : Tends (u.withSlot relay generation fun s => { s with busy := false })
        ({ u with rounds := u.rounds + 1 }.withSlot relay generation fun s =>
          { s.advance (u.rounds + 1) with session := none }) := by
      rw [← withSlot_over (fun s => { s with busy := false })
        (fun s => { s.advance (u.rounds + 1) with session := none }) (fun _ => rfl) fun _ => rfl]
      exact later.trans (advance _ (fun _ => rfl) fun _ => rfl)
    exact moved.like rfl rfl rfl rfl

theorem enterAdmission : Tends u (u.enterAdmission relay generation) := by
  unfold Engine.enterAdmission
  split
  · exact .refl u
  · split
    · exact .refl u
    · exact arms

theorem connectionReplaced : Tends u (u.connectionReplaced relay generation) := by
  unfold Engine.connectionReplaced
  split
  · exact .refl u
  · unfold reconnected
    split
    · exact .refl u
    · rename_i next minted
      have later : Tends u { u with rounds := next } := by
        obtain rfl := allocate_eq_some minted
        exact .of_slots (List.Subset.refl _) rfl (Nat.le_succ _) (List.Subset.refl _)
      split
      · exact later
      · dsimp only
        refine .trans ?_ enterAdmission
        have advanced : Tends u (({ u with rounds := next }.withSlot relay generation
            (·.advance next)).cancel generation) := by
          have moved : Tends u ({ u with rounds := next }.withSlot relay generation
              (·.advance next)) := later.trans (advance _ (fun _ => rfl) fun _ => rfl)
          exact moved.like rfl rfl rfl rfl
        split
        · exact advanced.trans (spawn _ _)
        · exact advanced

theorem installed {done : Installing} : Tends u (u.installed done) := by
  unfold Engine.installed
  split
  · exact .refl u
  · rename_i s here
    split
    · exact .refl u
    · dsimp only
      generalize record done u.handles = handles
      obtain ⟨relay, generation, -⟩ := slots_split here
      have recorded : Tends u ({ u with handles := handles }.withSlot done.relay done.generation
          (·.rebase ((s.attend (done.opened.filterMap id) done.plan.close).1.recordInstalled done.plan
            done.opened done.plan.close))) := by
        have before : Tends u { u with handles := handles } := .like (.refl u) rfl rfl rfl rfl
        refine before.trans (withSlot fun t found => ?_)
        have same : t = s := Option.some.inj (found.symm.trans here)
        exact same ▸ ⟨fun armed => ⟨rfl, rfl, armed⟩, fun busy => ⟨rfl, rfl, busy⟩⟩
      exact recorded.like rfl rfl rfl rfl

theorem carried {id : SubscriptionId} {item : Item} :
    Tends u (u.carried P relay generation id item) := by
  unfold Engine.carried
  split
  · exact .refl u
  · split
    · exact .like (.refl u) rfl rfl rfl rfl
    · unfold storedComplete
      dsimp only
      generalize u.deliveries ++ _ = deliveries
      have delivered : Tends u { u with deliveries := deliveries } := .like (.refl u) rfl rfl rfl rfl
      split
      · exact delivered
      · have settled : Tends u ({ u with deliveries := deliveries }.withSlot relay generation fun s =>
            { s with settled := s.settled.insert id true }) :=
          delivered.trans (rest (fun _ => rfl) (fun _ => rfl) (fun _ still => still)
            fun _ still => still)
        split
        · exact settled.like rfl rfl rfl rfl
        · exact settled
    all_goals exact .refl u

end Tends

/-- What a report answers is no longer waited for once the report is taken. -/
theorem Tended.taken {report : Report} {rest : List Report} (tended : e.Tended)
    (inbox : e.inbox = report :: rest) (left : v.inbox = rest) (tasks : v.tasks = e.tasks)
    (rounds : v.rounds = e.rounds)
    (armed : ∀ s ∈ v.slots, s.armed = true → report ≠ .flush s.relay s.generation ∧
      ∃ t ∈ e.slots, t.relay = s.relay ∧ t.generation = s.generation ∧ t.armed = true)
    (busy : ∀ s ∈ v.slots, s.busy = true → allocate v.rounds = none ∨
      report ≠ .refused s.relay s.generation ∧
        (∀ session, report ≠ .acquired s.relay s.generation session) ∧
        ∃ t ∈ e.slots, t.relay = s.relay ∧ t.generation = s.generation ∧ t.busy = true) :
    v.Tended := by
  intro s hs
  constructor
  · intro waits
    obtain ⟨other, t, ht, relay, generation, before⟩ := armed s hs waits
    have admits := (tended t ht).1 before
    rw [relay, generation, Admits, inbox, ← tasks] at admits
    obtain runs | told := admits
    · exact .inl runs
    · obtain first | later := List.mem_cons.mp told
      · exact absurd first.symm other
      · rw [← left] at later
        exact .inr later
  · intro waits
    obtain exhausted | ⟨kept, given, t, ht, relay, generation, before⟩ := busy s hs waits
    · exact .inr exhausted
    · obtain acquires | exhausted := (tended t ht).2 before
      · rw [relay, generation, Acquires, inbox, ← tasks] at acquires
        obtain runs | told | ⟨session, told⟩ := acquires
        · exact .inl (.inl runs)
        · obtain first | later := List.mem_cons.mp told
          · exact absurd first.symm kept
          · rw [← left] at later
            exact .inl (.inr (.inl later))
        · obtain first | later := List.mem_cons.mp told
          · exact absurd first.symm (given session)
          · rw [← left] at later
            exact .inl (.inr (.inr ⟨session, later⟩))
      · rw [← rounds] at exhausted
        exact .inr exhausted

/-- A report that no slot waits for. -/
theorem Tended.drop {report : Report} {rest : List Report} (tended : e.Tended)
    (inbox : e.inbox = report :: rest) (plain : ∀ relay generation, report ≠ .flush relay generation)
    (answers : ∀ relay generation, report ≠ .refused relay generation ∧
      ∀ session, report ≠ .acquired relay generation session) :
    { e with inbox := rest }.Tended :=
  tended.taken inbox rfl rfl rfl (fun s hs waits => ⟨plain _ _, s, hs, rfl, rfl, waits⟩)
    fun s hs waits => .inr ⟨(answers _ _).1, (answers _ _).2, s, hs, rfl, rfl, waits⟩

/-- A slot is the one that was changed, or one of another generation. -/
theorem mem_withSlot_of_sound (sound : Sound e.core) {change : Slot → Slot} {t : Slot}
    (slots : u.slots = e.slots) (ht : t ∈ (u.withSlot relay generation change).slots) :
    t ∈ e.slots ∧ isSlot relay generation t = false ∨
      ∃ s ∈ e.slots, s.relay = relay ∧ s.generation = generation ∧ t = change s := by
  rw [Engine.withSlot, slots] at ht
  cases here : e.slot relay generation with
  | none =>
    rw [adjust_of_find?_eq_none here] at ht
    exact .inl ⟨ht, Bool.eq_false_iff.mpr (List.find?_eq_none.mp here t ht)⟩
  | some s =>
    have hs : s ∈ e.slots := List.mem_of_find?_eq_some here
    obtain ⟨rfl, rfl, is, before, after, split, missed⟩ := slots_split here
    have apart := sound.apart
    rw [Engine.core, List.map_map, split, List.map_append, List.map_cons] at apart
    have alone := (List.nodup_cons.mp (List.nodup_append.mp apart).2.1).1
    rw [split, adjust_append missed is] at ht
    obtain earlier | changed := List.mem_append.mp ht
    · exact .inl ⟨split ▸ List.mem_append_left _ earlier, missed t earlier⟩
    · obtain rfl | later := List.mem_cons.mp changed
      · exact .inr ⟨s, hs, rfl, rfl, rfl⟩
      · refine .inl ⟨split ▸ List.mem_append_right _ (List.mem_cons_of_mem _ later), ?_⟩
        rw [isSlot, Bool.and_eq_false_iff, decide_eq_false_iff_not, decide_eq_false_iff_not]
        exact .inr fun same => alone (List.mem_map.mpr ⟨t, later, same⟩)

theorem isSlot_self (s : Slot) : isSlot s.relay s.generation s = true := by simp [isSlot]

/-- A flush that is processed closes the window that it was posted for. -/
theorem Tended.flush {rest : List Report} (tended : e.Tended) (sound : Sound e.core)
    (inbox : e.inbox = .flush relay generation :: rest) :
    ({ e with inbox := rest }.flush P relay generation).Tended := by
  refine Tends.flush.tended (tended.taken inbox rfl rfl rfl (fun s hs waits => ?_) fun s hs waits => ?_)
  · obtain ⟨kept, other⟩ | ⟨t, -, -, -, rfl⟩ := mem_withSlot_of_sound sound rfl hs
    · refine ⟨?_, s, kept, rfl, rfl, waits⟩
      rintro ⟨⟩
      rw [isSlot_self] at other
      cases other
    · cases waits
  · refine .inr ⟨by simp, by simp, ?_⟩
    obtain ⟨kept, -⟩ | ⟨t, ht, -, -, rfl⟩ := mem_withSlot_of_sound sound rfl hs
    · exact ⟨s, kept, rfl, rfl, waits⟩
    · exact ⟨t, ht, rfl, rfl, waits⟩

/-- An answer that is processed was waited for by its slot only. -/
theorem Tended.answered {report : Report} {rest : List Report} (tended : e.Tended)
    (sound : Sound e.core) (inbox : e.inbox = report :: rest)
    (answers : report = .refused relay generation ∨
      ∃ session, report = .acquired relay generation session) :
    ({ e with inbox := rest }.withSlot relay generation fun s => { s with busy := false }).Tended := by
  have other : ∀ s : Slot, isSlot relay generation s = false →
      report ≠ .refused s.relay s.generation ∧
        ∀ session, report ≠ .acquired s.relay s.generation session := by
    intro s away
    obtain rfl | ⟨session, rfl⟩ := answers <;>
      refine ⟨?_, fun given => ?_⟩ <;> rintro ⟨⟩ <;> rw [isSlot_self] at away <;> cases away
  refine tended.taken inbox rfl rfl rfl (fun s hs waits => ⟨?_, ?_⟩) fun s hs waits => ?_
  · obtain rfl | ⟨session, rfl⟩ := answers <;> simp
  · obtain ⟨kept, -⟩ | ⟨t, ht, -, -, rfl⟩ := mem_withSlot_of_sound sound rfl hs
    · exact ⟨s, kept, rfl, rfl, waits⟩
    · exact ⟨t, ht, rfl, rfl, waits⟩
  · obtain ⟨kept, away⟩ | ⟨t, -, -, -, rfl⟩ := mem_withSlot_of_sound sound rfl hs
    · exact .inr ⟨(other s away).1, (other s away).2, s, kept, rfl, rfl, waits⟩
    · cases waits

/-- A refusal moves its slot on, unless no round is left. -/
theorem Tended.refused {rest : List Report} (tended : e.Tended) (sound : Sound e.core)
    (inbox : e.inbox = .refused relay generation :: rest) :
    ({ e with inbox := rest }.refused relay generation).Tended := by
  cases minted : allocate e.rounds with
  | none =>
    unfold Engine.refused
    dsimp only
    rw [minted]
    exact tended.taken inbox rfl rfl rfl (fun s hs waits => ⟨by simp, s, hs, rfl, rfl, waits⟩)
      fun _ _ _ => .inl minted
  | some next =>
    exact (Tends.refused (u := { e with inbox := rest }) minted).tended
      (tended.answered sound inbox (.inl rfl))

theorem Tended.accept {report : Report} {rest : List Report} (tended : e.Tended)
    (sound : Sound e.core) (inbox : e.inbox = report :: rest) :
    ({ e with inbox := rest }.accept P report).Tended := by
  cases report with
  | acquired relay generation session =>
    exact Tends.acquired.tended (tended.answered sound inbox (.inr ⟨session, rfl⟩))
  | refused relay generation => exact tended.refused sound inbox
  | flush relay generation => exact tended.flush sound inbox
  | installed done => exact Tends.installed.tended (tended.drop inbox (by simp) (by simp))
  | connectionReplaced relay generation =>
    exact Tends.connectionReplaced.tended (tended.drop inbox (by simp) (by simp))
  | carried relay generation id item =>
    exact Tends.carried.tended (tended.drop inbox (by simp) (by simp))
  | constraints relay generation constraints =>
    change ({ e with inbox := rest }.withSlot relay generation fun s =>
      { s with constraints := constraints }).Tended
    refine Tends.tended ?_ (tended.drop inbox (by simp) (by simp))
    exact .rest (fun _ => rfl) (fun _ => rfl) (fun _ => id) fun _ => id

/-- The report says what the task was spawned for. -/
def Task.AnsweredBy : Task → Report → Prop
  | .admission relay generation, report => report = .flush relay generation
  | .acquire relay generation, report =>
    report = .refused relay generation ∨ ∃ session, report = .acquired relay generation session
  | _, _ => True

/-- A report is queued, and no task is gone that it does not answer. -/
theorem Tended.post {report : Report} (tended : e.Tended) (posted : u.post report = some e')
    (slots : u.slots = e.slots) (rounds : u.rounds = e.rounds) (inbox : u.inbox = e.inbox)
    (tasks : ∀ task ∈ e.tasks, task ∈ u.tasks ∨ Task.AnsweredBy task report) : e'.Tended := by
  unfold Engine.post at posted
  rw [Option.ite_none_right_eq_some, Option.some.injEq] at posted
  obtain ⟨-, rfl⟩ := posted
  have told : ∀ r ∈ e.inbox, r ∈ u.inbox ++ [report] := by
    rw [inbox]
    exact fun r hr => List.mem_append_left _ hr
  have last : report ∈ u.inbox ++ [report] := List.mem_append_right _ (List.mem_singleton.mpr rfl)
  intro s hs
  change s ∈ u.slots at hs
  rw [slots] at hs
  constructor
  · intro armed
    obtain runs | flushed := (tended s hs).1 armed
    · obtain still | answered := tasks _ runs
      · exact .inl still
      · rw [Task.AnsweredBy] at answered
        exact .inr (answered ▸ last)
    · exact .inr (told _ flushed)
  · intro busy
    change _ ∨ allocate u.rounds = none
    rw [rounds]
    refine ((tended s hs).2 busy).imp_left ?_
    rintro (runs | refused | ⟨session, acquired⟩)
    · obtain still | answered := tasks _ runs
      · exact .inl still
      · rw [Task.AnsweredBy] at answered
        obtain rfl | ⟨session, rfl⟩ := answered
        · exact .inr (.inl last)
        · exact .inr (.inr ⟨session, last⟩)
    · exact .inr (.inl (told _ refused))
    · exact .inr (.inr ⟨session, told _ acquired⟩)

/-- A task that ends has reported. -/
theorem Tended.ended {task : Task} {i : Nat} {report : Report} (tended : e.Tended)
    (here : e.tasks[i]? = some task)
    (posted : { e with tasks := e.tasks.eraseIdx i }.post report = some e')
    (answered : Task.AnsweredBy task report) : e'.Tended := by
  refine tended.post posted rfl rfl rfl fun other member => ?_
  refine (mem_eraseIdx here member).imp_right ?_
  rintro rfl
  exact answered

end Engine

open Engine in
theorem Engine.Tended.step {P : Providers} {e e' : Engine} {a : Action} (tended : e.Tended)
    (sound : Sound e.core) (stepped : step P e a = some e') : e'.Tended := by
  cases Stepped.of_step stepped with
  | observe | revive | authenticate | wake | deny | subscribe =>
    exact (Tends.like (.refl e) rfl rfl rfl rfl).tended tended
  | reconcile =>
    have clean : Tends e { e with dirty := false } := .like (.refl e) rfl rfl rfl rfl
    exact (clean.trans .reconcile).tended tended
  | visitRelay => exact (Tends.popped.trans .visitRelay).tended tended
  | visitSlot => exact (Tends.popped.trans .visitSlot).tended tended
  | @flush relay generation rest =>
    have closed : Tends e ({ e with todo := rest }.withSlot relay generation fun s =>
        { s with armed := false }) :=
      Tends.popped.trans (.rest (fun _ => rfl) (fun _ => rfl) (fun _ still => by cases still) fun _ => id)
    exact (closed.trans .flush).tended tended
  | receive inbox => exact tended.accept sound inbox
  | @acquire _ _ _ _ outcome here posted =>
    refine tended.ended here posted ?_
    cases outcome with
    | none => exact .inl rfl
    | some session => exact .inr ⟨session, rfl⟩
  | elapse here posted => exact tended.ended here posted rfl
  | declare here posted => exact tended.ended here posted trivial
  | replace _ posted | finish _ _ posted | carry _ _ posted =>
    exact tended.post posted rfl rfl rfl fun task member => .inl member

/-- In every run an open window has its timer running or its flush queued, and a connection
that is being acquired has its task at work or the answer queued, unless no round is left. -/
theorem run_tended {P : Providers} {G : Engine → Action → Prop} {acts : List Action} {e : Engine}
    (run : Run (step P) G .start acts e) : e.Tended := by
  suffices all : Sound e.core ∧ e.Tended from all.2
  refine run.invariant (fun e => Sound e.core ∧ e.Tended)
    ⟨Engine.start_sound, fun s hs => by cases hs⟩ ?_
  rintro e a e' ⟨sound, tended⟩ - stepped
  exact ⟨step_sound sound stepped, tended.step sound stepped⟩

/-- The same with what the registry is told. -/
theorem told_tended {P : Providers} {G : Told → Action × Timestamp × BoundedText → Prop}
    {acts : List (Action × Timestamp × BoundedText)} {t : Told}
    (run : Run (Told.step P) G .start acts t) : t.engine.Tended := by
  suffices all : Sound t.engine.core ∧ t.engine.Tended from all.2
  refine run.invariant (fun t => Sound t.engine.core ∧ t.engine.Tended)
    ⟨Engine.start_sound, fun s hs => by cases hs⟩ ?_
  rintro t x t' ⟨sound, tended⟩ - stepped
  have moved := (Told.step_eq stepped).1
  exact ⟨step_sound sound moved, tended.step sound moved⟩

end Fava.Observe
