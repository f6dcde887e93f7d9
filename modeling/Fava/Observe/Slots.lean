import Fava.Observe.Sound
import Fava.Observe.Traffic

namespace Fava.Observe

open Std Fava.Lib Fava.Nostr Fava.Relay Fava.Subscriptions

namespace Engine

/-- The report the step processes. -/
def receiving (e : Engine) : Action → Option Report
  | .receive => e.inbox.head?
  | _ => none

/-- The relay the step opens slots for, with the demand it was queued with. -/
def opening (e : Engine) : Action → Option (RelayUrl × List (RelayDemand × Authority))
  | .visit =>
    match e.todo with
    | .relay relay items :: _ => some (relay, items)
    | _ => none
  | _ => none

/-- The planner answers the demand of a slot with a plan that conforms. -/
def planned (P : Providers) (e : Engine) (s : Slot) (plan : SubscriptionPlan) : Prop :=
  P.planner.plan s.relay (e.demandForSlot s.relay s.generation) s.constraints s.installed
      (e.revisions + 1) = .ok plan ∧
    validatePlan s.relay (e.demandForSlot s.relay s.generation) s.constraints s.installed plan = .ok ()

/-- The slot the step works on, if it works on one, is gone. -/
def Absent (e : Engine) (a : Action) : Prop :=
  ∀ x, e.visiting a = some x ∨ e.flushing a = some x → e.slot x.1 x.2 = none

end Engine

/-- The slot once a plan of its own has been issued. -/
def Slot.issue (s : Slot) (revision : Nat) : Slot :=
  { s with armed := false, revision := some revision }

/-- What the slot has on record once an installation has reported. -/
def Slot.record (s : Slot) (done : Installing) : Slot :=
  s.rebase ((s.attend (done.opened.filterMap id) done.plan.close).1.recordInstalled done.plan
    done.opened done.plan.close)

/-- What one step can do to one slot. -/
inductive SlotChange (P : Providers) (e : Engine) (a : Action) (e' : Engine) (s : Slot) : Slot → Prop
  | settle (id : SubscriptionId)
      (received : e.receiving a = some (.carried s.relay s.generation id .endOfStoredEvents)) :
      SlotChange P e a e' s { s with settled := s.settled.insert id true }
  | limit (constraints : RelayReadConstraints)
      (received : e.receiving a = some (.constraints s.relay s.generation constraints)) :
      SlotChange P e a e' s { s with constraints := constraints }
  | join (armed : Bool) {joined : InstalledSubscriptions}
      (visited : e.visiting a = some (s.relay, s.generation))
      (attached : (Holding.attach s.settled s.installed
        (e.demandForSlot s.relay s.generation)).1 = joined)
      (still : s.armed = true → armed = true)
      (arms : armed = true ∨ Visit.flush s.relay s.generation ∈ e'.todo ∨
        Holding.uncovered { s.toHolding with installed := joined }
          (e.demandForSlot s.relay s.generation) = []) :
      SlotChange P e a e' s { s with installed := joined, armed := armed }
  | idle (flushed : e.flushing a = some (s.relay, s.generation))
      (covered : s.uncovered (e.demandForSlot s.relay s.generation) = []) :
      SlotChange P e a e' s { s with armed := false }
  | wait (flushed : e.flushing a = some (s.relay, s.generation)) (away : s.session = none) :
      SlotChange P e a e' s { s with armed := true }
  | spent (flushed : e.flushing a = some (s.relay, s.generation))
      (live : s.session.isSome = true) (exhausted : allocate e.revisions = none)
      (needs : ¬((s.uncovered (e.demandForSlot s.relay s.generation)).isEmpty &&
        !s.orphaned (e.demandForSlot s.relay s.generation)) = true) :
      SlotChange P e a e' s { s with armed := false }
  | unplanned (flushed : e.flushing a = some (s.relay, s.generation))
      (live : s.session.isSome = true) (none : ∀ plan, ¬e.planned P s plan)
      (counted : allocate e.revisions = some (e.revisions + 1)) :
      SlotChange P e a e' s (s.issue (e.revisions + 1))
  | retain {plan : SubscriptionPlan} (flushed : e.flushing a = some (s.relay, s.generation))
      (live : s.session.isSome = true) (planned : e.planned P s plan) (noop : plan.isNoop = true)
      (counted : allocate e.revisions = some (e.revisions + 1))
      (needs : ¬((s.uncovered (e.demandForSlot s.relay s.generation)).isEmpty &&
        !s.orphaned (e.demandForSlot s.relay s.generation)) = true) :
      SlotChange P e a e' s ((s.issue (e.revisions + 1)).rebase
        (((s.issue (e.revisions + 1)).recordCompleteness plan).recordInstalled plan [] []))
  | install {plan : SubscriptionPlan} (flushed : e.flushing a = some (s.relay, s.generation))
      (live : s.session.isSome = true) (planned : e.planned P s plan)
      (flying : ⟨s.relay, s.generation, e.revisions + 1, plan, []⟩ ∈ e'.installing) :
      SlotChange P e a e' s { s.issue (e.revisions + 1) with
        toHolding := (s.issue (e.revisions + 1)).recordCompleteness plan }
  | record {done : Installing} (received : e.receiving a = some (.installed done))
      (relay : s.relay = done.relay) (generation : s.generation = done.generation)
      (revision : s.revision = some done.revision) : SlotChange P e a e' s (s.record done)
  | acquire (session : Session)
      (received : e.receiving a = some (.acquired s.relay s.generation session)) :
      SlotChange P e a e' s { s with session := some session, busy := false, armed := true }
  | refuse (received : e.receiving a = some (.refused s.relay s.generation))
      (counted : allocate e.rounds = some (e.rounds + 1)) (dirty : e'.dirty = true) :
      SlotChange P e a e' s { s.advance (e.rounds + 1) with session := none }
  | reconnect (armed : Bool)
      (received : e.receiving a = some (.connectionReplaced s.relay s.generation))
      (quiet : armed = true ∨ e'.demandForSlot s.relay (e.rounds + 1) = []) :
      SlotChange P e a e' s { s.advance (e.rounds + 1) with armed := armed }

/-- What one step can do to the slots: leave them, drop those nothing wants, add ones
that are being acquired, or change one of them. -/
inductive SlotsChange (P : Providers) (e : Engine) (a : Action) (e' : Engine) : Prop
  | same (slots : e'.slots = e.slots) (absent : e.Absent a)
  | vacate (is : a = .reconcile)
      (slots : e'.slots = e.slots.filter fun s => s.relay ∈ e.registry.relays)
  | release {before after : List Slot} {s : Slot} (at' : e.slots = before ++ s :: after)
      (visited : e.visiting a = some (s.relay, s.generation))
      (unwanted : e.demandForSlot s.relay s.generation = []) (slots : e'.slots = before ++ after)
  | establish {relay : RelayUrl} {items : List (RelayDemand × Authority)} {opened : List Slot}
      (visited : e.opening a = some (relay, items)) (slots : e'.slots = e.slots ++ opened)
      (new : ∀ s ∈ opened, ∃ authority g,
        e.rounds < g ∧ s = { Slot.new relay g authority with busy := true })
  | change {before after : List Slot} {s s' : Slot} (at' : e.slots = before ++ s :: after)
      (change : SlotChange P e a e' s s') (slots : e'.slots = before ++ s' :: after)

namespace Engine

variable {P : Providers} {e e' u : Engine} {a : Action} {relay : RelayUrl} {generation : Round}
  {s : Slot}

theorem receiving_eq_some {report : Report} : e.receiving a = some report ↔
    a = .receive ∧ ∃ rest, e.inbox = report :: rest := by
  cases a with
  | receive => simp [receiving, List.head?_eq_some_iff]
  | _ => simp [receiving]

/-- A step works on one slot at most. -/
theorem flushing_of_visiting {x : RelayUrl × Round} (visited : e.visiting a = some x) :
    e.flushing a = none := by
  cases a with
  | visit =>
    unfold visiting at visited
    dsimp only at visited
    split at visited
    · rename_i todo
      rw [flushing, todo]
    · cases visited
  | _ => cases visited

theorem working_of_received {report : Report} (received : e.receiving a = some report)
    (plain : ∀ relay generation, report ≠ .flush relay generation) :
    e.visiting a = none ∧ e.flushing a = none := by
  obtain ⟨rfl, rest, inbox⟩ := receiving_eq_some.mp received
  refine ⟨rfl, ?_⟩
  unfold flushing
  dsimp only
  split
  · rename_i inbox'
    rw [inbox, List.cons.injEq] at inbox'
    exact (plain _ _ inbox'.1).elim
  · rfl

theorem absent_of_received {report : Report} (received : e.receiving a = some report)
    (plain : ∀ relay generation, report ≠ .flush relay generation) : e.Absent a := by
  obtain ⟨unvisited, unflushed⟩ := working_of_received received plain
  rintro x (visited | flushed)
  · rw [unvisited] at visited
    cases visited
  · rw [unflushed] at flushed
    cases flushed

theorem absent_of_visiting (visited : e.visiting a = some (relay, generation))
    (gone : e.slot relay generation = none) : e.Absent a := by
  rintro x (visited' | flushed)
  · rw [visited, Option.some.injEq] at visited'
    rw [← visited']
    exact gone
  · rw [flushing_of_visiting visited] at flushed
    cases flushed

theorem absent_of_flushing (flushed : e.flushing a = some (relay, generation))
    (gone : e.slot relay generation = none) : e.Absent a := by
  rintro x (visited | flushed')
  · rw [flushing_of_visiting visited] at flushed
    cases flushed
  · rw [flushed, Option.some.injEq] at flushed'
    rw [← flushed']
    exact gone

/-- The place of a slot, and what changing it makes of the list. -/
theorem withSlot_slots (found : e.slot relay generation = some s) :
    s.relay = relay ∧ s.generation = generation ∧ ∃ before after, e.slots = before ++ s :: after ∧
      ∀ u : Engine, u.slots = e.slots → ∀ change,
        (u.withSlot relay generation change).slots = before ++ change s :: after := by
  obtain ⟨rfl, rfl, is, before, after, split, missed⟩ := slots_split found
  refine ⟨rfl, rfl, before, after, split, fun u same change => ?_⟩
  rw [withSlot, same, split, adjust_append missed is]

theorem withSlot_withSlot {first second : Slot → Slot}
    (kept : ∀ s, isSlot relay generation (first s) = isSlot relay generation s) :
    (u.withSlot relay generation first).withSlot relay generation second =
      u.withSlot relay generation fun s => second (first s) := by
  unfold withSlot
  congr 1
  dsimp only
  induction u.slots with
  | nil => rfl
  | cons c slots ih =>
    by_cases is : isSlot relay generation c = true
    · simp [adjust, is, kept]
    · simp [adjust, is, ih]

theorem withSlot_issue {revision : Nat} {second : Slot → Slot} :
    (u.withSlot relay generation (·.issue revision)).withSlot relay generation second =
      u.withSlot relay generation fun s => second (s.issue revision) :=
  withSlot_withSlot fun _ => rfl

/-- One slot changes, and the others stay. -/
theorem slotsChange_withSlot {change : Slot → Slot} (found : e.slot relay generation = some s)
    (slots : u.slots = e.slots) (changed : e'.slots = (u.withSlot relay generation change).slots)
    (changes : SlotChange P e a e' s (change s)) : SlotsChange P e a e' := by
  obtain ⟨-, -, before, after, split, replaced⟩ := withSlot_slots found
  exact .change split changes (changed.trans (replaced u slots change))

theorem slots_execute_of_noop (u : Engine) (relay : RelayUrl) (generation : Round)
    (constraints : RelayReadConstraints) {plan : SubscriptionPlan}
    (noop : plan.isNoop = true) : (u.execute relay generation constraints plan).slots =
      (u.withSlot relay generation fun s =>
        s.rebase ((s.recordCompleteness plan).recordInstalled plan [] [])).slots := by
  rw [execute, if_pos noop]
  rfl

theorem slots_execute (u : Engine) (relay : RelayUrl) (generation : Round)
    (constraints : RelayReadConstraints) {plan : SubscriptionPlan}
    (opens : ¬plan.isNoop = true) : (u.execute relay generation constraints plan).slots =
        (u.withSlot relay generation fun s => { s with toHolding := s.recordCompleteness plan }).slots ∧
      (u.execute relay generation constraints plan).installing =
        u.installing ++ [⟨relay, generation, plan.revision, plan, []⟩] := by
  rw [execute, if_neg opens]
  exact ⟨rfl, rfl⟩

/-- A conforming plan is recorded at once if it changes nothing on the wire, and is in
flight otherwise. -/
theorem execute_slots {constraints : RelayReadConstraints} {plan : SubscriptionPlan}
    (flushed : e.flushing a = some (relay, generation)) (found : e.slot relay generation = some s)
    (slots : u.slots = e.slots) (live : s.session.isSome = true) (planned : e.planned P s plan)
    (counted : allocate e.revisions = some (e.revisions + 1))
    (needs : ¬((s.uncovered (e.demandForSlot s.relay s.generation)).isEmpty &&
      !s.orphaned (e.demandForSlot s.relay s.generation)) = true) :
    SlotsChange P e a ((u.withSlot relay generation (·.issue (e.revisions + 1))).execute relay
      generation constraints plan) := by
  obtain ⟨rfl, rfl, -⟩ := withSlot_slots found
  by_cases noop : plan.isNoop = true
  · have changed := slots_execute_of_noop (u.withSlot s.relay s.generation
      (·.issue (e.revisions + 1))) s.relay s.generation constraints noop
    rw [withSlot_issue] at changed
    exact slotsChange_withSlot found slots changed (.retain flushed live planned noop counted needs)
  · obtain ⟨changed, installing⟩ := slots_execute (u.withSlot s.relay s.generation
      (·.issue (e.revisions + 1))) s.relay s.generation constraints noop
    rw [withSlot_issue] at changed
    refine slotsChange_withSlot found slots changed (.install flushed live planned ?_)
    rw [installing, (P.planner.lawful _ _ _ _ _ _ planned.1).revised]
    simp

theorem flush_slots (flushed : e.flushing a = some (relay, generation)) (slots : u.slots = e.slots)
    (demand : u.demandForSlot relay generation = e.demandForSlot relay generation)
    (revisions : u.revisions = e.revisions) : SlotsChange P e a (u.flush P relay generation) := by
  have found : u.slot relay generation = e.slot relay generation := by
    rw [slot, slots, slot]
  unfold flush
  rw [found, demand, revisions]
  dsimp only
  split
  · rename_i gone
    exact .same slots (absent_of_flushing flushed gone)
  · rename_i s here
    obtain ⟨rfl, rfl, -⟩ := withSlot_slots here
    split
    · rename_i quiet
      rw [Bool.and_eq_true, List.isEmpty_iff] at quiet
      exact slotsChange_withSlot here slots rfl (.idle flushed quiet.1)
    · rename_i needs
      split
      · rename_i away
        exact slotsChange_withSlot here slots rfl (.wait flushed away)
      · rename_i session live
        have live : s.session.isSome = true := by
          rw [live]
          rfl
        split
        · rename_i exhausted
          exact slotsChange_withSlot here slots rfl (.spent flushed live exhausted needs)
        · rename_i revision minted
          obtain rfl := allocate_eq_some minted
          split
          · rename_i failed
            refine slotsChange_withSlot here slots rfl (.unplanned flushed live ?_ minted)
            rintro plan ⟨planned, -⟩
            rw [failed] at planned
            cases planned
          · rename_i plan planned
            split
            · rename_i valid
              exact execute_slots (u := { u with revisions := e.revisions + 1 }) flushed here slots live
                ⟨planned, valid⟩ minted needs
            · rename_i invalid
              refine slotsChange_withSlot here slots rfl (.unplanned flushed live ?_ minted)
              rintro other ⟨planned', valid⟩
              rw [planned, Except.ok.injEq] at planned'
              subst planned'
              exact invalid valid

/-- A slot is opened for an authority no slot reaches, or the counter of rounds is used
up. -/
theorem establish_eq {authority : Authority} (unreached : e.slotFor relay authority = none) :
    allocate e.rounds = none ∧ e.establish relay authority = e ∨
      e.establish relay authority = { e with
        rounds := e.rounds + 1
        slots := e.slots ++ [{ Slot.new relay (e.rounds + 1) authority with busy := true }]
        tasks := e.tasks ++ [.acquire relay (e.rounds + 1)] } := by
  unfold establish
  rw [unreached]
  dsimp only
  split
  · rename_i exhausted
    exact .inl ⟨exhausted, rfl⟩
  · rename_i generation minted
    obtain rfl := allocate_eq_some minted
    exact .inr rfl

theorem foldl_establish_slots (u : Engine) (relay : RelayUrl) (items : List (RelayDemand × Authority)) :
    ∃ opened, (items.foldl (fun e (_, authority) =>
        if (e.slotFor relay authority).isNone then e.establish relay authority else e) u).slots =
          u.slots ++ opened ∧
      ∀ s ∈ opened, ∃ authority g,
        u.rounds < g ∧ s = { Slot.new relay g authority with busy := true } := by
  induction items generalizing u with
  | nil => exact ⟨[], by simp, by simp⟩
  | cons item items ih =>
    rw [List.foldl_cons]
    dsimp only
    split
    · rename_i unreached
      obtain ⟨-, same⟩ | new := establish_eq (Option.isNone_iff_eq_none.mp unreached)
      · rw [same]
        exact ih u
      · rw [new]
        obtain ⟨opened, slots, fresh⟩ := ih { u with
          rounds := u.rounds + 1
          slots := u.slots ++ [{ Slot.new relay (u.rounds + 1) item.2 with busy := true }]
          tasks := u.tasks ++ [.acquire relay (u.rounds + 1)] }
        refine ⟨_, slots.trans (List.append_assoc _ _ _), fun s hs => ?_⟩
        obtain first | later := List.mem_append.mp hs
        · exact ⟨item.2, u.rounds + 1, by omega, List.mem_singleton.mp first⟩
        · obtain ⟨authority, g, above, rfl⟩ := fresh s later
          exact ⟨authority, g, Nat.lt_of_succ_lt above, rfl⟩
    · exact ih u

theorem visitRelay_slots {items : List (RelayDemand × Authority)}
    (visited : e.opening a = some (relay, items)) (slots : u.slots = e.slots)
    (rounds : u.rounds = e.rounds) : SlotsChange P e a (u.visitRelay relay items) := by
  obtain ⟨opened, extended, new⟩ := foldl_establish_slots u relay items
  rw [slots] at extended
  rw [rounds] at new
  exact .establish visited extended new

theorem releaseSlot_slots (visited : e.visiting a = some (relay, generation))
    (found : e.slot relay generation = some s) (unwanted : e.demandForSlot relay generation = []) (slots : u.slots = e.slots) :
    SlotsChange P e a (u.releaseSlot relay generation) := by
  obtain ⟨rfl, rfl, is, before, after, split, missed⟩ := slots_split found
  refine .release split visited unwanted ?_
  have found : u.slot s.relay s.generation = some s := by
    rw [slot, slots]
    exact found
  rw [releaseSlot, found]
  change u.slots.eraseP (isSlot s.relay s.generation) = _
  rw [slots, split, List.eraseP_append_right, List.eraseP_cons_of_pos is]
  intro c hc
  simp [missed c hc]

theorem visitSlot_slots (visited : e.visiting a = some (relay, generation))
    (slots : u.slots = e.slots)
    (demand : u.demandForSlot relay generation = e.demandForSlot relay generation) :
    SlotsChange P e a (u.visitSlot relay generation) := by
  have found : u.slot relay generation = e.slot relay generation := by
    rw [slot, slots, slot]
  unfold visitSlot
  rw [found, demand]
  dsimp only
  split
  · rename_i unwanted
    rw [List.isEmpty_iff] at unwanted
    cases here : e.slot relay generation with
    | none =>
      rw [releaseSlot, found, here]
      exact .same slots (absent_of_visiting visited here)
    | some s => exact releaseSlot_slots visited here unwanted slots
  · split
    · rename_i gone
      exact .same slots (absent_of_visiting visited gone)
    · rename_i s here
      obtain ⟨rfl, rfl, -⟩ := withSlot_slots here
      split
      · refine slotsChange_withSlot here slots rfl (.join s.armed visited rfl id ?_)
        exact .inr (.inl List.mem_cons_self)
      · split
        · rename_i settled
          refine slotsChange_withSlot here slots rfl (.join s.armed visited rfl id ?_)
          rw [Bool.or_eq_true, List.isEmpty_iff] at settled
          obtain covered | armed := settled
          · exact .inr (.inr covered)
          · exact .inl armed
        · obtain ⟨-, -, is, before, after, split, missed⟩ := slots_split here
          refine .change split (.join true visited rfl (fun _ => rfl) (.inl rfl)) ?_
          change adjust _ _ (adjust _ _ u.slots) = _
          rw [slots, split, adjust_append missed is, adjust_append missed]
          exact is

theorem foldl_releaseRelay_slots {relays : List RelayUrl} :
    (relays.foldl releaseRelay u).slots = u.slots.filter fun s => s.relay ∉ relays := by
  induction relays generalizing u with
  | nil => simp
  | cons relay relays ih =>
    rw [List.foldl_cons, ih]
    change (u.slots.filter _).filter _ = _
    rw [List.filter_filter]
    apply List.filter_congr
    intro s _
    by_cases here : s.relay = relay
    · simp [here]
    · simp [here]

theorem reconcile_slots (slots : u.slots = e.slots) (registry : u.registry = e.registry) :
    SlotsChange P e .reconcile u.reconcile := by
  refine .vacate rfl ?_
  change (List.foldl releaseRelay u _).slots = _
  rw [foldl_releaseRelay_slots, slots, registry]
  apply List.filter_congr
  intro s hs
  by_cases named : s.relay ∈ e.registry.relays
  · simp [named]
  · have gone : ∃ t ∈ e.slots, t.relay = s.relay := ⟨s, hs, rfl⟩
    simp [named, gone]

theorem acquired_slots {session : Session}
    (received : e.receiving a = some (.acquired relay generation session))
    (slots : u.slots = e.slots) : SlotsChange P e a (u.acquired relay generation session) := by
  have found : u.slot relay generation = e.slot relay generation := by
    rw [slot, slots, slot]
  unfold acquired
  rw [found]
  dsimp only
  split
  · exact .same slots (absent_of_received received (by simp))
  · rename_i s here
    obtain ⟨rfl, rfl, -⟩ := withSlot_slots here
    split
    · exact slotsChange_withSlot here slots rfl (.acquire session received)
    · exact slotsChange_withSlot here slots rfl (.acquire session received)

theorem refused_slots (received : e.receiving a = some (.refused relay generation))
    (slots : u.slots = e.slots) (rounds : u.rounds = e.rounds) :
    SlotsChange P e a (u.refused relay generation) := by
  have found : u.slot relay generation = e.slot relay generation := by
    rw [slot, slots, slot]
  have absent := absent_of_received received (by simp)
  unfold refused
  rw [found, rounds]
  split
  · exact .same slots absent
  · rename_i next minted
    obtain rfl := allocate_eq_some minted
    dsimp only
    split
    · exact .same slots absent
    · rename_i s here
      obtain ⟨rfl, rfl, -⟩ := withSlot_slots here
      exact slotsChange_withSlot (u := { u with rounds := e.rounds + 1 }) here slots rfl
        (.refuse received minted rfl)

theorem carried_slots {id : SubscriptionId} {item : Item}
    (received : e.receiving a = some (.carried relay generation id item)) (slots : u.slots = e.slots) :
    SlotsChange P e a (u.carried P relay generation id item) := by
  have absent := absent_of_received received (by simp)
  unfold carried
  split
  · exact .same slots absent
  · rename_i s here
    have here' : e.slot relay generation = some s := by
      rw [slot, ← slots]
      exact here
    cases item with
    | event event => exact .same slots absent
    | closed reason => exact .same slots absent
    | lost dropped => exact .same slots absent
    | ended => exact .same slots absent
    | endOfStoredEvents =>
      dsimp only
      unfold storedComplete
      rw [here]
      obtain ⟨rfl, rfl, -⟩ := withSlot_slots here'
      dsimp only
      split
      · exact slotsChange_withSlot (u := { u with deliveries := _ }) here' slots rfl
          (.settle id received)
      · exact slotsChange_withSlot (u := { u with deliveries := _ }) here' slots rfl
          (.settle id received)

theorem installed_slots {done : Installing} (received : e.receiving a = some (.installed done))
    (slots : u.slots = e.slots) : SlotsChange P e a (u.installed done) := by
  have absent := absent_of_received received (by simp)
  unfold installed
  split
  · exact .same slots absent
  · rename_i s here
    have here' : e.slot done.relay done.generation = some s := by
      rw [slot, ← slots]
      exact here
    obtain ⟨relay, generation, -⟩ := withSlot_slots here'
    split
    · exact .same slots absent
    · rename_i revision
      rw [not_not] at revision
      exact slotsChange_withSlot (u := { u with handles := _ }) here' slots rfl
        (.record received relay generation revision)

theorem uncovered_advance {next : Round} {demand : List RelayDemand} :
    (s.advance next).uncovered demand = demand := by
  apply List.filter_eq_self.mpr
  intro d _
  rfl

theorem isSlot_eq_false (old : s.generation ≤ e.rounds) : isSlot relay (e.rounds + 1) s = false := by
  rw [isSlot, Bool.and_eq_false_iff, decide_eq_false_iff_not, decide_eq_false_iff_not]
  right
  intro same
  rw [same] at old
  exact Nat.not_succ_le_self _ old

/-- Admission opens for whatever the slot does not carry yet. -/
theorem enterAdmission_eq {t : Slot} (found : u.slot relay generation = some t) :
    u.enterAdmission relay generation = u ∧ t.uncovered (u.demandForSlot relay generation) = [] ∨
      (u.enterAdmission relay generation).slots =
        (u.withSlot relay generation fun s => { s with armed := true }).slots := by
  unfold enterAdmission
  rw [found]
  dsimp only
  split
  · rename_i covered
    exact .inl ⟨rfl, List.isEmpty_iff.mp covered⟩
  · exact .inr rfl

theorem connectionReplaced_slots (received : e.receiving a = some (.connectionReplaced relay generation))
    (slots : u.slots = e.slots) (rounds : u.rounds = e.rounds)
    (issued : ∀ s ∈ e.slots, s.generation ≤ e.rounds) :
    SlotsChange P e a (u.connectionReplaced relay generation) := by
  have found : u.slot relay generation = e.slot relay generation := by
    rw [slot, slots, slot]
  have absent := absent_of_received received (by simp)
  unfold connectionReplaced reconnected
  rw [found, rounds]
  split
  · exact .same slots absent
  · rename_i s here
    split
    · exact .same slots absent
    · rename_i next minted
      obtain rfl := allocate_eq_some minted
      dsimp only
      obtain ⟨rfl, rfl, before, after, split, replaced⟩ := withSlot_slots here
      generalize eq : (if s.session.isSome = true then _ else _ : Engine) = v
      have advanced : v.slots = before ++ s.advance (e.rounds + 1) :: after := by
        rw [← replaced u slots (·.advance (e.rounds + 1)), ← eq]
        split <;> rfl
      have missed : ∀ c ∈ before, isSlot s.relay (e.rounds + 1) c = false := by
        intro c hc
        exact isSlot_eq_false (issued c (by simp [split, hc]))
      have is : isSlot s.relay (e.rounds + 1) (s.advance (e.rounds + 1)) = true := by
        simp [isSlot, Slot.advance, Holding.advance]
      have moved : v.slot s.relay (e.rounds + 1) = some (s.advance (e.rounds + 1)) := by
        rw [slot, advanced, List.find?_append, List.find?_eq_none.mpr, Option.none_or,
          List.find?_cons_of_pos is]
        intro c hc
        simp [missed c hc]
      obtain ⟨quiet, covered⟩ | armed := enterAdmission_eq moved
      · rw [uncovered_advance] at covered
        rw [quiet]
        exact .change split (.reconnect false received (.inr covered)) advanced
      · rw [withSlot, advanced, adjust_append missed is] at armed
        exact .change split (.reconnect true received (.inl rfl)) armed

theorem accept_slots {report : Report} (received : e.receiving a = some report)
    (flushed : ∀ relay generation, report = .flush relay generation →
      e.flushing a = some (relay, generation))
    (slots : u.slots = e.slots) (rounds : u.rounds = e.rounds) (revisions : u.revisions = e.revisions)
    (demand : ∀ relay generation,
      u.demandForSlot relay generation = e.demandForSlot relay generation)
    (issued : ∀ s ∈ e.slots, s.generation ≤ e.rounds) : SlotsChange P e a (u.accept P report) := by
  cases report with
  | acquired relay generation session => exact acquired_slots received slots
  | refused relay generation => exact refused_slots received slots rounds
  | installed done => exact installed_slots received slots
  | flush relay generation =>
    exact flush_slots (flushed relay generation rfl) slots (demand relay generation) revisions
  | connectionReplaced relay generation =>
    exact connectionReplaced_slots received slots rounds issued
  | carried relay generation id item => exact carried_slots received slots
  | constraints relay generation constraints =>
    cases here : e.slot relay generation with
    | none =>
      refine .same ?_ (absent_of_received received (by simp))
      change adjust _ _ u.slots = _
      rw [slots, adjust_of_find?_eq_none here]
    | some s =>
      obtain ⟨rfl, rfl, -⟩ := withSlot_slots here
      exact slotsChange_withSlot here slots rfl (.limit constraints received)

theorem post_slots {report : Report} (posted : u.post report = some e') (slots : u.slots = e.slots) :
    e'.slots = e.slots := by
  unfold post at posted
  rw [Option.ite_none_right_eq_some, Option.some.injEq] at posted
  rw [← posted.2, ← slots]

end Engine

/-- A step that processes a report takes it from the queue. -/
theorem step_of_received {P : Providers} {e e' : Engine} {a : Action} {report : Report}
    (received : e.receiving a = some report) (stepped : step P e a = some e') :
    ∃ rest, a = .receive ∧ e.inbox = report :: rest ∧
      e' = { e with inbox := rest }.accept P report := by
  obtain ⟨rfl, rest, inbox⟩ := Engine.receiving_eq_some.mp received
  cases Stepped.of_step stepped with
  | receive inbox' =>
    rw [inbox, List.cons.injEq] at inbox'
    obtain ⟨rfl, rfl⟩ := inbox'
    exact ⟨_, rfl, inbox, rfl⟩

open Engine in
/-- The slots change in every step as listed. -/
theorem step_slots {P : Providers} {e e' : Engine} {a : Action} (sound : Sound e.core)
    (stepped : step P e a = some e') : SlotsChange P e a e' := by
  have busy : ∀ a, (∀ x, e.visiting a ≠ some x) → (∀ x, e.flushing a ≠ some x) → e.Absent a := by
    rintro a unvisited unflushed x (visited | flushed)
    · exact (unvisited x visited).elim
    · exact (unflushed x flushed).elim
  have issued : ∀ s ∈ e.slots, s.generation ≤ e.rounds := fun s hs =>
    sound.issued s.toHolding (List.mem_map.mpr ⟨s, hs, rfl⟩)
  cases Stepped.of_step stepped with
  | observe | revive | authenticate | wake | deny | subscribe =>
    exact .same rfl (busy _ (by simp [visiting]) (by simp [flushing]))
  | reconcile => exact reconcile_slots rfl rfl
  | visitRelay todo =>
    refine visitRelay_slots ?_ rfl rfl
    rw [opening, todo]
  | visitSlot todo =>
    refine visitSlot_slots ?_ rfl rfl
    rw [visiting, todo]
  | flush todo =>
    refine flush_slots ?_ rfl rfl rfl
    rw [flushing, todo]
  | receive inbox =>
    refine accept_slots ?_ ?_ rfl rfl rfl (fun _ _ => rfl) issued
    · rw [receiving, inbox]
      rfl
    · rintro relay generation rfl
      rw [flushing, inbox]
  | acquire _ posted | elapse _ posted | replace _ posted | declare _ posted | finish _ _ posted
  | carry _ _ posted =>
    exact .same (post_slots posted rfl) (busy _ (by simp [visiting]) (by simp [flushing]))

section Origins

variable {P : Providers} {e e' : Engine} {a : Action} {s s' : Slot}

/-- One slot to a generation. -/
theorem slot_unique (sound : Sound e.core) {t : Slot} (hs : s ∈ e.slots) (ht : t ∈ e.slots)
    (same : s.generation = t.generation) : s = t := by
  have apart := sound.apart
  rw [Engine.core, List.map_map] at apart
  exact List.inj_on_of_nodup_map apart hs ht same

/-- A slot keeps its connection and its generation, except where a connection is
acquired, refused or replaced. -/
theorem SlotChange.connection (change : SlotChange P e a e' s s') :
    s'.relay = s.relay ∧ s'.requested = s.requested ∧
      (s'.generation = s.generation ∧ s'.session = s.session ∧ s'.busy = s.busy ∨
        (∃ session, e.receiving a = some (.acquired s.relay s.generation session) ∧
          s' = { s with session := some session, busy := false, armed := true }) ∨
        e.receiving a = some (.refused s.relay s.generation) ∧
          allocate e.rounds = some (e.rounds + 1) ∧ e'.dirty = true ∧
          s' = { s.advance (e.rounds + 1) with session := none } ∨
        ∃ armed, e.receiving a = some (.connectionReplaced s.relay s.generation) ∧
          s' = { s.advance (e.rounds + 1) with armed := armed }) := by
  cases change with
  | acquire session received => exact ⟨rfl, rfl, .inr (.inl ⟨session, received, rfl⟩)⟩
  | refuse received counted dirty =>
    exact ⟨rfl, rfl, .inr (.inr (.inl ⟨received, counted, dirty, rfl⟩))⟩
  | reconnect armed received quiet => exact ⟨rfl, rfl, .inr (.inr (.inr ⟨armed, received, rfl⟩))⟩
  | settle | limit | join | idle | wait | spent | unplanned | retain | install | record =>
    exact ⟨rfl, rfl, .inl ⟨rfl, rfl, rfl⟩⟩

/-- A new generation is one that was not issued before. -/
theorem SlotChange.generation_eq (change : SlotChange P e a e' s s')
    (old : s'.generation ≤ e.rounds) : s'.generation = s.generation := by
  obtain ⟨-, -, ⟨kept, -⟩ | ⟨session, -, rfl⟩ | ⟨-, -, -, rfl⟩ | ⟨armed, -, rfl⟩⟩ := change.connection
  · exact kept
  · rfl
  all_goals exact (Nat.not_succ_le_self _ old).elim

/-- Where a slot comes from: it was there, was changed, or was opened by the step. -/
theorem SlotsChange.origin (changes : SlotsChange P e a e') (member : s' ∈ e'.slots) :
    s' ∈ e.slots ∨ (∃ s ∈ e.slots, SlotChange P e a e' s s') ∨
      ∃ relay authority g, e.rounds < g ∧ s' = { Slot.new relay g authority with busy := true } := by
  cases changes with
  | same slots _ =>
    rw [slots] at member
    exact .inl member
  | vacate _ slots =>
    rw [slots] at member
    exact .inl (List.mem_filter.mp member).1
  | release at' _ _ slots =>
    rw [slots] at member
    rw [at']
    obtain first | last := List.mem_append.mp member
    · exact .inl (by simp [first])
    · exact .inl (by simp [last])
  | @establish relay _ _ _ slots new =>
    rw [slots] at member
    obtain old | opened := List.mem_append.mp member
    · exact .inl old
    · obtain ⟨authority, g, above, rfl⟩ := new s' opened
      exact .inr (.inr ⟨relay, authority, g, above, rfl⟩)
  | @change _ _ s t at' change slots =>
    rw [slots] at member
    rw [at']
    rw [List.mem_append, List.mem_cons] at member
    obtain first | rfl | last := member
    · exact .inl (by simp [first])
    · exact .inr (.inl ⟨s, by simp, change⟩)
    · exact .inl (by simp [last])

/-- A slot on a generation that was issued before is the slot that had it. -/
theorem SlotsChange.origin_of_old (changes : SlotsChange P e a e') (member : s' ∈ e'.slots)
    (old : s'.generation ≤ e.rounds) : s' ∈ e.slots ∨
      ∃ s ∈ e.slots, SlotChange P e a e' s s' ∧ s'.relay = s.relay ∧ s'.generation = s.generation := by
  obtain kept | ⟨s, hs, change⟩ | ⟨relay, authority, next, above, rfl⟩ := changes.origin member
  · exact .inl kept
  · exact .inr ⟨s, hs, change, change.connection.1, change.generation_eq old⟩
  · exact (Nat.not_le_of_lt above old).elim

end Origins

end Fava.Observe
