import Fava.Observe.Frame

namespace Fava.Observe

open Std Fava.Lib Fava.Nostr Fava.Relay Fava.Subscriptions

/-- The slot a refused acquisition was for. -/
def Engine.refusing (e : Engine) (a : Action) : Option (RelayUrl × Round) :=
  match e.receiving a with
  | some (.refused relay generation) => some (relay, generation)
  | _ => none

/-- A refused acquisition finds its slot gone, or no round left to move the slot to. -/
def Obtained (e : Engine) (a : Action) : Prop :=
  ∀ x ∈ e.refusing a, (e.slot x.1 x.2).isNone = true ∨ allocate e.rounds = none

instance (e : Engine) (a : Action) : Decidable (Obtained e a) :=
  inferInstanceAs (Decidable (∀ x ∈ e.refusing a,
    (e.slot x.1 x.2).isNone = true ∨ allocate e.rounds = none))

/-- The slot of this generation, if it is still there, has its connection. -/
def Engine.Connected (e : Engine) (generation : Round) : Prop :=
  generation ≤ e.rounds ∧ ∀ s ∈ e.slots, s.generation = generation → s.session.isSome = true

/-- Whoever listens to a connection, or has seen it replaced, listens for a slot that
has one. -/
structure Listened (e : Engine) : Prop where
  listeners : ∀ g ∈ e.tasks.filterMap Task.listened, e.Connected g
  replaced : ∀ relay g, Report.connectionReplaced relay g ∈ e.inbox → e.Connected g

variable {P : Providers} {e e' : Engine} {a : Action} {acts : List Action}

theorem Effect.rounds_le {G : Core → Round → Prop} {c c' : Core} (effect : Effect G c c') :
    c.rounds ≤ c'.rounds := by
  cases effect with
  | issue | establish | advance => exact Nat.le_succ _
  | shuffle | release | attach | revise | retain | install | deny | subscribe | discard | accept =>
    exact Nat.le_refl _

theorem Effects.rounds_le {G : Core → Round → Prop} {c c' : Core} (effects : Effects G c c') :
    c.rounds ≤ c'.rounds := by
  induction effects with
  | refl => exact Nat.le_refl _
  | tail _ effect ih => exact ih.trans effect.rounds_le

theorem step_rounds_le (stepped : step P e a = some e') : e.rounds ≤ e'.rounds := by
  have effects : Effects (fun _ _ => True) e.core e'.core :=
    step_effects (fun _ _ _ => trivial) stepped
  exact effects.rounds_le

theorem step_sound (sound : Sound e.core) (stepped : step P e a = some e') : Sound e'.core :=
  Effects.sound (step_effects (G := fun _ _ => True) (fun _ _ _ => trivial) stepped) sound

/-- A connected slot stays connected: only a new generation gives a connection up. -/
theorem Engine.Connected.step {g : Round} (connected : e.Connected g) (sound : Sound e.core)
    (stepped : step P e a = some e') : e'.Connected g := by
  obtain ⟨old, live⟩ := connected
  refine ⟨old.trans (step_rounds_le stepped), fun s' hs' same => ?_⟩
  rw [← same] at old
  obtain kept | ⟨s, hs, change, -, generation⟩ := (step_slots sound stepped).origin_of_old hs' old
  · exact live s' kept same
  · obtain ⟨-, -, ⟨-, session, -⟩ | ⟨session, -, rfl⟩ | ⟨-, -, -, rfl⟩ | ⟨armed, -, rfl⟩⟩ :=
      change.connection
    · rw [session]
      exact live s hs (generation.symm.trans same)
    · rfl
    all_goals exact (Nat.not_succ_le_self _ old).elim

theorem connected_of_live (sound : Sound e.core) {g : Round}
    (here : ∃ s ∈ e.slots, s.generation = g ∧ s.session.isSome = true) : e.Connected g := by
  obtain ⟨s, hs, rfl, live⟩ := here
  refine ⟨sound.issued s.toHolding (List.mem_map.mpr ⟨s, hs, rfl⟩), fun t ht same => ?_⟩
  rw [slot_unique sound ht hs same]
  exact live

theorem Listened.step (listened : Listened e) (sound : Sound e.core)
    (stepped : step P e a = some e') : Listened e' := by
  have sound' := step_sound sound stepped
  cases step_frame stepped with
  | observe registry _ result | revive registry _ result
  | authenticate session authentication _ result | wake _ result =>
    subst result
    exact ⟨listened.listeners, listened.replaced⟩
  | own registry connections changed reports listeners installing =>
    constructor
    · intro g hg
      obtain old | live := listeners g hg
      · exact (listened.listeners g old).step sound stepped
      · exact connected_of_live sound' live
    · intro relay g hr
      obtain old | posted := reports _ hr
      · exact (listened.replaced relay g old).step sound stepped
      · -- Only a listener says that its connection was replaced.
        have listening : g ∈ e.tasks.filterMap Task.listened := by
          cases a with
          | replace task =>
            simp only [Engine.posting] at posted
            split at posted
            · rename_i here
              cases posted
              exact List.mem_filterMap.mpr ⟨_, List.mem_of_getElem? here, rfl⟩
            · cases posted
          | acquire task outcome =>
            simp only [Engine.posting] at posted
            split at posted
            · cases outcome <;> cases posted
            · cases posted
          | elapse task | declare task constraints =>
            simp only [Engine.posting] at posted
            split at posted <;> cases posted
          | finish task | carry handle item =>
            simp only [Engine.posting, Option.map_eq_some_iff] at posted
            obtain ⟨_, -, is⟩ := posted
            cases is
          | observe | revive | authenticate | wake | reconcile | visit | receive | subscribe => cases posted
        exact (listened.listeners g listening).step sound stepped

/-- A slot has its connection or is being given one. -/
def Slot.Held (s : Slot) : Prop := s.session.isSome = true ∨ s.busy = true

theorem held_step (sound : Sound e.core) (listened : Listened e) (meets : Obtained e a)
    (held : ∀ s ∈ e.slots, s.Held) (stepped : step P e a = some e') : ∀ s ∈ e'.slots, s.Held := by
  intro s' hs'
  obtain kept | ⟨s, hs, change⟩ | ⟨relay, authority, next, -, rfl⟩ :=
    (step_slots sound stepped).origin hs'
  · exact held s' kept
  · obtain ⟨-, -, ⟨-, session, busy⟩ | ⟨session, -, rfl⟩ | ⟨received, counted, -, rfl⟩ |
      ⟨armed, received, rfl⟩⟩ := change.connection
    · rw [Slot.Held, session, busy]
      exact held s hs
    · exact .inl rfl
    · -- The slot is there and a round is left, so the refusal is not one of the allowed ones.
      have refused : e.refusing a = some (s.relay, s.generation) := by
        rw [Engine.refusing, received]
      obtain gone | exhausted := meets _ refused
      · rw [Engine.slot_eq_some sound hs] at gone
        cases gone
      · rw [counted] at exhausted
        cases exhausted
    · have replaced : Report.connectionReplaced s.relay s.generation ∈ e.inbox := by
        cases a with
        | receive => exact List.mem_of_head? received
        | _ => cases received
      exact .inl ((listened.replaced _ _ replaced).2 s hs rfl)
  · exact .inr rfl

/-- As long as no acquisition of a slot that is still there is refused, every slot has a
connection or one is being acquired for it. -/
theorem slots_held_of_obtained (run : Run (step P) Obtained .start acts e) :
    ∀ s ∈ e.slots, s.session.isSome = true ∨ s.busy = true := by
  suffices all : Sound e.core ∧ Listened e ∧ ∀ s ∈ e.slots, s.Held from all.2.2
  refine run.invariant (fun e => Sound e.core ∧ Listened e ∧ ∀ s ∈ e.slots, s.Held)
    ⟨Engine.start_sound, ⟨by simp [Engine.start], by simp [Engine.start]⟩, by simp [Engine.start]⟩ ?_
  rintro e a e' ⟨sound, listened, held⟩ meets stepped
  exact ⟨step_sound sound stepped, listened.step sound stepped,
    held_step sound listened meets held stepped⟩

section Refused

/-- The acquisition of the only slot is refused, and the owner reconciles once more. -/
def refuseFirst : List Action :=
  [.observe [observes 1], .reconcile, .visit, .visit, .acquire 0 none, .wake, .reconcile, .visit,
    .visit, .receive, .reconcile, .visit, .visit]

/-- The pass leaves the refused slot in charge of the demand: without a connection, and
with none being acquired. -/
theorem refused_slot_stays_unconnected :
    ∃ acts e, Run (step kindProviders) Free .start acts e ∧ e.todo = [] ∧ e.dirty = false ∧
      e.changed = false ∧ e.rounds < 2 ^ 64 - 1 ∧
      ∃ s ∈ e.slots, e.demandForSlot s.relay s.generation ≠ [] ∧
        ¬(s.session.isSome = true ∨ s.busy = true) := by
  obtain ⟨e, run, checked⟩ := Run.of_any (show (exec (step kindProviders) Free .start
    refuseFirst).any (fun e => e.todo.isEmpty && !e.dirty && !e.changed &&
      decide (e.rounds < 2 ^ 64 - 1) && e.slots.any fun s =>
        !(e.demandForSlot s.relay s.generation).isEmpty && !(s.session.isSome || s.busy)) = true by
    decide +kernel)
  simp only [Bool.and_eq_true, List.isEmpty_iff, Bool.not_eq_true', decide_eq_true_eq,
    List.any_eq_true, List.isEmpty_eq_false_iff] at checked
  obtain ⟨⟨⟨⟨done, clean⟩, unchanged⟩, left⟩, s, hs, wanted, stranded⟩ := checked
  refine ⟨_, e, run, done, clean, unchanged, left, s, hs, wanted, ?_⟩
  rw [← Bool.or_eq_true, stranded]
  exact Bool.false_ne_true

theorem slots_held_after_openFirst :
    ∃ e, Run (step kindProviders) Obtained .start openFirst e ∧ e.slots ≠ [] ∧
      ∀ s ∈ e.slots, s.session.isSome = true ∨ s.busy = true := by
  obtain ⟨e, run, checked⟩ := Run.of_any (show (exec (step kindProviders) Obtained .start
    openFirst).any (fun e => !e.slots.isEmpty) = true by decide +kernel)
  simp only [Bool.not_eq_true', List.isEmpty_eq_false_iff] at checked
  exact ⟨e, run, checked, slots_held_of_obtained run⟩

end Refused

end Fava.Observe
