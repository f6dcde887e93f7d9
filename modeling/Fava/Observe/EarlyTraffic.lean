import Fava.Observe.Sound
import Fava.Observe.Traffic
import Mathlib.Data.List.Dedup

namespace Fava.Observe

open Std Fava.Lib Fava.Nostr Fava.Relay Fava.Subscriptions

/-- Whether the item is something the served demand is to learn of. -/
def Item.tells : Item → Bool
  | .event _ | .endOfStoredEvents => true
  | .closed _ | .lost _ | .ended => false

/-- What a subscription carries is processed only after the report of the installation
that opened it. -/
def Reported (e : Engine) (a : Action) : Prop :=
  ∀ c ∈ e.carrying a, c.2.2.tells = true → ∀ x ∈ e.handles, x.token = c.2.1 → x.recorded = true

instance (e : Engine) (a : Action) : Decidable (Reported e a) :=
  inferInstanceAs (Decidable (∀ c ∈ e.carrying a, c.2.2.tells = true → ∀ x ∈ e.handles,
    x.token = c.2.1 → x.recorded = true))

/-- Nobody was left out of what a subscription carried. -/
def Delivery.Complete (d : Delivery) : Prop := ∀ owner ∈ d.owed, owner ∈ d.given

namespace Engine

variable {P : Providers} {e : Engine} {relay : RelayUrl} {generation : Round} {id : SubscriptionId}
  {owner : ObservationId}

theorem mem_owners {s : Slot} {entry : InstalledSubscription} (here : s.installed[id]? = some entry) :
    owner ∈ s.owners id ↔ owner ∈ entry.serves.toList.map DemandId.owner := by
  rw [Holding.owners, here]
  dsimp only
  rw [List.mem_dedup, (List.perm_insertionSort _ _).mem_iff]

/-- Whoever a reported subscription serves is listed in its slot, under the filters it
was opened with. -/
theorem mem_serving (sound : Sound e.core)
    (reported : ∀ x ∈ e.handles, x.token = ⟨generation, id⟩ → x.recorded = true)
    (served : owner ∈ e.serving relay generation id) :
    ∃ s x entry, e.slot relay generation = some s ∧
      (e.handles.find? fun h => h.token = ⟨generation, id⟩) = some x ∧
      s.installed[id]? = some entry ∧ x.planned.filters = entry.filters ∧ owner ∈ s.owners id := by
  unfold serving at served
  split at served
  · rename_i s x found handle
    obtain ⟨-, rfl, -, before, after, split, -⟩ := slots_split found
    have there : s.toHolding ∈ e.core.holdings := by
      rw [core, split]
      simp
    have hx := List.mem_of_find?_eq_some handle
    have token : x.token = ⟨s.generation, id⟩ := of_decide_eq_true (List.find?_some handle :)
    have held := sound.holdings _ there
    split at served
    · cases served
    · rename_i live
      rw [Bool.or_eq_true, not_or, Bool.not_eq_true] at live
      have member : id ∈ s.installed := by
        have same : x.id = id := congrArg Token.subscription token
        rw [← same]
        exact held.kept x hx (congrArg Token.generation token) (reported x hx token) live.1
      obtain ⟨entry, here⟩ := Option.isSome_iff_exists.mp
        (ExtTreeMap.mem_iff_isSome_getElem?.mp member)
      obtain ⟨-, y, hy, token', filters, -⟩ := held.running id entry here
      obtain rfl := handle_eq sound.named hy hx (token'.trans token.symm)
      rw [here] at served
      exact ⟨s, y, entry, found, handle, here, filters, (mem_owners here).mpr served⟩
  · cases served

theorem carried_complete (sound : Sound e.core) {item : Item}
    (reported : item.tells = true → ∀ x ∈ e.handles, x.token = ⟨generation, id⟩ → x.recorded = true)
    {d : Delivery} (told : d ∈ (e.carried P relay generation id item).deliveries) :
    d ∈ e.deliveries ∨ d.Complete := by
  unfold carried at told
  split at told
  · exact .inl told
  · split at told
    · rename_i event
      obtain old | new := List.mem_append.mp told
      · exact .inl old
      · rw [List.mem_singleton.mp new]
        refine .inr fun owner owed => ?_
        dsimp only at owed ⊢
        split at owed
        · rename_i admitted
          obtain ⟨s, x, entry, found, handle, here, filters, listed⟩ :=
            mem_serving sound (reported rfl) owed
          rw [handle, Option.map_some, Option.any_some, filters] at admitted
          rw [found]
          dsimp only
          rw [here]
          dsimp only
          rwa [if_pos admitted]
        · cases owed
    · have delivered : d ∈ e.deliveries ++ [⟨e.serving relay generation id,
          ((e.slot relay generation).map fun s => s.owners id).getD []⟩] := by
        unfold storedComplete at told
        dsimp only at told
        split at told
        · exact told
        · split at told
          · exact told
          · exact told
      obtain old | new := List.mem_append.mp delivered
      · exact .inl old
      · rw [List.mem_singleton.mp new]
        refine .inr fun owner owed => ?_
        obtain ⟨s, x, entry, found, -, -, -, listed⟩ := mem_serving sound (reported rfl) owed
        rw [found]
        exact listed
    all_goals exact .inl told

theorem deliveries_visitSlot : (e.visitSlot relay generation).deliveries = e.deliveries := by
  unfold visitSlot
  dsimp only
  split
  · exact congrArg Prod.fst told_releaseSlot
  · split
    · rfl
    · split
      · rfl
      · split <;> rfl

end Engine

variable {P : Providers} {acts : List Action} {e : Engine}

/-- Every event and every end of stored events is applied to all demand its
subscription serves, as long as it is processed after the installation's report. -/
theorem deliveries_complete_of_reported (run : Run (step P) Reported .start acts e) :
    ∀ d ∈ e.deliveries, d.Complete := by
  suffices both : Sound e.core ∧ ∀ d ∈ e.deliveries, d.Complete from both.2
  refine run.invariant (fun e => Sound e.core ∧ ∀ d ∈ e.deliveries, d.Complete)
    ⟨Engine.start_sound, by simp [Engine.start]⟩ fun e a e' ⟨sound, complete⟩ meets stepped => ?_
  have effects : Effects (fun _ _ => True) e.core e'.core :=
    step_effects (fun _ _ _ => trivial) stepped
  refine ⟨effects.sound sound, fun d told => ?_⟩
  obtain quiet | ⟨relay, generation, rest, -, rfl⟩ |
    ⟨relay, generation, id, item, rest, carrying, same, rfl⟩ := step_told stepped
  · rw [show e'.deliveries = e.deliveries from congrArg Prod.fst quiet] at told
    exact complete d told
  · rw [Engine.deliveries_visitSlot] at told
    exact complete d told
  · have sound' : Sound { e with inbox := rest }.core := by rwa [same]
    obtain old | new := Engine.carried_complete sound' (meets _ carrying) told
    · exact complete d old
    · exact new

section BeforeReport

/-- The relay answers the first subscription before its installation is reported. -/
def answerFirst : List Action :=
  openFirst.take 13 ++ [.carry 0 .endOfStoredEvents, .receive, .finish 0, .receive]

/-- An end of stored events processed before the installation's report is lost. -/
theorem early_end_of_stored_events_lost :
    ∃ acts e, Run (step kindProviders) Free .start acts e ∧ e.plans = [] ∧
      ∃ d ∈ e.deliveries, ¬d.Complete := by
  obtain ⟨e, run, checked⟩ := Run.of_any (show (exec (step kindProviders) Free .start
    answerFirst).any (fun e => e.plans.isEmpty && e.deliveries.any fun d =>
      decide (d.owed = [1] ∧ d.given = [])) = true by decide +kernel)
  simp only [Bool.and_eq_true, List.isEmpty_iff, List.any_eq_true, decide_eq_true_eq] at checked
  obtain ⟨done, d, hd, owed, given⟩ := checked
  refine ⟨_, e, run, done, d, hd, fun complete => ?_⟩
  have served := complete 1 (by simp [owed])
  rw [given] at served
  cases served

theorem deliveries_complete_after_openFirst :
    ∃ e, Run (step kindProviders) Reported .start
        (openFirst ++ [.carry 0 .endOfStoredEvents, .receive]) e ∧
      ∃ d ∈ e.deliveries, d.owed = [1] ∧ d.Complete := by
  obtain ⟨e, run, checked⟩ := Run.of_any (show (exec (step kindProviders) Reported .start
    (openFirst ++ [.carry 0 .endOfStoredEvents, .receive])).any (fun e => e.deliveries.any fun d =>
      decide (d.owed = [1])) = true by decide +kernel)
  simp only [List.any_eq_true, decide_eq_true_eq] at checked
  obtain ⟨d, hd, owed⟩ := checked
  exact ⟨e, run, d, hd, owed, deliveries_complete_of_reported run d hd⟩

end BeforeReport

end Fava.Observe
