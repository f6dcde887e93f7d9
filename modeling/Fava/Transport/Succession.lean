import Fava.Transport.Generation

namespace Fava.Transport.Driver

open Fava.Lib Fava.Relay Fava.Transport

variable {s t : Session} {a : Action}

/-- The generation minted for a socket the driver has not switched to yet. -/
def Phase.next : Phase → Option Nat
  | .sleeping minted _ | .dialling minted _ | .established minted => some minted
  | _ => none

/-- Generations are minted in order: the current one is no later than the last
one minted, and the one being dialled is a later one. -/
structure Minted (s : Session) : Prop where
  current : s.generation ≤ s.generations
  next : ∀ g, s.phase.next = some g → s.generation < g ∧ g ≤ s.generations

theorem opened_minted (relay maxFrameBytes outboundFrames reconnectAttempts generation) :
    Minted (opened relay maxFrameBytes outboundFrames reconnectAttempts generation) where
  current := Nat.le_refl _
  next := by simp [opened, Phase.next]

/-- A step that mints nothing and dials nothing new. -/
theorem Minted.keep (minted : Minted s) (generation : t.generation = s.generation)
    (generations : s.generations ≤ t.generations)
    (next : ∀ g, t.phase.next = some g → s.phase.next = some g) : Minted t where
  current := by
    rw [generation]
    exact minted.current.trans generations
  next g dialled := by
    have before := minted.next g (next g dialled)
    rw [generation]
    exact ⟨before.1, before.2.trans generations⟩

theorem handOff_generations (frame : String) (correlation : Nat) (awaited : Bool) :
    (handOff s frame correlation awaited).generations = s.generations := by
  simp only [handOff]
  split
  · rfl
  · split <;> rfl

theorem trySend_generations (call : Call) :
    (trySend s call).generations = s.generations := by
  unfold trySend
  split
  · rfl
  · split <;> rfl

theorem step_minted (minted : Minted s) (stepped : step s a = some t) : Minted t := by
  cases Stepped.of_step stepped with
  | handOff | enqueue =>
    refine minted.keep (handOff_generation ..) (handOff_generations ..).ge ?_
    simp [handOff_phase]
  | @trySend call =>
    refine minted.keep (trySend_generation call) (trySend_generations call).ge ?_
    simp [trySend_phase]
  | close | timesOut | closeRouter | abandon | challenge | drains =>
    exact minted.keep rfl le_rfl fun _ next => next
  | othersMint => exact minted.keep rfl (Nat.le_succ _) fun _ next => next
  | mints =>
    refine ⟨minted.current.trans (Nat.le_succ _), ?_⟩
    rintro g ⟨rfl⟩
    exact ⟨Nat.lt_succ_of_le minted.current, le_rfl⟩
  | checksClosed =>
    refine minted.keep rfl le_rfl ?_
    cases s.closed <;> simp [Phase.next]
  | wakes phase =>
    refine minted.keep rfl le_rfl ?_
    cases s.closed <;> simp [phase, Phase.next]
  | connects phase => exact minted.keep rfl le_rfl (by simp [phase, Phase.next])
  | misses phase =>
    refine minted.keep rfl le_rfl fun g => ?_
    dsimp only
    split <;> simp [phase, Phase.next]
  | @advances socket phase =>
    have next := minted.next socket (by rw [phase]; rfl)
    exact ⟨next.2, by simp [Phase.next]⟩
  | stops | finishes | recv | writeDone | writeFails | writeTimesOut | socketEnds | closeDone | moves
  | givesUp | hearsClose | drained | spent =>
    exact minted.keep rfl le_rfl (by simp [wrote, dropReceiver, Phase.next])

/-- The switch to a replacement is to a later generation. -/
theorem advances_generation (minted : Minted s) (stepped : step s .advances = some t) :
    s.generation < t.generation := by
  cases Stepped.of_step stepped with
  | @advances socket phase => exact (minted.next socket (by rw [phase]; rfl)).1

end Fava.Transport.Driver
