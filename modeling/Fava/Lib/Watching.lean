import Fava.Lib.Run

namespace Fava.Lib

/-- What a receiver of a bounded broadcast channel finds. -/
inductive Received (M : Type)
  | waits
  | lagged (next : Nat)
  | message (message : M)

/-- A receiver `next` messages on. Only the last `capacity` ones are kept, and whoever misses some
goes on with the oldest that is. -/
def receive {M : Type} (capacity : Nat) (sent : List M) (next : Nat) : Received M :=
  if next + capacity < sent.length then .lagged (sent.length - capacity)
  else
    match sent[next]? with
    | none => .waits
    | some message => .message message

/-- Who waits for the value under a key to be as wanted: what a value read decides, if anything,
and what comes of being told that it was removed. -/
structure Watcher (K V R : Type) where
  key : K
  decides : Option V → Option R
  removed : R

inductive WatchStage (R : Type)
  | subscribing
  | reading (next : Nat)
  | receiving (next : Nat)
  | returned (result : R)

namespace Watcher

variable {K V R : Type} {watcher : Watcher K V R} {capacity : Nat} {value after : K → Option V}
  {sent more : List (K × Option V)} {stage next : WatchStage R}

/-- A watcher subscribes, reads, and reads again whenever it is told of its key or lost messages. -/
def advance [DecidableEq K] (watcher : Watcher K V R) (capacity : Nat) (value : K → Option V)
    (sent : List (K × Option V)) : WatchStage R → Option (WatchStage R)
  | .subscribing => some (.reading sent.length)
  | .reading next =>
    match watcher.decides (value watcher.key) with
    | some result => some (.returned result)
    | none => some (.receiving next)
  | .receiving next =>
    match receive capacity sent next with
    | .waits => none
    | .lagged next => some (.reading next)
    | .message (key, latest) =>
      if key = watcher.key then
        match latest with
        | none => some (.returned watcher.removed)
        | some _ => some (.reading (next + 1))
      else some (.receiving (next + 1))
  | .returned _ => none

/-- Whoever receives either still is to hear of its key, or what it would read decides nothing. -/
def Informed (watcher : Watcher K V R) (value : K → Option V) (sent : List (K × Option V)) :
    WatchStage R → Prop
  | .reading next => next ≤ sent.length
  | .receiving next => next ≤ sent.length ∧
    ((∃ message ∈ sent.drop next, message.1 = watcher.key) ∨ watcher.decides (value watcher.key) = none)
  | .subscribing | .returned _ => True

/-- Whatever is changed is announced. -/
theorem Informed.sends (informed : watcher.Informed value sent stage)
    (announced : ∀ key, after key ≠ value key → ∃ message ∈ more, message.1 = key) :
    watcher.Informed after (sent ++ more) stage := by
  have longer : sent.length ≤ (sent ++ more).length := by simp
  cases stage with
  | subscribing | returned => trivial
  | reading position => exact Nat.le_trans informed longer
  | receiving position =>
    obtain ⟨within, told⟩ := informed
    refine ⟨Nat.le_trans within longer, ?_⟩
    rw [List.drop_append_of_le_length within]
    obtain ⟨message, member, same⟩ | undecided := told
    · exact .inl ⟨message, List.mem_append_left _ member, same⟩
    · by_cases same : after watcher.key = value watcher.key
      · exact .inr (same ▸ undecided)
      · obtain ⟨message, member, is⟩ := announced _ same
        exact .inl ⟨message, List.mem_append_right _ member, is⟩

/-- The steps a watcher may still take before it returns or waits. -/
def rank (capacity length : Nat) : WatchStage R → Nat
  | .subscribing => 3
  | .reading next => 2 * min (length - next) (capacity + 1) + 2
  | .receiving next => 2 * min (length - next) (capacity + 1) + 1
  | .returned _ => 0

theorem rank_le (capacity length : Nat) (stage : WatchStage R) :
    rank capacity length stage ≤ 2 * capacity + 4 := by
  cases stage <;> simp only [rank] <;> omega

variable [DecidableEq K]

theorem Informed.advance (informed : watcher.Informed value sent stage)
    (advanced : watcher.advance capacity value sent stage = some next) :
    watcher.Informed value sent next ∧ rank capacity sent.length next < rank capacity sent.length stage := by
  cases stage with
  | subscribing =>
    cases advanced
    exact ⟨Nat.le_refl _, by simp [rank]⟩
  | reading position =>
    unfold Watcher.advance at advanced
    dsimp only at advanced
    split at advanced
    · cases advanced
      exact ⟨trivial, by simp [rank]⟩
    · cases advanced
      exact ⟨⟨informed, .inr ‹_›⟩, by simp [rank]⟩
  | receiving position =>
    obtain ⟨within, told⟩ := informed
    unfold Watcher.advance receive at advanced
    dsimp only at advanced
    split at advanced
    · cases advanced
    · rename_i oldest lagged
      cases advanced
      split at lagged
      · cases lagged
        exact ⟨Nat.sub_le _ _, by simp only [rank]; omega⟩
      · split at lagged <;> cases lagged
    · rename_i other latest found
      split at found
      · cases found
      · split at found
        · cases found
        · rename_i there
          cases found
          obtain ⟨inside, here⟩ := List.getElem?_eq_some_iff.mp there
          split at advanced
          · split at advanced
            · cases advanced
              exact ⟨trivial, by simp [rank]⟩
            · cases advanced
              exact ⟨inside, by simp only [rank]; omega⟩
          · rename_i differs
            cases advanced
            refine ⟨⟨inside, told.imp_left ?_⟩, by simp only [rank]; omega⟩
            rintro ⟨message, member, is⟩
            rw [List.drop_eq_getElem_cons inside, here, List.mem_cons] at member
            obtain rfl | later := member
            · exact absurd is differs
            · exact ⟨message, later, is⟩
  | returned => cases advanced

/-- Whoever neither returned nor goes on would decide nothing if it read now. -/
theorem Informed.rests (informed : watcher.Informed value sent stage)
    (rests : watcher.advance capacity value sent stage = none) :
    (∃ result, stage = .returned result) ∨ watcher.decides (value watcher.key) = none := by
  cases stage with
  | subscribing => cases rests
  | returned result => exact .inl ⟨result, rfl⟩
  | reading position =>
    unfold Watcher.advance at rests
    dsimp only at rests
    split at rests <;> cases rests
  | receiving position =>
    obtain ⟨within, ⟨message, member, -⟩ | undecided⟩ := informed
    · unfold Watcher.advance receive at rests
      dsimp only at rests
      split at rests
      · rename_i waits
        split at waits
        · cases waits
        · split at waits
          · rename_i past
            rw [List.getElem?_eq_none_iff] at past
            rw [List.drop_eq_nil_of_le past] at member
            cases member
          · cases waits
      · cases rests
      · split at rests
        · split at rests <;> cases rests
        · cases rests
    · exact .inr undecided

/-- The steps a watcher takes alone. -/
def alone (watcher : Watcher K V R) (capacity : Nat) (value : K → Option V)
    (sent : List (K × Option V)) (stage : WatchStage R) (_ : Unit) : Option (WatchStage R) :=
  watcher.advance capacity value sent stage

/-- A watcher alone goes on until it returns or waits. -/
theorem Informed.settles (informed : watcher.Informed value sent stage) :
    ∃ steps next, Run (watcher.alone capacity value sent) Free stage steps next ∧
      steps.length ≤ 2 * capacity + 4 ∧
      ((∃ result, next = .returned result) ∨ watcher.decides (value watcher.key) = none) := by
  suffices ∃ steps next, Run (watcher.alone capacity value sent) Free stage steps next ∧
      steps.length ≤ rank capacity sent.length stage ∧ watcher.Informed value sent next ∧
      watcher.advance capacity value sent next = none by
    obtain ⟨steps, next, run, short, informed, rests⟩ := this
    exact ⟨steps, next, run, Nat.le_trans short (rank_le _ _ _), informed.rests rests⟩
  generalize bound : rank capacity sent.length stage = count
  induction count using Nat.strongRecOn generalizing stage with
  | ind count ih =>
    cases advanced : watcher.advance capacity value sent stage with
    | none => exact ⟨[], stage, .nil, Nat.zero_le _, informed, advanced⟩
    | some next =>
      obtain ⟨informed, less⟩ := informed.advance advanced
      rw [bound] at less
      obtain ⟨steps, last, run, short, informed, rests⟩ := ih _ less informed rfl
      have first : Run (watcher.alone capacity value sent) Free stage ([] ++ [()]) next :=
        .snoc .nil trivial advanced
      refine ⟨_, last, first.append run, ?_, informed, rests⟩
      simp only [List.nil_append, List.singleton_append, List.length_cons]
      omega

end Watcher

end Fava.Lib
