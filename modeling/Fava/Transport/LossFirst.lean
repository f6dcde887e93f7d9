import Fava.Transport.Subscription

namespace Fava.Transport.Subscription

open Fava.Lib Fava.Relay Fava.Transport

variable {h k : Handle} {log : List Entry} {a : Action}

@[simp] theorem uncovered_dropped (stamp : Nat) :
    uncovered (log ++ [.dropped stamp]) = uncovered log ++ [stamp] := by
  simp [uncovered]

@[simp] theorem uncovered_lost (count : Nat) :
    uncovered (log ++ [.lost count]) = (uncovered log).drop count := by
  simp [uncovered]

@[simp] theorem uncovered_other {entry : Entry} (kept : ∀ stamp, entry ≠ .dropped stamp)
    (unreported : ∀ count, entry ≠ .lost count) :
    uncovered (log ++ [entry]) = uncovered log := by
  cases entry with
  | dropped stamp => exact absurd rfl (kept stamp)
  | lost count => exact absurd rfl (unreported count)
  | _ => simp [uncovered]

@[simp] theorem refusals_refused (stamp : Nat) :
    refusals (log ++ [.refused stamp]) = refusals log ++ [stamp] := by
  simp [refusals]

@[simp] theorem refusals_other {entry : Entry} (taken : ∀ stamp, entry ≠ .refused stamp) :
    refusals (log ++ [entry]) = refusals log := by
  cases entry with
  | refused stamp => exact absurd rfl (taken stamp)
  | _ => simp [refusals]

theorem LossFirst.append {entry : Entry} (first : LossFirst log)
    (last : ∀ offer, entry = .returned offer →
      ∀ stamp ∈ uncovered log ++ refusals log, ¬ stamp < offer.stamp) :
    LossFirst (log ++ [entry]) := by
  intro before offer after eq
  obtain rfl | ⟨after, final, rfl⟩ := List.eq_nil_or_concat after
  · obtain ⟨rfl, he⟩ := List.append_inj' eq rfl
    exact last offer (List.singleton_inj.mp he)
  · rw [List.concat_eq_append, ← List.cons_append, ← List.append_assoc] at eq
    exact first before offer after (List.append_inj' eq rfl).1

/-- Everything queued was offered before everything unreported, and the counter
counts exactly what is unreported. -/
structure Ordered (h : Handle) : Prop where
  lossFirst : LossFirst h.log
  counted : h.mailbox.dropped = (uncovered h.log).length
  queued : ∀ offer ∈ h.mailbox.items, offer.stamp < h.clock ∧
    ∀ stamp ∈ uncovered h.log ++ refusals h.log, offer.stamp < stamp

/-- Only one thread closes the mailbox, and after the first refusal nobody is
left who could push. -/
structure Closing (h : Handle) : Prop where
  ending : h.ender ≠ .absent → h.registered = false
  closed : h.mailbox.closed = true →
    h.registered = false ∧ (h.ender = .absent ∨ h.ender = .done)
  silent : refusals h.log ≠ [] → h.mailbox.closed = true ∧ h.deliverer = .none

theorem openSubscription_ordered (capacity : Nat) : Ordered (openSubscription capacity) where
  lossFirst := by
    intro before offer after eq
    simp [openSubscription] at eq
  counted := rfl
  queued := by simp [openSubscription, Mailbox.new]

theorem openSubscription_closing (capacity : Nat) : Closing (openSubscription capacity) where
  ending := by simp [openSubscription]
  closed := by simp [openSubscription, Mailbox.new]
  silent := by simp [openSubscription, refusals]

theorem pushed_full (full : h.mailbox.full = true) (item : SubscriptionItem) :
    pushed h item = { h with
      mailbox := { h.mailbox with dropped := (h.mailbox.dropped + 1) % 2 ^ 64 }
      clock := h.clock + 1
      log := h.log ++ [.dropped h.clock] } := by
  simp [pushed, Mailbox.push, full]

theorem pushed_room (room : h.mailbox.full = false) (item : SubscriptionItem) :
    pushed h item = { h with
      mailbox := { h.mailbox with items := h.mailbox.items ++ [⟨h.clock, item⟩] }
      clock := h.clock + 1 } := by
  simp [pushed, Mailbox.push, room]

theorem pushed_closed (item : SubscriptionItem) :
    (pushed h item).mailbox.closed = h.mailbox.closed := by
  simp only [pushed, Mailbox.push]
  split <;> rfl

theorem pushed_refusals (item : SubscriptionItem) :
    refusals (pushed h item).log = refusals h.log := by
  simp only [pushed]
  split <;> simp

theorem pushed_ordered (ordered : Ordered h) (item : SubscriptionItem)
    (accepting : refusals h.log = [])
    (timely : if h.mailbox.full then h.mailbox.dropped + 1 < 2 ^ 64 else h.mailbox.dropped = 0) :
    Ordered (pushed h item) := by
  cases full : h.mailbox.full with
  | true =>
    simp only [full, if_true] at timely
    rw [pushed_full full]
    refine ⟨ordered.lossFirst.append (by simp), ?_, ?_⟩
    · simp only [uncovered_dropped, List.length_append, List.length_singleton,
        ← ordered.counted]
      exact Nat.mod_eq_of_lt timely
    · intro offer member
      obtain ⟨past, before⟩ := ordered.queued offer member
      refine ⟨Nat.lt_succ_of_lt past, ?_⟩
      intro stamp unreported
      simp only [uncovered_dropped, refusals_other, accepting, List.append_nil, ne_eq,
        reduceCtorEq, not_false_eq_true, implies_true, List.mem_append,
        List.mem_singleton] at unreported
      obtain waiting | rfl := unreported
      · exact before stamp (List.mem_append_left _ waiting)
      · exact past
  | false =>
    have reported : uncovered h.log = [] := by
      rw [← List.length_eq_zero_iff, ← ordered.counted]
      simpa [full] using timely
    rw [pushed_room full]
    refine ⟨ordered.lossFirst, ordered.counted, ?_⟩
    simp only [reported, accepting]
    intro offer member
    refine ⟨?_, by simp⟩
    obtain queued | new := List.mem_append.mp member
    · exact Nat.lt_succ_of_lt (ordered.queued offer queued).1
    · rw [List.mem_singleton.mp new]
      exact Nat.lt_succ_self _

theorem turnedAway_ordered (ordered : Ordered h) : Ordered (turnedAway h) := by
  refine ⟨ordered.lossFirst.append (by simp), ?_, ?_⟩
  · simpa [turnedAway] using ordered.counted
  · intro offer member
    obtain ⟨past, before⟩ := ordered.queued offer member
    refine ⟨Nat.lt_succ_of_lt past, ?_⟩
    intro stamp unreported
    simp only [turnedAway, uncovered_other, refusals_refused, ne_eq, reduceCtorEq,
      not_false_eq_true, implies_true, ← List.append_assoc] at unreported
    rw [List.mem_append, List.mem_singleton] at unreported
    obtain waiting | rfl := unreported
    · exact before stamp waiting
    · exact past

theorem take_ordered {offer : Offer} {rest : List Offer} (ordered : Ordered h)
    (items : h.mailbox.items = offer :: rest) (reader : Reading) :
    Ordered { h with
      mailbox := { h.mailbox with items := rest }
      reader := reader
      log := h.log ++ [.returned offer] } := by
  have first := ordered.queued offer (by simp [items])
  refine ⟨ordered.lossFirst.append ?_, ?_, ?_⟩
  · intro returned eq stamp unreported
    cases eq
    exact Nat.lt_asymm (first.2 stamp unreported)
  · simpa using ordered.counted
  · intro queued member
    simpa using ordered.queued queued (by simp [items, member])

theorem lost_ordered (ordered : Ordered h) (reader : Reading) :
    Ordered { h with
      mailbox := { h.mailbox with dropped := 0 }
      reader := reader
      log := h.log ++ [.lost h.mailbox.dropped] } := by
  have cleared : uncovered (h.log ++ [.lost h.mailbox.dropped]) = [] := by
    simp [ordered.counted]
  refine ⟨ordered.lossFirst.append (by simp), by simp [cleared], ?_⟩
  intro offer member
  obtain ⟨past, before⟩ := ordered.queued offer member
  refine ⟨past, ?_⟩
  intro stamp unreported
  simp only [cleared, List.nil_append, refusals_other, ne_eq, reduceCtorEq, not_false_eq_true,
    implies_true] at unreported
  exact before stamp (List.mem_append_right _ unreported)

/-- A push happens only before the first refusal. -/
theorem Closing.accepting (closing : Closing h)
    (pushes : a = .delivererPushes ∨ a = .enderPushes) (stepped : step h a = some k) :
    refusals h.log = [] := by
  by_contra some_refused
  obtain ⟨closed, silent⟩ := closing.silent some_refused
  obtain ⟨-, ender⟩ := closing.closed closed
  obtain rfl | rfl := pushes
  · simp [step, silent] at stepped
  · obtain ender | ender := ender <;> simp [step, ender] at stepped

theorem step_ordered (ordered : Ordered h) (closing : Closing h) (timely : Timely h a)
    (stepped : step h a = some k) : Ordered k := by
  have accepting := fun pushes => closing.accepting (a := a) pushes stepped
  cases a with
  | deliver item | endConnection reason | enderCloses | next | wakes =>
    simp only [step, Option.ite_none_right_eq_some, Option.some.injEq] at stepped
    obtain ⟨-, rfl⟩ := stepped
    exact ⟨ordered.lossFirst, ordered.counted, ordered.queued⟩
  | delivererChecks | enderChecks =>
    simp only [step] at stepped
    split at stepped
    · split at stepped
      · cases stepped
        have away := turnedAway_ordered ordered
        exact ⟨away.lossFirst, away.counted, away.queued⟩
      · cases stepped
        exact ⟨ordered.lossFirst, ordered.counted, ordered.queued⟩
    · cases stepped
  | delivererPushes | enderPushes =>
    have open_ := accepting (by simp)
    simp only [step] at stepped
    split at stepped
    · rename_i item _
      cases stepped
      have pushed := pushed_ordered ordered item open_ timely
      exact ⟨pushed.lossFirst, pushed.counted, pushed.queued⟩
    · cases stepped
  | release =>
    simp only [step, Option.ite_none_right_eq_some] at stepped
    obtain ⟨-, stepped⟩ := stepped
    split at stepped <;> cases stepped <;>
      exact ⟨ordered.lossFirst, ordered.counted, ordered.queued⟩
  | takes =>
    simp only [step, Option.ite_none_right_eq_some] at stepped
    obtain ⟨-, stepped⟩ := stepped
    cases items : h.mailbox.items with
    | nil =>
      simp only [Mailbox.take, items, Option.some.injEq] at stepped
      subst stepped
      exact ⟨ordered.lossFirst, ordered.counted, ordered.queued⟩
    | cons offer rest =>
      simp only [Mailbox.take, items, Option.some.injEq] at stepped
      subst stepped
      exact take_ordered ordered items _
  | takesDropped =>
    simp only [step, Option.ite_none_right_eq_some] at stepped
    obtain ⟨-, stepped⟩ := stepped
    cases count : h.mailbox.dropped with
    | zero =>
      simp only [Mailbox.takeDropped, count, Option.some.injEq] at stepped
      subst stepped
      exact ⟨ordered.lossFirst, count ▸ ordered.counted, ordered.queued⟩
    | succ n =>
      simp only [Mailbox.takeDropped, count, Option.some.injEq] at stepped
      subst stepped
      have lost := lost_ordered ordered .idle
      rwa [count] at lost
  | checksClosed =>
    simp only [step, Option.ite_none_right_eq_some] at stepped
    obtain ⟨-, stepped⟩ := stepped
    split at stepped <;> cases stepped
    · exact ⟨ordered.lossFirst.append (by simp), by simpa using ordered.counted,
        by simpa using ordered.queued⟩
    · exact ⟨ordered.lossFirst, ordered.counted, ordered.queued⟩

theorem step_closing (closing : Closing h) (stepped : step h a = some k) : Closing k := by
  have accepting := fun pushes => closing.accepting (a := a) pushes stepped
  obtain ⟨ending, closed, silent⟩ := closing
  cases a with
  | deliver item =>
    simp only [step, Option.ite_none_right_eq_some, Option.some.injEq] at stepped
    obtain ⟨⟨registered, -⟩, rfl⟩ := stepped
    refine ⟨ending, closed, fun refused => ?_⟩
    have gone := (closed (silent refused).1).1
    simp [registered] at gone
  | delivererChecks =>
    simp only [step] at stepped
    split at stepped
    · rename_i called
      split at stepped
      · rename_i shut
        cases stepped
        exact ⟨ending, closed, fun _ => ⟨shut, rfl⟩⟩
      · rename_i unshut
        cases stepped
        exact ⟨ending, closed, fun refused => absurd (silent refused).1 unshut⟩
    · cases stepped
  | delivererPushes =>
    have open_ := accepting (by simp)
    simp only [step] at stepped
    split at stepped
    · rename_i item _
      cases stepped
      refine ⟨ending, fun shut => closed (by rwa [← pushed_closed item]), fun refused => ?_⟩
      simp only [pushed_refusals] at refused
      exact absurd open_ refused
    · cases stepped
  | endConnection reason =>
    simp only [step, Option.ite_none_right_eq_some, Option.some.injEq] at stepped
    obtain ⟨registered, rfl⟩ := stepped
    refine ⟨fun _ => rfl, fun shut => ?_, silent⟩
    have gone := (closed shut).1
    simp [registered] at gone
  | enderChecks =>
    simp only [step] at stepped
    split at stepped
    · rename_i called
      have unshut : h.mailbox.closed = false := by
        by_contra shut
        have ender := (closed (by simpa using shut)).2
        simp [called] at ender
      have gone := ending (by simp [called])
      simp only [unshut, Bool.false_eq_true, if_false, Option.some.injEq] at stepped
      subst stepped
      exact ⟨fun _ => gone, fun shut => absurd shut (by simp [unshut]), silent⟩
    · cases stepped
  | enderPushes =>
    have open_ := accepting (by simp)
    simp only [step] at stepped
    split at stepped
    · rename_i item admitted
      have gone := ending (by simp [admitted])
      cases stepped
      refine ⟨fun _ => gone, fun shut => ?_, fun refused => ?_⟩
      · have ender := (closed (by rwa [← pushed_closed item])).2
        simp [admitted] at ender
      · simp only [pushed_refusals] at refused
        exact absurd open_ refused
    · cases stepped
  | enderCloses =>
    simp only [step, Option.ite_none_right_eq_some, Option.some.injEq] at stepped
    obtain ⟨offered, rfl⟩ := stepped
    have gone := ending (by simp [offered])
    exact ⟨fun _ => gone, fun _ => ⟨gone, .inr rfl⟩, fun refused => ⟨rfl, (silent refused).2⟩⟩
  | release =>
    simp only [step, Option.ite_none_right_eq_some] at stepped
    obtain ⟨-, stepped⟩ := stepped
    split at stepped
    · rename_i registered
      cases stepped
      have absent : h.ender = .absent := by
        by_contra present
        simp [registered] at ending
        exact present ending
      exact ⟨fun _ => rfl, fun _ => ⟨rfl, .inl absent⟩, fun refused => ⟨rfl, (silent refused).2⟩⟩
    · cases stepped
      exact ⟨ending, closed, silent⟩
  | next | wakes =>
    simp only [step, Option.ite_none_right_eq_some, Option.some.injEq] at stepped
    obtain ⟨-, rfl⟩ := stepped
    exact ⟨ending, closed, silent⟩
  | takes =>
    simp only [step, Option.ite_none_right_eq_some] at stepped
    obtain ⟨-, stepped⟩ := stepped
    cases items : h.mailbox.items <;> simp only [Mailbox.take, items, Option.some.injEq] at stepped <;>
      subst stepped
    · exact ⟨ending, closed, silent⟩
    · exact ⟨ending, closed, by simpa using silent⟩
  | takesDropped =>
    simp only [step, Option.ite_none_right_eq_some] at stepped
    obtain ⟨-, stepped⟩ := stepped
    cases count : h.mailbox.dropped <;>
      simp only [Mailbox.takeDropped, count, Option.some.injEq] at stepped <;> subst stepped
    · exact ⟨ending, closed, silent⟩
    · exact ⟨ending, closed, by simpa using silent⟩
  | checksClosed =>
    simp only [step, Option.ite_none_right_eq_some] at stepped
    obtain ⟨-, stepped⟩ := stepped
    split at stepped <;> cases stepped
    · exact ⟨ending, closed, by simpa using silent⟩
    · exact ⟨ending, closed, silent⟩

/-- Along every run whose pushes are all timely, `next` reports each loss before
it returns anything offered after it. -/
theorem loss_reported_first {capacity : Nat} {as : List Action}
    (run : Run step Timely (openSubscription capacity) as h) : LossFirst h.log := by
  have both := run.invariant (fun h => Ordered h ∧ Closing h)
    ⟨openSubscription_ordered capacity, openSubscription_closing capacity⟩
    fun _ _ _ kept timely stepped =>
      ⟨step_ordered kept.1 kept.2 timely stepped, step_closing kept.2 stepped⟩
  exact both.1.lossFirst

instance (h : Handle) : ∀ a, Decidable (Timely h a)
  | .delivererPushes | .enderPushes => inferInstanceAs (Decidable
      (if h.mailbox.full then h.mailbox.dropped + 1 < 2 ^ 64 else h.mailbox.dropped = 0))
  | .deliver _ | .delivererChecks | .endConnection _ | .enderChecks | .enderCloses | .release
  | .next | .takes | .takesDropped | .checksClosed | .wakes => .isTrue trivial

/-- Two items for a queue of one, and the reader taking the first. -/
def overflow (item : SubscriptionItem) : List Action :=
  [.deliver item, .delivererChecks, .delivererPushes,
   .deliver item, .delivererChecks, .delivererPushes, .next, .takes]

def endOfStored : List Action :=
  [.deliver .endOfStoredEvents, .delivererChecks, .delivererPushes, .next, .takes]

def stored : SubscriptionItem := .event ⟨1, 2, 3, 1, [], "stored", 0⟩

theorem loss_reported_first_of_overflow :
    ∃ as h, Run step Timely (openSubscription 1) as h ∧
      Entry.returned ⟨2, .endOfStoredEvents⟩ ∈ h.log ∧ LossFirst h.log := by
  have run : Run step Timely (openSubscription 1)
      (overflow stored ++ [.next, .takes, .takesDropped] ++ endOfStored) _ := Run.of_exec rfl
  exact ⟨_, _, run, by decide, loss_reported_first run⟩

/-- The reader makes room after the overflow and before it has asked for the
loss, so the end of stored events slips into the queue ahead of the report. -/
theorem loss_reported_late :
    ∃ as h, Run step Free (openSubscription 1) as h ∧ ¬ LossFirst h.log := by
  refine ⟨overflow stored ++ endOfStored, _, Run.of_exec rfl, fun first => ?_⟩
  exact first [.dropped 1, .returned ⟨0, stored⟩] ⟨2, .endOfStoredEvents⟩ [] rfl 1
    (by decide) (by decide)

end Fava.Transport.Subscription
