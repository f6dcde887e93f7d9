import Fava.Observe.Core

namespace Fava.Observe

open Std Fava.Lib Fava.Nostr Fava.Relay Fava.Subscriptions

namespace Engine

/-- What observers were told so far. -/
def told (e : Engine) : List Delivery × List Claim := (e.deliveries, e.claims)

variable {P : Providers} {e e' : Engine} {relay : RelayUrl} {generation : Round}

theorem told_establish {authority : Authority} : (e.establish relay authority).told = e.told := by
  unfold establish
  split
  · split <;> rfl
  · split <;> rfl

theorem told_releaseSlot : (e.releaseSlot relay generation).told = e.told := by
  unfold releaseSlot
  split <;> rfl

theorem told_execute {constraints : RelayReadConstraints} {plan : SubscriptionPlan} :
    (e.execute relay generation constraints plan).told = e.told := by
  unfold execute
  dsimp only
  split <;> rfl

theorem told_flush : (e.flush P relay generation).told = e.told := by
  unfold flush
  dsimp only
  split
  · rfl
  · split
    · rfl
    · split
      · rfl
      · split
        · rfl
        · split
          · rfl
          · split
            · exact told_execute
            · rfl

theorem told_visitRelay {items : List (RelayDemand × Authority)} :
    (e.visitRelay relay items).told = e.told := by
  unfold visitRelay
  induction items generalizing e with
  | nil => rfl
  | cons item items ih =>
    rw [List.foldl_cons, ih]
    dsimp only
    split
    · exact told_establish
    · rfl

theorem told_reconcile : e.reconcile.told = e.told := by
  suffices released : ∀ relays : List RelayUrl, (relays.foldl releaseRelay e).told = e.told
    from released _
  intro relays
  induction relays generalizing e with
  | nil => rfl
  | cons relay relays ih => exact ih

theorem told_acquired {session : Session} : (e.acquired relay generation session).told = e.told := by
  unfold acquired
  dsimp only
  split
  · rfl
  · split <;> rfl

theorem told_refused : (e.refused relay generation).told = e.told := by
  unfold refused
  split
  · rfl
  · dsimp only
    split <;> rfl

theorem told_enterAdmission : (e.enterAdmission relay generation).told = e.told := by
  unfold enterAdmission
  split
  · rfl
  · split <;> rfl

theorem told_reconnected : (e.reconnected relay generation).told = e.told := by
  unfold reconnected
  split
  · rfl
  · split
    · rfl
    · rw [told_enterAdmission]
      split <;> rfl

theorem told_installed {done : Installing} : (e.installed done).told = e.told := by
  unfold installed
  split
  · rfl
  · split <;> rfl

/-- Of all reports only what a subscription carried is told to observers. -/
theorem told_accept {report : Report}
    (plain : ∀ relay generation id item, report ≠ .carried relay generation id item) :
    (e.accept P report).told = e.told := by
  cases report with
  | acquired relay generation session => exact told_acquired
  | refused relay generation => exact told_refused
  | installed done => exact told_installed
  | flush relay generation => exact told_flush
  | connectionReplaced relay generation =>
    simp only [accept, connectionReplaced]
    split
    · rfl
    · exact told_reconnected
  | carried relay generation id item => exact (plain _ _ _ _ rfl).elim
  | constraints relay generation constraints => rfl

theorem told_post {u : Engine} {report : Report} (posted : u.post report = some e')
    (kept : u.told = e.told) : e'.told = e.told := by
  unfold post at posted
  rw [Option.ite_none_right_eq_some, Option.some.injEq] at posted
  rw [← posted.2, ← kept]
  rfl

/-- The slot the step attaches current demand to. -/
def visiting (e : Engine) : Action → Option (RelayUrl × Round)
  | .visit =>
    match e.todo with
    | .slot relay generation :: _ => some (relay, generation)
    | _ => none
  | _ => none

/-- The subscription whose traffic the step processes, with the relay it came from. -/
def carrying (e : Engine) : Action → Option (RelayUrl × Token × Item)
  | .receive =>
    match e.inbox with
    | .carried relay generation id item :: _ => some (relay, ⟨generation, id⟩, item)
    | _ => none
  | _ => none

end Engine

open Engine in
/-- Observers are told something in two kinds of steps only. -/
theorem step_told {P : Providers} {e e' : Engine} {a : Action} (stepped : step P e a = some e') :
    e'.told = e.told ∨
      (∃ relay generation rest, e.visiting a = some (relay, generation) ∧
        e' = { e with todo := rest }.visitSlot relay generation) ∨
      ∃ relay generation id item rest, e.carrying a = some (relay, ⟨generation, id⟩, item) ∧
        { e with inbox := rest }.core = e.core ∧
          e' = { e with inbox := rest }.carried P relay generation id item := by
  cases Stepped.of_step stepped with
  | observe | revive | authenticate | wake | deny | subscribe => exact .inl rfl
  | reconcile => exact .inl told_reconcile
  | visitRelay => exact .inl told_visitRelay
  | @visitSlot relay generation rest todo =>
    refine .inr (.inl ⟨relay, generation, rest, ?_, rfl⟩)
    rw [visiting, todo]
  | flush => exact .inl told_flush
  | @receive report rest inbox =>
    by_cases carried : ∃ relay generation id item, report = .carried relay generation id item
    · obtain ⟨relay, generation, id, item, rfl⟩ := carried
      refine .inr (.inr ⟨relay, generation, id, item, rest, ?_, ?_, rfl⟩)
      · rw [carrying, inbox]
      · rw [core, core, plans, plans, inbox]
        rfl
    · push Not at carried
      exact .inl (told_accept carried)
  | @acquire _ _ _ _ outcome _ posted => cases outcome <;> exact .inl (told_post posted rfl)
  | elapse _ posted | replace _ posted | declare _ posted | finish _ _ posted | carry _ _ posted =>
    exact .inl (told_post posted rfl)

end Fava.Observe
