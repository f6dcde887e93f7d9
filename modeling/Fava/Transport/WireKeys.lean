import Mathlib.Algebra.GroupWithZero.Nat
import Mathlib.Logic.Function.Basic
import Fava.Lib.Claimed
import Fava.Lib.Run
import Fava.Nostr.Event

namespace Fava.Transport

open Fava.Lib Fava.Nostr

/-- A call of `subscribe`, and the handle it becomes. -/
inductive Subscribing
  | opening
  | held
  | gone
deriving DecidableEq

structure Subscriber where
  id : Nat
  mailbox : Nat
  stage : Subscribing
  ended : Bool
deriving DecidableEq

/-- A call of `publish` or `answer`, and the handle it becomes. `settled` takes
the settlement before it releases the mailbox. -/
inductive Awaiting
  | handing
  | held
  | taken
  | settled
  | gone
deriving DecidableEq

structure Awaiter where
  event : EventId
  mailbox : Nat
  stage : Awaiting
  filled : Bool
  ended : Bool
deriving DecidableEq

/-- A router's two tables, and everybody who registered in them. Mailboxes are
numbered, since `release_acknowledgement` compares pointers. -/
structure WireKeys where
  minted : Nat
  mailboxes : Nat
  subscriptions : Nat → Option Nat
  acknowledgements : EventId → Option (List Nat)
  subscribers : List Subscriber
  awaiters : List Awaiter

/-- Neither refused nor released, on the connection it was opened on. -/
def Subscriber.live (u : Subscriber) : Bool := u.stage ≠ .gone && !u.ended

/-- Neither refused, settled nor dropped, on the connection it was opened on. -/
def Awaiter.live (u : Awaiter) : Bool := u.stage ≠ .settled && u.stage ≠ .gone && !u.ended

def Subscriber.key (x : Subscriber) : Nat × Nat := (x.id, x.mailbox)

def Awaiter.key (x : Awaiter) : EventId × Nat := (x.event, x.mailbox)

namespace WireKeys

variable {t u : WireKeys}

def opened : WireKeys := ⟨0, 0, fun _ => none, fun _ => none, [], []⟩

/-- `Router::release_subscription`. -/
def releaseSubscription (t : WireKeys) (id : Nat) : Nat → Option Nat :=
  Function.update t.subscriptions id none

/-- `Router::await_acknowledgement`. -/
def awaitAcknowledgement (t : WireKeys) (event : EventId) : EventId → Option (List Nat) :=
  Function.update t.acknowledgements event
    (some ((t.acknowledgements event).getD [] ++ [t.mailboxes]))

/-- `Router::release_acknowledgement`. -/
def releaseAcknowledgement (t : WireKeys) (event : EventId) (mailbox : Nat) :
    EventId → Option (List Nat) :=
  match t.acknowledgements event with
  | some waiting =>
    let left := waiting.filter (· ≠ mailbox)
    Function.update t.acknowledgements event (if left.isEmpty then none else some left)
  | none => t.acknowledgements

/-- `answer` registers nothing if the connection that asked is gone. The future
of a call can be dropped while its frame is handed off, the one of `next` or
`settled` while it waits. A subscription handle is closed or dropped, and both
release it. `end_connection` empties one table and then the other. -/
inductive Action
  | subscribe
  | othersMint
  | opened (k : Nat) (handedOff : Bool)
  | dropsSubscribe (k : Nat)
  | closes (k : Nat)
  | publish (event : EventId)
  | answer (event : EventId) (takenUp : Bool)
  | handed (k : Nat) (handedOff : Bool)
  | dropsPublish (k : Nat)
  | ok (event : EventId)
  | takes (k : Nat)
  | releases (k : Nat)
  | abandons
  | drops (k : Nat)
  | endsSubscriptions
  | endsAcknowledgements

/-- What `publish` and `answer` do before the frame is handed off. -/
def awaits (t : WireKeys) (event : EventId) : WireKeys :=
  { t with
    mailboxes := t.mailboxes + 1
    acknowledgements := t.awaitAcknowledgement event
    awaiters := t.awaiters ++ [⟨event, t.mailboxes, .handing, false, false⟩] }

def setSubscriber (t : WireKeys) (k : Nat) (x : Subscriber) (stage : Subscribing) : List Subscriber :=
  t.subscribers.set k { x with stage }

def setAwaiter (t : WireKeys) (k : Nat) (x : Awaiter) (stage : Awaiting) : List Awaiter :=
  t.awaiters.set k { x with stage }

/-- One atomic step. The identifier counter is a `u64` and `fetch_add` wraps. -/
def step (t : WireKeys) : Action → Option WireKeys
  | .subscribe => some { t with
      minted := t.minted + 1
      mailboxes := t.mailboxes + 1
      subscriptions := Function.update t.subscriptions (t.minted % 2 ^ 64) (some t.mailboxes)
      subscribers := t.subscribers ++ [⟨t.minted % 2 ^ 64, t.mailboxes, .opening, false⟩] }
  | .othersMint => some { t with minted := t.minted + 1 }
  | .opened k handedOff => do
    let x ← t.subscribers[k]?
    match x.stage, handedOff with
    | .opening, true => some { t with subscribers := t.setSubscriber k x .held }
    | .opening, false => some { t with
        subscriptions := t.releaseSubscription x.id
        subscribers := t.setSubscriber k x .gone }
    | _, _ => none
  | .dropsSubscribe k => do
    let x ← t.subscribers[k]?
    match x.stage with
    | .opening => some { t with subscribers := t.setSubscriber k x .gone }
    | _ => none
  | .closes k => do
    let x ← t.subscribers[k]?
    match x.stage with
    | .held => some { t with
        subscriptions := t.releaseSubscription x.id
        subscribers := t.setSubscriber k x .gone }
    | _ => none
  | .publish event => some (t.awaits event)
  | .answer event takenUp => some (if takenUp then t.awaits event else t)
  | .handed k handedOff => do
    let x ← t.awaiters[k]?
    match x.stage, handedOff with
    | .handing, true => some { t with awaiters := t.setAwaiter k x .held }
    | .handing, false => some { t with
        acknowledgements := t.releaseAcknowledgement x.event x.mailbox
        awaiters := t.setAwaiter k x .gone }
    | _, _ => none
  | .dropsPublish k => do
    let x ← t.awaiters[k]?
    match x.stage with
    | .handing => some { t with awaiters := t.setAwaiter k x .gone }
    | _ => none
  | .ok event => some { t with
      awaiters := t.awaiters.map fun x =>
        if x.mailbox ∈ (t.acknowledgements event).getD [] then { x with filled := true } else x }
  | .takes k => do
    let x ← t.awaiters[k]?
    match x.stage with
    | .held =>
      if x.filled ∨ x.ended then some { t with awaiters := t.setAwaiter k x .taken } else none
    | _ => none
  | .releases k => do
    let x ← t.awaiters[k]?
    match x.stage with
    | .taken => some { t with
        acknowledgements := t.releaseAcknowledgement x.event x.mailbox
        awaiters := t.setAwaiter k x .settled }
    | _ => none
  | .abandons => some t
  | .drops k => do
    let x ← t.awaiters[k]?
    match x.stage with
    | .held | .settled => some { t with awaiters := t.setAwaiter k x .gone }
    | _ => none
  | .endsSubscriptions => some { t with
      subscriptions := fun _ => none
      subscribers := t.subscribers.map fun x => { x with ended := true } }
  | .endsAcknowledgements => some { t with
      acknowledgements := fun _ => none
      awaiters := t.awaiters.map fun x => { x with ended := true } }

/-- The tables hold exactly what the live handles and the calls in progress
registered, once, and no event without a mailbox. -/
structure Exact (t : WireKeys) : Prop where
  subscriptions : ∀ id mailbox, t.subscriptions id = some mailbox ↔
    ∃ x ∈ t.subscribers, x.key = (id, mailbox) ∧ x.live = true
  acknowledgements : ∀ event mailbox, mailbox ∈ (t.acknowledgements event).getD [] ↔
    ∃ x ∈ t.awaiters, x.key = (event, mailbox) ∧ x.live = true
  once : ∀ event waiting, t.acknowledgements event = some waiting → waiting ≠ [] ∧ waiting.Nodup

/-- A handle that waits for its settlement is not dropped on its connection, nor
is a call whose frame is being handed off; and the identifiers do not wrap. -/
def Patient (t : WireKeys) : Action → Prop
  | .subscribe => t.minted < 2 ^ 64
  | .dropsSubscribe k => ∀ x ∈ t.subscribers[k]?, x.ended = true
  | .dropsPublish k => ∀ x ∈ t.awaiters[k]?, x.ended = true
  | .drops k => ∀ x ∈ t.awaiters[k]?, x.stage = .settled ∨ x.ended = true
  | _ => True

instance (t : WireKeys) : ∀ a, Decidable (Patient t a)
  | .subscribe => inferInstanceAs (Decidable (_ < _))
  | .dropsSubscribe k => inferInstanceAs (Decidable (∀ x ∈ t.subscribers[k]?, x.ended = true))
  | .dropsPublish k => inferInstanceAs (Decidable (∀ x ∈ t.awaiters[k]?, x.ended = true))
  | .drops k => inferInstanceAs (Decidable (∀ x ∈ t.awaiters[k]?, x.stage = .settled ∨ x.ended = true))
  | .othersMint | .opened .. | .closes _ | .publish _ | .answer .. | .handed .. | .ok _ | .takes _
  | .releases _ | .abandons | .endsSubscriptions | .endsAcknowledgements => .isTrue trivial

/-- The keys are told apart, and the next ones are new. -/
structure Distinct (t : WireKeys) : Prop where
  ids : (t.subscribers.map Subscriber.id).Nodup
  minted : ∀ x ∈ t.subscribers, x.id < t.minted
  mailboxes : (t.awaiters.map Awaiter.mailbox).Nodup
  numbered : ∀ x ∈ t.awaiters, x.mailbox < t.mailboxes

theorem opened_exact : Exact opened where
  subscriptions := by simp [opened]
  acknowledgements := by simp [opened]
  once := by simp [opened]

theorem opened_distinct : Distinct opened where
  ids := .nil
  minted := by simp [opened]
  mailboxes := .nil
  numbered := by simp [opened]

variable {k : Nat} {x : Subscriber} {y : Awaiter} {event : EventId} {mailbox : Nat}

theorem Distinct.subscriber {stage : Subscribing} (distinct : Distinct t)
    (found : t.subscribers[k]? = some x) {subscriptions : Nat → Option Nat} :
    Distinct { t with subscriptions, subscribers := t.setSubscriber k x stage } := by
  refine ⟨?_, fun z member => ?_, distinct.mailboxes, distinct.numbered⟩
  · rw [setSubscriber, map_set_same (f := Subscriber.id) (y := { x with stage }) found rfl]
    exact distinct.ids
  · obtain old | rfl := List.mem_or_eq_of_mem_set member
    · exact distinct.minted z old
    · exact distinct.minted x (List.mem_of_getElem? found)

theorem Distinct.awaiter {stage : Awaiting} (distinct : Distinct t)
    (found : t.awaiters[k]? = some y) {acknowledgements : EventId → Option (List Nat)} :
    Distinct { t with acknowledgements, awaiters := t.setAwaiter k y stage } := by
  refine ⟨distinct.ids, distinct.minted, ?_, fun z member => ?_⟩
  · rw [setAwaiter, map_set_same (f := Awaiter.mailbox) (y := { y with stage }) found rfl]
    exact distinct.mailboxes
  · obtain old | rfl := List.mem_or_eq_of_mem_set member
    · exact distinct.numbered z old
    · exact distinct.numbered y (List.mem_of_getElem? found)

theorem Distinct.subscriberKeys (distinct : Distinct t) : (t.subscribers.map Subscriber.key).Nodup :=
  List.Nodup.of_map Prod.fst (by simpa [Function.comp_def, Subscriber.key] using distinct.ids)

theorem Distinct.awaiterKeys (distinct : Distinct t) : (t.awaiters.map Awaiter.key).Nodup :=
  List.Nodup.of_map Prod.snd (by simpa [Function.comp_def, Awaiter.key] using distinct.mailboxes)

/-- A call or a handle goes on, or dies once its connection has. -/
theorem Exact.subscriber {stage : Subscribing} (exact : Exact t) (found : t.subscribers[k]? = some x)
    (lives : ({ x with stage } : Subscriber).live = x.live) :
    Exact { t with subscribers := t.setSubscriber k x stage } where
  subscriptions id mailbox := by
    rw [exact.subscriptions id mailbox]
    exact (claimed_set_same Subscriber.key (y := { x with stage }) found rfl lives).symm
  acknowledgements := exact.acknowledgements
  once := exact.once

theorem Exact.released {stage : Subscribing} (exact : Exact t) (distinct : Distinct t)
    (found : t.subscribers[k]? = some x) (dead : ({ x with stage } : Subscriber).live = false) :
    Exact { t with
      subscriptions := t.releaseSubscription x.id
      subscribers := t.setSubscriber k x stage } where
  subscriptions id mailbox := by
    have claims := claimed_set_dead (q := (id, mailbox)) distinct.subscriberKeys found dead
    refine Iff.trans ?_ claims.symm
    rw [releaseSubscription]
    by_cases own : id = x.id
    · subst own
      simp only [Function.update_self]
      refine ⟨nofun, ?_⟩
      rintro ⟨⟨z, member, key, -⟩, other⟩
      have same : z = x := List.inj_on_of_nodup_map distinct.ids member (List.mem_of_getElem? found)
        (congrArg Prod.fst key)
      rw [same] at key
      exact absurd key.symm other
    · simp only [Function.update_of_ne own]
      rw [exact.subscriptions id mailbox]
      exact ⟨fun claimed => ⟨claimed, fun key => own (congrArg Prod.fst key)⟩, And.left⟩
  acknowledgements := exact.acknowledgements
  once := exact.once

theorem Exact.awaiter {stage : Awaiting} (exact : Exact t) (found : t.awaiters[k]? = some y)
    (lives : ({ y with stage } : Awaiter).live = y.live) :
    Exact { t with awaiters := t.setAwaiter k y stage } where
  subscriptions := exact.subscriptions
  acknowledgements event mailbox := by
    rw [exact.acknowledgements event mailbox]
    exact (claimed_set_same Awaiter.key (y := { y with stage }) found rfl lives).symm
  once := exact.once

/-- What a release leaves under each event. -/
theorem released_at (t : WireKeys) (event : EventId) (mailbox : Nat) (other : EventId) :
    t.releaseAcknowledgement event mailbox other = t.acknowledgements other ∧
      (other = event → t.acknowledgements event = none) ∨
    other = event ∧ ∃ waiting, t.acknowledgements event = some waiting ∧
      t.releaseAcknowledgement event mailbox other =
        if (waiting.filter (· ≠ mailbox)).isEmpty then none else some (waiting.filter (· ≠ mailbox)) := by
  cases held : t.acknowledgements event with
  | none =>
    refine .inl ⟨?_, fun _ => rfl⟩
    simp only [releaseAcknowledgement, held]
  | some waiting =>
    simp only [releaseAcknowledgement, held]
    by_cases own : other = event
    · subst own
      exact .inr ⟨rfl, waiting, rfl, Function.update_self ..⟩
    · exact .inl ⟨Function.update_of_ne own .., fun same => absurd same own⟩

theorem mem_released (other : EventId) (waits : Nat) :
    waits ∈ (t.releaseAcknowledgement event mailbox other).getD [] ↔
      waits ∈ (t.acknowledgements other).getD [] ∧ (other, waits) ≠ (event, mailbox) := by
  obtain ⟨same, apart⟩ | ⟨rfl, waiting, held, left⟩ :=
    released_at t event mailbox other
  · rw [same]
    refine ⟨fun member => ⟨member, fun key => ?_⟩, And.left⟩
    have own : other = event := congrArg Prod.fst key
    rw [own, apart own] at member
    cases member
  · rw [left, held]
    split
    · rename_i none
      have all := List.isEmpty_iff.mp none
      simp only [List.filter_eq_nil_iff] at all
      simpa using all waits
    · simp

theorem Exact.settled {stage : Awaiting} (exact : Exact t) (distinct : Distinct t)
    (found : t.awaiters[k]? = some y) (dead : ({ y with stage } : Awaiter).live = false) :
    Exact { t with
      acknowledgements := t.releaseAcknowledgement y.event y.mailbox
      awaiters := t.setAwaiter k y stage } where
  subscriptions := exact.subscriptions
  acknowledgements event mailbox := by
    have claims := claimed_set_dead (q := (event, mailbox)) distinct.awaiterKeys found dead
    refine Iff.trans ?_ claims.symm
    rw [mem_released, exact.acknowledgements event mailbox]
    rfl
  once event waiting held := by
    obtain ⟨same, -⟩ | ⟨-, before, old, left⟩ :=
      released_at t y.event y.mailbox event
    · exact exact.once event waiting (same ▸ held)
    · rw [show t.releaseAcknowledgement y.event y.mailbox event = some waiting from held] at left
      split at left <;> cases left
      rename_i some
      exact ⟨fun none => some (List.isEmpty_iff.mpr none), (exact.once _ before old).2.filter _⟩

theorem awaits_exact (exact : Exact t) (distinct : Distinct t) (event : EventId) :
    Exact (t.awaits event) where
  subscriptions := exact.subscriptions
  acknowledgements other mailbox := by
    refine Iff.trans ?_ claimed_append.symm
    rw [← show _ ↔ Claimed Awaiter.key Awaiter.live t.awaiters (other, mailbox) from
      exact.acknowledgements other mailbox]
    simp only [awaits, awaitAcknowledgement, Awaiter.key, Awaiter.live, Prod.mk.injEq]
    by_cases own : other = event
    · subst own
      simp [eq_comm]
    · simp [own, Ne.symm own]
  once other waiting held := by
    simp only [awaits, awaitAcknowledgement] at held
    by_cases own : other = event
    · subst own
      rw [Function.update_self, Option.some.injEq] at held
      subst held
      refine ⟨by simp, ?_⟩
      have fresh : t.mailboxes ∉ (t.acknowledgements other).getD [] := by
        intro member
        obtain ⟨y, registered, key, -⟩ := (exact.acknowledgements other t.mailboxes).mp member
        have numbered := distinct.numbered y registered
        rw [show y.mailbox = t.mailboxes from congrArg Prod.snd key] at numbered
        exact Nat.lt_irrefl _ numbered
      refine List.nodup_append.mpr ⟨?_, List.nodup_singleton _, fun m member n new same => ?_⟩
      · cases before : t.acknowledgements other with
        | none => exact .nil
        | some waiting => exact (exact.once other waiting before).2
      · rw [same, List.mem_singleton.mp new] at member
        exact fresh member
    · rw [Function.update_of_ne own] at held
      exact exact.once other waiting held

theorem awaits_distinct (distinct : Distinct t) (event : EventId) : Distinct (t.awaits event) where
  ids := distinct.ids
  minted := distinct.minted
  mailboxes := by
    rw [awaits, List.map_append, List.nodup_append]
    refine ⟨distinct.mailboxes, List.nodup_singleton _, ?_⟩
    simp only [List.mem_map, List.map_cons, List.map_nil, List.mem_singleton]
    rintro _ ⟨y, member, rfl⟩ _ rfl
    exact Nat.ne_of_lt (distinct.numbered y member)
  numbered y member := by
    obtain old | new := List.mem_append.mp member
    · exact Nat.lt_succ_of_lt (distinct.numbered y old)
    · rw [List.mem_singleton.mp new]
      exact Nat.lt_succ_self _

theorem subscribe_exact (exact : Exact t) (distinct : Distinct t) (fits : t.minted < 2 ^ 64)
    (stepped : step t .subscribe = some u) : Exact u ∧ Distinct u := by
  simp only [step, Nat.mod_eq_of_lt fits, Option.some.injEq] at stepped
  subst stepped
  refine ⟨⟨fun id mailbox => ?_, exact.acknowledgements, exact.once⟩, ?_, fun x member => ?_,
    distinct.mailboxes, fun y member => Nat.lt_succ_of_lt (distinct.numbered y member)⟩
  · refine Iff.trans ?_ claimed_append.symm
    by_cases own : id = t.minted
    · subst own
      simp only [Function.update_self]
      have fresh : ¬ Claimed Subscriber.key Subscriber.live t.subscribers (t.minted, mailbox) := by
        rintro ⟨x, member, key, -⟩
        have minted := distinct.minted x member
        rw [show x.id = t.minted from congrArg Prod.fst key] at minted
        exact Nat.lt_irrefl _ minted
      simp [fresh, Subscriber.key, Subscriber.live]
    · simp only [Function.update_of_ne own]
      rw [exact.subscriptions id mailbox]
      exact ⟨.inl, fun claims => claims.elim (fun old => old) fun new =>
        absurd (congrArg Prod.fst new.1).symm own⟩
  · rw [List.map_append, List.nodup_append]
    refine ⟨distinct.ids, List.nodup_singleton _, ?_⟩
    simp only [List.mem_map, List.map_cons, List.map_nil, List.mem_singleton]
    rintro _ ⟨x, member, rfl⟩ _ rfl
    exact Nat.ne_of_lt (distinct.minted x member)
  · obtain old | new := List.mem_append.mp member
    · exact Nat.lt_succ_of_lt (distinct.minted x old)
    · rw [List.mem_singleton.mp new]
      exact Nat.lt_succ_self _

theorem Distinct.keep (distinct : Distinct t) (subscriptions : Nat → Option Nat)
    (acknowledgements : EventId → Option (List Nat)) {f : Subscriber → Subscriber}
    {g : Awaiter → Awaiter} (ids : ∀ x, (f x).id = x.id) (mailboxes : ∀ y, (g y).mailbox = y.mailbox) :
    Distinct { t with
      subscriptions
      acknowledgements
      subscribers := t.subscribers.map f
      awaiters := t.awaiters.map g } := by
  refine ⟨?_, ?_, ?_, ?_⟩
  · simpa only [List.map_map, Function.comp_def, ids] using distinct.ids
  · simpa only [List.mem_map, forall_exists_index, and_imp, forall_apply_eq_imp_iff₂, ids] using
      distinct.minted
  · simpa only [List.map_map, Function.comp_def, mailboxes] using distinct.mailboxes
  · simpa only [List.mem_map, forall_exists_index, and_imp, forall_apply_eq_imp_iff₂, mailboxes] using
      distinct.numbered

theorem live_ended (x : Subscriber) : ({ x with ended := true } : Subscriber).live = false := by
  simp [Subscriber.live]

theorem live_over (y : Awaiter) : ({ y with ended := true } : Awaiter).live = false := by
  simp [Awaiter.live]

/-- Dropping what its connection has ended takes nothing away. -/
theorem ended_lives {stage : Subscribing} (ended : x.ended = true) :
    ({ x with stage } : Subscriber).live = x.live := by
  simp [Subscriber.live, ended]

theorem over_lives {stage : Awaiting} (ended : y.ended = true) :
    ({ y with stage } : Awaiter).live = y.live := by
  simp [Awaiter.live, ended]

theorem step_exact {a : Action} (exact : Exact t) (distinct : Distinct t) (patient : Patient t a)
    (stepped : step t a = some u) : Exact u ∧ Distinct u := by
  cases a with
  | subscribe => exact subscribe_exact exact distinct patient stepped
  | othersMint =>
    cases stepped
    exact ⟨⟨exact.subscriptions, exact.acknowledgements, exact.once⟩, distinct.ids,
      fun x member => Nat.lt_succ_of_lt (distinct.minted x member), distinct.mailboxes,
      distinct.numbered⟩
  | opened k handedOff =>
    simp only [step, Option.bind_eq_bind, Option.bind_eq_some_iff] at stepped
    obtain ⟨x, found, stepped⟩ := stepped
    split at stepped <;> cases stepped
    · rename_i opening
      exact ⟨exact.subscriber found (by simp [Subscriber.live, opening]), distinct.subscriber found⟩
    · exact ⟨exact.released distinct found (by simp [Subscriber.live]), distinct.subscriber found⟩
  | dropsSubscribe k =>
    simp only [step, Option.bind_eq_bind, Option.bind_eq_some_iff] at stepped
    obtain ⟨x, found, stepped⟩ := stepped
    split at stepped <;> cases stepped
    exact ⟨exact.subscriber found (ended_lives (patient x found)), distinct.subscriber found⟩
  | closes k =>
    simp only [step, Option.bind_eq_bind, Option.bind_eq_some_iff] at stepped
    obtain ⟨x, found, stepped⟩ := stepped
    split at stepped <;> cases stepped
    exact ⟨exact.released distinct found (by simp [Subscriber.live]), distinct.subscriber found⟩
  | publish event =>
    cases stepped
    exact ⟨awaits_exact exact distinct event, awaits_distinct distinct event⟩
  | answer event takenUp =>
    cases takenUp <;> cases stepped
    · exact ⟨exact, distinct⟩
    · exact ⟨awaits_exact exact distinct event, awaits_distinct distinct event⟩
  | handed k handedOff =>
    simp only [step, Option.bind_eq_bind, Option.bind_eq_some_iff] at stepped
    obtain ⟨y, found, stepped⟩ := stepped
    split at stepped <;> cases stepped
    · rename_i handing
      exact ⟨exact.awaiter found (by simp [Awaiter.live, handing]), distinct.awaiter found⟩
    · exact ⟨exact.settled distinct found (by simp [Awaiter.live]), distinct.awaiter found⟩
  | dropsPublish k =>
    simp only [step, Option.bind_eq_bind, Option.bind_eq_some_iff] at stepped
    obtain ⟨y, found, stepped⟩ := stepped
    split at stepped <;> cases stepped
    exact ⟨exact.awaiter found (over_lives (patient y found)), distinct.awaiter found⟩
  | ok event =>
    cases stepped
    refine ⟨⟨exact.subscriptions, fun other mailbox => ?_, exact.once⟩, ?_⟩
    · rw [exact.acknowledgements other mailbox]
      refine (claimed_map_same Awaiter.key (fun y => ?_) fun y => ?_).symm <;>
        split <;> rfl
    · have kept := distinct.keep t.subscriptions t.acknowledgements (f := id) (g := fun y =>
          if y.mailbox ∈ (t.acknowledgements event).getD [] then { y with filled := true } else y)
        (fun _ => rfl) fun y => by split <;> rfl
      simpa using kept
  | takes k =>
    simp only [step, Option.bind_eq_bind, Option.bind_eq_some_iff] at stepped
    obtain ⟨y, found, stepped⟩ := stepped
    split at stepped
    · rename_i held
      split at stepped <;> cases stepped
      exact ⟨exact.awaiter found (by simp [Awaiter.live, held]), distinct.awaiter found⟩
    · cases stepped
  | releases k =>
    simp only [step, Option.bind_eq_bind, Option.bind_eq_some_iff] at stepped
    obtain ⟨y, found, stepped⟩ := stepped
    split at stepped <;> cases stepped
    exact ⟨exact.settled distinct found (by simp [Awaiter.live]), distinct.awaiter found⟩
  | abandons =>
    cases stepped
    exact ⟨exact, distinct⟩
  | drops k =>
    simp only [step, Option.bind_eq_bind, Option.bind_eq_some_iff] at stepped
    obtain ⟨y, found, stepped⟩ := stepped
    have quiet : ({ y with stage := .gone } : Awaiter).live = y.live := by
      obtain settled | ended := patient y found
      · simp [Awaiter.live, settled]
      · exact over_lives ended
    split at stepped <;> cases stepped <;>
      exact ⟨exact.awaiter found quiet, distinct.awaiter found⟩
  | endsSubscriptions =>
    cases stepped
    refine ⟨⟨fun id mailbox => ?_, exact.acknowledgements, exact.once⟩, ?_⟩
    · exact ⟨nofun, fun claimed => absurd claimed (claimed_map_dead live_ended)⟩
    · have kept := distinct.keep (fun _ => none) t.acknowledgements (f := fun x => { x with ended := true })
        (g := id) (fun _ => rfl) fun _ => rfl
      simpa using kept
  | endsAcknowledgements =>
    cases stepped
    refine ⟨⟨exact.subscriptions, fun event mailbox => ?_, nofun⟩, ?_⟩
    · exact ⟨nofun, fun claimed => absurd claimed (claimed_map_dead live_over)⟩
    · have kept := distinct.keep t.subscriptions (fun _ => none) (f := id)
        (g := fun y => { y with ended := true }) (fun _ => rfl) fun _ => rfl
      simpa using kept

/-- Along every run in which nobody gives up on a connection that is still there,
the tables hold what the live handles need and nothing else. -/
theorem wire_keys_exact {as : List Action} (run : Run step Patient opened as t) : Exact t :=
  (run.invariant (fun t => Exact t ∧ Distinct t) ⟨opened_exact, opened_distinct⟩
    fun _ _ _ kept patient stepped => step_exact kept.1 kept.2 patient stepped).1

def published (event : EventId) : List Action := [.publish event, .handed 0 true]

/-- A publication settles and a subscription waits. -/
theorem wire_keys_exact_of_settled :
    ∃ as t, Run step Patient opened as t ∧ t.acknowledgements 5 = none ∧
      t.subscriptions 0 = some 1 ∧ Exact t := by
  have run : Run step Patient opened
      (published 5 ++ [.subscribe, .opened 0 true, .ok 5, .takes 0, .releases 0, .drops 0]) _ :=
    Run.of_exec rfl
  exact ⟨_, _, run, rfl, rfl, wire_keys_exact run⟩

/-- A publication gives up waiting: its mailbox stays in the table. -/
theorem wire_key_leaks :
    ∃ as t, Run step Free opened as t ∧ ¬ Exact t := by
  have run : Run step Free opened (published 5 ++ [.drops 0]) _ := Run.of_exec rfl
  refine ⟨_, _, run, fun exact => ?_⟩
  obtain ⟨y, member, -, lives⟩ := (exact.acknowledgements 5 0).mp (by decide)
  rw [List.mem_singleton.mp member] at lives
  cases lives

end WireKeys

end Fava.Transport
