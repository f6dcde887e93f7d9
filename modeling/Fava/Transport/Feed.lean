import Mathlib.Algebra.GroupWithZero.Nat
import Fava.Lib.Run
import Fava.Transport.Mailbox

namespace Fava.Transport

open Fava.Lib Fava.Nostr Fava.Relay

/-- The relay messages that name a subscription; the last are `COUNT` and the
negentropy messages, with their `Debug` text. -/
inductive RelayMessage
  | event (event : Event)
  | endOfStoredEvents
  | closed (message : String)
  | unsupported (debug : String)
deriving DecidableEq

def subscriptionItem : RelayMessage → SubscriptionItem
  | .event event => .event event
  | .endOfStoredEvents => .endOfStoredEvents
  | .closed message => .closed (BoundedText.new message)
  | .unsupported debug => .closed (BoundedText.new s!"unsupported relay message: {debug}")

/-- One subscription handle between calls, with what was offered to its mailbox
by `deliver`, what `next` returned, and the reason its connection ended for. -/
structure Feed where
  id : String
  registered : Bool
  mailbox : Mailbox SubscriptionItem
  offered : List SubscriptionItem
  returned : List SubscriptionItem
  ending : Option SessionEnded
deriving DecidableEq

namespace Feed

variable {f g : Feed}

/-- `RelaySessionExt::subscribe`, once the frame is handed off. -/
def subscribed (id : String) (capacity : Nat) : Feed :=
  ⟨id, true, Mailbox.new capacity, [], [], none⟩

inductive Call
  | deliver (id : String) (message : RelayMessage)
  | endConnection (ended : SessionEnded)
  | next

/-- What `next` returns, or nothing while it has to wait. -/
def nextItem (m : Mailbox SubscriptionItem) : Option (SubscriptionItem × Mailbox SubscriptionItem) :=
  match m.take with
  | (some item, m) => some (item, m)
  | (none, m) =>
    match m.takeDropped with
    | (0, m) =>
      if m.closed then some (.ended (.disconnected (BoundedText.new "session closed")), m) else none
    | (n + 1, m) => some (.lost (n + 1), m)

/-- One whole call. A message for another subscription, and any once the
connection has ended, reaches no mailbox; a `next` that waits returns later. -/
def step (f : Feed) : Call → Option Feed
  | .deliver id message =>
    if f.registered ∧ id = f.id then some { f with
      mailbox := f.mailbox.offer (subscriptionItem message)
      offered := f.offered ++ [subscriptionItem message] }
    else some f
  | .endConnection ended =>
    if f.registered then some { f with
      registered := false
      mailbox := (f.mailbox.offer (.ended ended)).close
      ending := some ended }
    else some f
  | .next => (nextItem f.mailbox).map fun (item, mailbox) => { f with
      mailbox
      returned := f.returned ++ [item] }

/-- `Event`, `EndOfStoredEvents` and `Closed`. -/
def data : SubscriptionItem → Bool
  | .event _ | .endOfStoredEvents | .closed _ => true
  | .lost _ | .ended _ => false

def lost (items : List SubscriptionItem) : Nat :=
  (items.map fun item => match item with
    | .lost dropped => dropped
    | _ => 0).sum

def endings (items : List SubscriptionItem) : List SessionEnded :=
  items.filterMap fun item => match item with
    | .ended reason => some reason
    | _ => none

/-- What comes out of the mailbox is what went in, in its order, with its losses
counted; and the ending says why the connection ended. -/
structure Honest (f : Feed) : Prop where
  order : (f.returned.filter data).Sublist f.offered
  conserved : (f.returned.filter data).length + lost f.returned +
    ((f.mailbox.items.filter data).length + f.mailbox.dropped) = f.offered.length
  bounded : f.mailbox.items.length ≤ f.mailbox.capacity
  reason : ∀ ended, (endings f.returned).head? = some ended → f.ending = some ended

/-- The connection ends while the mailbox has room for the ending, and the count
of losses not yet reported does not wrap. -/
def Roomy (f : Feed) : Call → Prop
  | .deliver id _ =>
    f.registered = true ∧ id = f.id ∧ f.mailbox.full = true → f.mailbox.dropped + 1 < 2 ^ 64
  | .endConnection _ => f.registered = true → f.mailbox.full = false
  | .next => True

instance (f : Feed) : ∀ c, Decidable (Roomy f c)
  | .deliver .. => inferInstanceAs (Decidable (_ ∧ _ ∧ _ → _))
  | .endConnection _ => inferInstanceAs (Decidable (_ → _))
  | .next => .isTrue trivial

/-- What is queued is still to come after what was returned. -/
def coming (f : Feed) : List SubscriptionItem := f.returned ++ f.mailbox.items

structure Kept (f : Feed) : Prop where
  order : ((coming f).filter data).Sublist f.offered
  conserved : ((coming f).filter data).length + lost (coming f) + f.mailbox.dropped =
    f.offered.length
  queued : lost f.mailbox.items = 0
  bounded : f.mailbox.items.length ≤ f.mailbox.capacity
  live : f.registered = true → f.mailbox.closed = false ∧ f.ending = none
  gone : f.registered = false → f.mailbox.closed = true ∧ f.ending.isSome
  reason : (endings (coming f)).head? = f.ending

@[simp] theorem lost_append (items more : List SubscriptionItem) :
    lost (items ++ more) = lost items + lost more := by
  simp [lost]

@[simp] theorem endings_append (items more : List SubscriptionItem) :
    endings (items ++ more) = endings items ++ endings more := by
  simp [endings]

@[simp] theorem subscriptionItem_data (message : RelayMessage) :
    data (subscriptionItem message) = true := by
  cases message <;> rfl

@[simp] theorem lost_data {item : SubscriptionItem} (carried : data item = true) :
    lost [item] = 0 := by
  cases item <;> first | rfl | cases carried

@[simp] theorem endings_data {item : SubscriptionItem} (carried : data item = true) :
    endings [item] = [] := by
  cases item <;> first | rfl | cases carried

theorem Kept.honest (kept : Kept f) : Honest f where
  order := by
    have order := kept.order
    rw [coming, List.filter_append] at order
    exact (List.sublist_append_left _ _).trans order
  conserved := by
    have conserved := kept.conserved
    simp only [coming, List.filter_append, List.length_append, lost_append, kept.queued] at conserved
    omega
  bounded := kept.bounded
  reason ended first := by
    rw [← kept.reason, coming, endings_append, List.head?_append, first, Option.some_or]

theorem subscribed_kept (id : String) (capacity : Nat) : Kept (subscribed id capacity) where
  order := .refl _
  conserved := rfl
  queued := rfl
  bounded := Nat.zero_le _
  live _ := ⟨rfl, rfl⟩
  gone := nofun
  reason := rfl

theorem deliver_kept {id : String} {message : RelayMessage} (kept : Kept f)
    (roomy : Roomy f (.deliver id message)) (stepped : step f (.deliver id message) = some g) :
    Kept g := by
  simp only [step] at stepped
  split at stepped <;> cases stepped
  · rename_i known
    obtain ⟨registered, own⟩ := known
    obtain ⟨here, unended⟩ := kept.live registered
    have carried := subscriptionItem_data message
    cases full : f.mailbox.full with
    | true =>
      have wraps : (f.mailbox.dropped + 1) % 2 ^ 64 = f.mailbox.dropped + 1 :=
        Nat.mod_eq_of_lt (roomy ⟨registered, own, full⟩)
      have offered : f.mailbox.offer (subscriptionItem message) =
          { f.mailbox with dropped := f.mailbox.dropped + 1 } := by
        simp only [Mailbox.offer, here, Mailbox.push, full, wraps, if_true, Bool.false_eq_true,
          if_false]
      rw [offered]
      refine ⟨kept.order.trans (List.sublist_append_left _ _), ?_, kept.queued, kept.bounded,
        fun _ => ⟨here, unended⟩, fun gone => by simp [registered] at gone, kept.reason⟩
      have conserved := kept.conserved
      simp only [coming, List.length_append, List.length_singleton] at conserved ⊢
      omega
    | false =>
      have offered : f.mailbox.offer (subscriptionItem message) =
          { f.mailbox with items := f.mailbox.items ++ [subscriptionItem message] } := by
        simp [Mailbox.offer, here, Mailbox.push, full]
      have room : f.mailbox.items.length < f.mailbox.capacity := by
        simpa [Mailbox.full] using full
      have more : coming { f with
          mailbox := { f.mailbox with items := f.mailbox.items ++ [subscriptionItem message] }
          offered := f.offered ++ [subscriptionItem message] } =
          coming f ++ [subscriptionItem message] := by
        simp [coming]
      rw [offered]
      refine ⟨?_, ?_, ?_, ?_, fun _ => ⟨here, unended⟩, fun gone => by simp [registered] at gone, ?_⟩
      · rw [more, List.filter_append, List.filter_cons_of_pos carried, List.filter_nil]
        exact kept.order.append (.refl _)
      · have conserved := kept.conserved
        rw [more, List.filter_append, List.filter_cons_of_pos carried, List.filter_nil, lost_append,
          lost_data carried]
        simp only [List.length_append, List.length_singleton]
        omega
      · rw [lost_append, lost_data carried, kept.queued]
      · simpa using Nat.succ_le_of_lt room
      · rw [more, endings_append, endings_data carried, List.append_nil]
        exact kept.reason
  · exact kept

theorem endConnection_kept {ended : SessionEnded} (kept : Kept f)
    (roomy : Roomy f (.endConnection ended)) (stepped : step f (.endConnection ended) = some g) :
    Kept g := by
  simp only [step] at stepped
  split at stepped <;> cases stepped
  · rename_i registered
    obtain ⟨here, unended⟩ := kept.live registered
    have full := roomy registered
    have offered : (f.mailbox.offer (.ended ended)).close =
        { f.mailbox with items := f.mailbox.items ++ [.ended ended], closed := true } := by
      simp [Mailbox.offer, here, Mailbox.push, full, Mailbox.close]
    have room : f.mailbox.items.length < f.mailbox.capacity := by
      simpa [Mailbox.full] using full
    have more : coming { f with
        registered := false
        mailbox := { f.mailbox with items := f.mailbox.items ++ [.ended ended], closed := true }
        ending := some ended } = coming f ++ [.ended ended] := by
      simp [coming]
    rw [offered]
    refine ⟨?_, ?_, ?_, ?_, nofun, fun _ => ⟨rfl, rfl⟩, ?_⟩
    · rw [more, List.filter_append]
      simpa [data] using kept.order
    · have conserved := kept.conserved
      rw [more, List.filter_append, lost_append]
      simpa [data, lost] using conserved
    · rw [lost_append, kept.queued]
      rfl
    · simpa using Nat.succ_le_of_lt room
    · rw [more, endings_append, List.head?_append, kept.reason, unended]
      rfl
  · exact kept

/-- What `next` returns was first in the queue, or reports every loss, or the end
of a connection whose ending was returned before. -/
theorem nextItem_cases {m n : Mailbox SubscriptionItem} {item : SubscriptionItem}
    (returned : nextItem m = some (item, n)) :
    m.items = item :: n.items ∧ n = { m with items := n.items } ∨
    m.items = [] ∧ item = .lost m.dropped ∧ n = { m with dropped := 0 } ∨
    m.items = [] ∧ m.closed = true ∧ n = m ∧ m.dropped = 0 ∧
      item = .ended (.disconnected (BoundedText.new "session closed")) := by
  cases m with
  | mk capacity items dropped closed =>
    cases items with
    | cons first rest =>
      simp only [nextItem, Mailbox.take, Option.some.injEq, Prod.mk.injEq] at returned
      obtain ⟨rfl, rfl⟩ := returned
      exact .inl ⟨rfl, rfl⟩
    | nil =>
      cases dropped with
      | zero =>
        simp only [nextItem, Mailbox.take, Mailbox.takeDropped, Option.ite_none_right_eq_some,
          Option.some.injEq, Prod.mk.injEq] at returned
        obtain ⟨closed, rfl, rfl⟩ := returned
        exact .inr (.inr ⟨rfl, closed, rfl, rfl, rfl⟩)
      | succ count =>
        simp only [nextItem, Mailbox.take, Mailbox.takeDropped, Option.some.injEq,
          Prod.mk.injEq] at returned
        obtain ⟨rfl, rfl⟩ := returned
        exact .inr (.inl ⟨rfl, rfl, rfl⟩)

theorem next_kept (kept : Kept f) (stepped : step f .next = some g) : Kept g := by
  simp only [step, Option.map_eq_some_iff] at stepped
  obtain ⟨⟨item, mailbox⟩, returned, rfl⟩ := stepped
  obtain ⟨queue, rest⟩ | ⟨queue, rfl, rest⟩ | ⟨queue, closed, rfl, reported, rfl⟩ :=
    nextItem_cases returned
  · -- the item moves from the front of the queue to the end of what was returned
    have same : coming { f with mailbox, returned := f.returned ++ [item] } = coming f := by
      simp [coming, queue]
    rw [rest] at same ⊢
    have queued := kept.queued
    rw [queue, ← List.singleton_append, lost_append] at queued
    have left : lost mailbox.items = 0 := by omega
    refine ⟨same ▸ kept.order, same ▸ kept.conserved, left, ?_, kept.live, kept.gone,
      same ▸ kept.reason⟩
    have bounded := kept.bounded
    rw [queue, List.length_cons] at bounded
    exact Nat.le_of_succ_le bounded
  · have more : coming { f with mailbox, returned := f.returned ++ [.lost f.mailbox.dropped] } =
        coming f ++ [.lost f.mailbox.dropped] := by
      simp [coming, queue, rest]
    rw [rest] at more ⊢
    have conserved := kept.conserved
    refine ⟨?_, ?_, kept.queued, kept.bounded, kept.live, kept.gone, ?_⟩
    · rw [more, List.filter_append]
      simpa [data] using kept.order
    · rw [more, List.filter_append, lost_append]
      simpa [data, lost, Nat.add_assoc] using conserved
    · rw [more, endings_append]
      simpa [endings] using kept.reason
  · have more : coming { f with
        returned := f.returned ++ [.ended (.disconnected (BoundedText.new "session closed"))] } =
        coming f ++ [.ended (.disconnected (BoundedText.new "session closed"))] := by
      simp [coming, queue]
    have conserved := kept.conserved
    refine ⟨?_, ?_, kept.queued, kept.bounded, kept.live, kept.gone, ?_⟩
    · rw [more, List.filter_append]
      simpa [data] using kept.order
    · rw [more, List.filter_append, lost_append]
      simpa [data, lost] using conserved
    · -- the connection has ended, and its own ending came first
      rw [more, endings_append, List.head?_append, kept.reason]
      cases registered : f.registered with
      | true => simp [(kept.live registered).1] at closed
      | false =>
        obtain ⟨reason, ended⟩ := Option.isSome_iff_exists.mp (kept.gone registered).2
        rw [ended, Option.some_or]

/-- Over every sequence of calls on a handle whose connection ends while there is
room to say so, nothing is lost uncounted and the ending is the one that was
given. -/
theorem feed_honest {id : String} {capacity : Nat} {calls : List Call}
    (run : Run step Roomy (subscribed id capacity) calls f) : Honest f :=
  (run.invariant Kept (subscribed_kept id capacity) fun f c g kept roomy stepped => by
    cases c with
    | deliver id message => exact deliver_kept kept roomy stepped
    | endConnection ended => exact endConnection_kept kept roomy stepped
    | next => exact next_kept kept stepped).honest

def exhaustion : SessionEnded := .reconnectExhausted 3 (BoundedText.new "refused")

theorem feed_honest_of_room :
    ∃ calls f, Run step Roomy (subscribed "s" 1) calls f ∧
      f.returned = [.endOfStoredEvents, .ended exhaustion, .lost 1] ∧ Honest f := by
  have run : Run step Roomy (subscribed "s" 1)
      [.deliver "s" .endOfStoredEvents, .deliver "s" (.closed "late"), .next,
        .endConnection exhaustion, .next, .next] _ := Run.of_exec rfl
  exact ⟨_, _, run, by decide, feed_honest run⟩

/-- The queue is full when the reconnect budget is spent: the ending is dropped,
and `next` makes up a plain disconnection. -/
theorem feed_dishonest :
    ∃ calls f, Run step Free (subscribed "s" 1) calls f ∧ ¬ Honest f := by
  have run : Run step Free (subscribed "s" 1)
      [.deliver "s" .endOfStoredEvents, .endConnection exhaustion, .next, .next, .next] _ :=
    Run.of_exec rfl
  refine ⟨_, _, run, fun honest => ?_⟩
  have told := honest.reason (.disconnected (BoundedText.new "session closed")) rfl
  exact absurd told (by decide)

end Feed

end Fava.Transport
