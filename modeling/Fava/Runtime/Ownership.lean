import Mathlib.Data.List.Nodup
import Mathlib.Logic.Relation
import Fava.Runtime.Cancellation

namespace Fava.Runtime

open Fava.Lib

/-- The stage has fired the node, and not taken its children yet. -/
def Cancelling.fired : Cancelling → Option Nat
  | .notifying node | .taking node => some node
  | .swapping _ | .upgrading .. | .popping => none

def Operation.isWaiting : Operation → Bool
  | .cancelled .. => true
  | .child .. | .cancel .. => false

namespace Tokens

/-- A node is alive as long as something owns it: a handle, a call in progress, or a child
that is alive. -/
inductive Alive (s : Tokens) : Nat → Prop
  | held {node : Nat} (held : s.isHeld node = true) : Alive s node
  | child {node child : Nat} (parent : (s.nodes child).parent = some node) (alive : Alive s child) :
      Alive s node

/-- The first node is the second or one that it was derived from. -/
def Above (s : Tokens) : Nat → Nat → Prop :=
  Relation.ReflTransGen fun parent child => (s.nodes child).parent = some parent

/-- What one call does next, said once for all that follows. -/
inductive Advanced (s : Tokens) : Operation → Tokens → Option Operation → Prop
  | checkedFired {parent made : Nat} (fired : s.isCancelled parent = true) :
      Advanced s (.child parent made .checking) s (some (.child parent made .storing))
  | checked {parent made : Nat} (unfired : s.isCancelled parent = false) :
      Advanced s (.child parent made .checking) s (some (.child parent made .pushing))
  | stored {parent made : Nat} :
      Advanced s (.child parent made .storing) ((s.store made).give made) none
  | pushed {parent made : Nat} : Advanced s (.child parent made .pushing) (s.push parent made)
      (some (.child parent made .rechecking))
  | recheckedFired {parent made : Nat} (fired : s.isCancelled parent = true) :
      Advanced s (.child parent made .rechecking) s (some (.child parent made .firing))
  | rechecked {parent made : Nat} (unfired : s.isCancelled parent = false) :
      Advanced s (.child parent made .rechecking) (s.give made) none
  | fired {parent made : Nat} : Advanced s (.child parent made .firing) (s.store made)
      (some (.child parent made .notifying))
  | notified {parent made : Nat} :
      Advanced s (.child parent made .notifying) ((s.notifyWaiters made).give made) none
  | swappedFired {token node : Nat} {pending : List Nat} (fired : s.isCancelled node = true) :
      Advanced s (.cancel token pending (.swapping node)) s (some (.cancel token pending .popping))
  | swapped {token node : Nat} {pending : List Nat} (unfired : s.isCancelled node = false) :
      Advanced s (.cancel token pending (.swapping node)) (s.store node)
        (some (.cancel token pending (.notifying node)))
  | woke {token node : Nat} {pending : List Nat} :
      Advanced s (.cancel token pending (.notifying node)) (s.notifyWaiters node)
        (some (.cancel token pending (.taking node)))
  | took {token node : Nat} {pending : List Nat} :
      Advanced s (.cancel token pending (.taking node)) (s.take node)
        (some (.cancel token pending (.upgrading node (s.nodes node).children)))
  | upgraded {token node child : Nat} {pending rest : List Nat} (alive : s.isAlive child = true) :
      Advanced s (.cancel token pending (.upgrading node (child :: rest))) s
        (some (.cancel token (pending ++ [child]) (.upgrading node rest)))
  | skipped {token node child : Nat} {pending rest : List Nat} (dead : s.isAlive child = false) :
      Advanced s (.cancel token pending (.upgrading node (child :: rest))) s
        (some (.cancel token pending (.upgrading node rest)))
  | emptied {token node : Nat} {pending : List Nat} :
      Advanced s (.cancel token pending (.upgrading node [])) s (some (.cancel token pending .popping))
  | returned {token : Nat} : Advanced s (.cancel token [] .popping) s none
  | popped {token node : Nat} {pending : List Nat} :
      Advanced s (.cancel token (pending ++ [node]) .popping) s
        (some (.cancel token pending (.swapping node)))
  | resolved {token : Nat} {stage : Waiting} (fired : s.isCancelled token = true) :
      Advanced s (.cancelled token stage) s none
  | waits {token : Nat} {stage next : Waiting} (awake : stage ≠ .parked false)
      (sleeps : next = .parked false → s.isCancelled token = false) :
      Advanced s (.cancelled token stage) s (some (.cancelled token next))

theorem Advanced.of_advance {s t : Tokens} {operation : Operation} {next : Option Operation}
    (advanced : s.advance operation = some (t, next)) : Advanced s operation t next := by
  cases operation with
  | child parent made stage =>
    cases stage with
    | checking =>
      cases advanced
      split
      · exact .checkedFired ‹_›
      · exact .checked (Bool.of_not_eq_true ‹_›)
    | storing => cases advanced; exact .stored
    | pushing => cases advanced; exact .pushed
    | rechecking =>
      rw [advance] at advanced
      split at advanced
      · cases advanced; exact .recheckedFired ‹_›
      · cases advanced; exact .rechecked (Bool.of_not_eq_true ‹_›)
    | firing => cases advanced; exact .fired
    | notifying => cases advanced; exact .notified
  | cancel token pending stage =>
    cases stage with
    | swapping node =>
      rw [advance] at advanced
      split at advanced
      · cases advanced; exact .swappedFired ‹_›
      · cases advanced; exact .swapped (Bool.of_not_eq_true ‹_›)
    | notifying node => cases advanced; exact .woke
    | taking node => cases advanced; exact .took
    | upgrading node taken =>
      cases taken with
      | nil => cases advanced; exact .emptied
      | cons child rest =>
        cases advanced
        split
        · exact .upgraded ‹_›
        · exact .skipped (Bool.of_not_eq_true ‹_›)
    | popping =>
      rw [advance] at advanced
      split at advanced
      · rename_i none
        obtain rfl := List.getLast?_eq_none_iff.mp none
        cases advanced
        exact .returned
      · rename_i last
        obtain ⟨front, rfl⟩ := List.getLast?_eq_some_iff.mp last
        rw [List.dropLast_concat] at advanced
        cases advanced
        exact .popped
  | cancelled token stage =>
    cases stage with
    | checking =>
      rw [advance] at advanced
      split at advanced
      · cases advanced; exact .resolved ‹_›
      · cases advanced; exact .waits nofun nofun
    | registering => cases advanced; exact .waits nofun nofun
    | rechecking woken =>
      rw [advance] at advanced
      split at advanced
      · cases advanced; exact .resolved ‹_›
      · cases advanced
        exact .waits nofun fun _ => Bool.of_not_eq_true ‹_›
    | parked woken =>
      rw [advance] at advanced
      split at advanced
      · cases advanced
        rename_i woken
        subst woken
        exact .waits nofun nofun
      · cases advanced

/-- What a call of `child` has to itself: the node it makes. -/
structure Making (s : Tokens) (parent made : Nat) (stage : Deriving) : Prop where
  linked : (s.nodes made).parent = some parent
  unshared : (s.nodes made).handles = 0
  childless : ∀ node, (s.nodes node).parent ≠ some made
  unawaited : ∀ stage, .cancelled made stage ∉ s.operations
  fired : stage = .storing ∨ stage = .firing → s.isCancelled parent = true

/-- How the nodes are linked, and to the calls in progress. -/
structure Linked (s : Tokens) : Prop where
  older : ∀ node parent, (s.nodes node).parent = some parent → parent < node
  unused : ∀ node, s.allocated ≤ node → s.nodes node = .fresh none
  held : ∀ node, s.isHeld node = true → node < s.allocated
  referenced : ∀ node, ∀ child ∈ (s.nodes node).children, (s.nodes child).parent = some node
  once : (s.operations.filterMap Operation.derived).Nodup
  making : ∀ parent made stage, .child parent made stage ∈ s.operations → Making s parent made stage
  taking : ∀ token pending stage node, .cancel token pending stage ∈ s.operations →
    stage.fired = some node → s.isCancelled node = true

section Nodes

variable {s t : Tokens} {operation : Operation} {next : Option Operation} {node : Nat}

/-- No call moves a node to another parent, and none cools a node that has fired. -/
theorem Advanced.nodes (advanced : Advanced s operation t next) (node : Nat) :
    (t.nodes node).parent = (s.nodes node).parent ∧
      (s.isCancelled node = true → t.isCancelled node = true) := by
  cases advanced with
  | checkedFired | checked | recheckedFired | swappedFired | upgraded | skipped | emptied | returned
  | popped | resolved | waits | woke => exact ⟨rfl, id⟩
  | stored | pushed | rechecked | fired | notified | swapped | took =>
    simp only [isCancelled, give, store, push, take, notifyWaiters, modify_nodes]
    constructor
    · split <;> simp_all
    · split <;> simp_all

theorem Advanced.mem_operations (advanced : Advanced s operation t next) {other : Operation}
    (busy : other.isWaiting = false) : other ∈ t.operations ↔ other ∈ s.operations := by
  have mapped : ∀ node, other ∈ s.operations.map (·.woken node) ↔ other ∈ s.operations := by
    intro node
    rw [List.mem_map]
    constructor
    · rintro ⟨before, member, rfl⟩
      rcases before with ⟨⟩ | ⟨⟩ | ⟨_, _ | _ | _ | _⟩
      · exact member
      · exact member
      all_goals cases busy
    · intro member
      refine ⟨other, member, ?_⟩
      cases other with
      | child | cancel => rfl
      | cancelled => cases busy
  cases advanced with
  | notified | woke => exact mapped _
  | _ => exact Iff.rfl

theorem derived_woken (operation : Operation) : (operation.woken node).derived = operation.derived := by
  rcases operation with ⟨⟩ | ⟨⟩ | ⟨_, _ | _ | _ | _⟩ <;> rfl

theorem holds_woken (operation : Operation) (other : Nat) :
    (operation.woken node).holds other = operation.holds other := by
  rcases operation with ⟨⟩ | ⟨⟩ | ⟨_, _ | _ | _ | _⟩ <;> rfl

theorem Advanced.derived_operations (advanced : Advanced s operation t next) :
    t.operations.filterMap Operation.derived = s.operations.filterMap Operation.derived := by
  have mapped : ∀ node, (s.operations.map (·.woken node)).filterMap Operation.derived =
      s.operations.filterMap Operation.derived := by
    intro node
    rw [List.filterMap_map]
    exact congrArg (List.filterMap · _) (funext derived_woken)
  cases advanced with
  | notified | woke => exact mapped _
  | _ => rfl

theorem Advanced.getElem?_operations (advanced : Advanced s operation t next) {call : Nat}
    (found : s.operations[call]? = some operation) : t.operations[call]? = some operation := by
  cases advanced with
  | notified | woke =>
    show (s.operations.map _)[call]? = _
    rw [List.getElem?_map, found]
    rfl
  | _ => exact found

end Nodes

section Ownership

variable {s t : Tokens} {operation : Operation} {next : Option Operation} {node : Nat}

theorem isHeld_iff : s.isHeld node = true ↔
    s.hasHandle node ∨ ∃ operation ∈ s.operations, operation.holds node = true := by
  simp [isHeld, hasHandle]

theorem Linked.allocated (linked : Linked s) {parent : Nat}
    (child : (s.nodes node).parent = some parent) : node < s.allocated := by
  by_contra beyond
  rw [linked.unused node (Nat.not_lt.mp beyond)] at child
  cases child

theorem Linked.alive_allocated (linked : Linked s) (alive : Alive s node) : node < s.allocated := by
  cases alive with
  | held held => exact linked.held node held
  | child parent _ => exact Nat.lt_trans (linked.older _ _ parent) (linked.allocated parent)

/-- What is computed of the owners of a node is what there is of them. -/
theorem Linked.isAlive_iff (linked : Linked s) : s.isAlive node = true ↔ Alive s node := by
  constructor
  · have within : ∀ fuel node, s.isAliveWithin fuel node = true → Alive s node := by
      intro fuel
      induction fuel with
      | zero => exact fun node held => .held held
      | succ fuel ih =>
        intro node alive
        rw [isAliveWithin, Bool.or_eq_true, List.any_eq_true] at alive
        obtain held | ⟨child, -, both⟩ := alive
        · exact .held held
        · rw [Bool.and_eq_true, decide_eq_true_eq] at both
          exact .child both.1 (ih child both.2)
    exact within _ _
  · have enough : ∀ node, Alive s node → ∀ fuel, s.allocated ≤ fuel + node →
        s.isAliveWithin fuel node = true := by
      intro node alive
      induction alive with
      | held held =>
        intro fuel _
        cases fuel <;> simp [isAliveWithin, held]
      | @child node child parent alive ih =>
        intro fuel enough
        have later := linked.older child node parent
        have allocated := linked.allocated parent
        cases fuel with
        | zero => omega
        | succ fuel =>
          rw [isAliveWithin, Bool.or_eq_true, List.any_eq_true]
          refine .inr ⟨child, List.mem_range.mpr allocated, ?_⟩
          rw [Bool.and_eq_true, decide_eq_true_eq]
          exact ⟨parent, ih fuel (by omega)⟩
    exact fun alive => enough node alive _ (by omega)

/-- A node that is still alive was alive before, if nobody got hold of a dead one. -/
theorem Alive.back (alive : Alive t node) (held : ∀ node, t.isHeld node = true → Alive s node)
    (linked : ∀ node parent, (t.nodes node).parent = some parent →
      (s.nodes node).parent = some parent) : Alive s node := by
  induction alive with
  | held own => exact held _ own
  | child parent _ ih => exact .child (linked _ _ parent) ih

theorem Advanced.hasHandle (advanced : Advanced s operation t next) (handle : t.hasHandle node) :
    s.hasHandle node ∨ operation.holds node = true := by
  cases advanced with
  | checkedFired | checked | recheckedFired | swappedFired | upgraded | skipped | emptied | returned
  | popped | resolved | waits | woke => exact .inl handle
  | stored | pushed | rechecked | fired | notified | swapped | took =>
    simp only [Tokens.hasHandle, give, store, push, take, notifyWaiters, modify_nodes] at handle ⊢
    split at handle <;> simp_all [Operation.holds]

theorem Advanced.next_holds (linked : Linked s) (advanced : Advanced s operation t next)
    {other : Operation} (goes : next = some other) (holds : other.holds node = true) :
    operation.holds node = true ∨ Alive s node := by
  cases advanced with
  | @upgraded token _ child pending rest alive =>
    cases goes
    simp only [Operation.holds, Bool.or_eq_true, decide_eq_true_eq, List.mem_append,
      List.mem_singleton] at holds ⊢
    obtain (own | waiting | rfl) | here := holds
    · exact .inl (.inl (.inl own))
    · exact .inl (.inl (.inr waiting))
    · exact .inr (linked.isAlive_iff.mp alive)
    · exact .inl (.inr here)
  | stored | rechecked | notified | returned | resolved => cases goes
  | _ =>
    cases goes
    left
    simp_all [Operation.holds, Cancelling.node] <;> tauto

theorem Advanced.holds (advanced : Advanced s operation t next) {other : Operation}
    (member : other ∈ t.operations) (holds : other.holds node = true) : s.isHeld node = true := by
  have mapped : ∀ woken, other ∈ s.operations.map (·.woken woken) → s.isHeld node = true := by
    intro woken member
    obtain ⟨before, inside, rfl⟩ := List.mem_map.mp member
    rw [holds_woken] at holds
    exact isHeld_iff.mpr (.inr ⟨before, inside, holds⟩)
  cases advanced with
  | notified | woke => exact mapped _ member
  | _ => exact isHeld_iff.mpr (.inr ⟨other, member, holds⟩)

/-- Nothing comes back to life when a call goes on. -/
theorem Advanced.alive (linked : Linked s) (advanced : Advanced s operation t next) {call : Nat}
    (found : s.operations[call]? = some operation)
    (alive : Alive { t with operations := proceed t.operations call next } node) : Alive s node := by
  refine alive.back (fun node held => ?_) fun node parent child => ?_
  · have own : operation.holds node = true → Alive s node := fun holds =>
      .held (isHeld_iff.mpr (.inr ⟨operation, List.mem_of_getElem? found, holds⟩))
    obtain handle | ⟨other, member, holds⟩ := isHeld_iff.mp held
    · obtain handle | holds := advanced.hasHandle handle
      · exact .held (isHeld_iff.mpr (.inl handle))
      · exact own holds
    · obtain goes | member := mem_of_mem_proceed (advanced.getElem?_operations found) member
      · exact (advanced.next_holds linked goes holds).elim own id
      · exact .held (advanced.holds member holds)
  · exact (advanced.nodes node).1 ▸ child

end Ownership

end Tokens

end Fava.Runtime
