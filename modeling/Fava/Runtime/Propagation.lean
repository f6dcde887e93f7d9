import Fava.Runtime.Ownership

namespace Fava.Runtime

open Fava.Lib

def Cancelling.Owes (s : Tokens) (node : Nat) : Cancelling → Prop
  | .swapping other => other = node
  | .notifying parent | .taking parent => node ∈ (s.nodes parent).children
  | .upgrading _ taken => node ∈ taken
  | .popping => False

/-- The rest of the call fires the node, if it is still alive then. -/
def Operation.Owes (s : Tokens) (node : Nat) : Operation → Prop
  | .child _ made stage => made = node ∧ stage ≠ .notifying
  | .cancel _ pending stage => node ∈ pending ∨ stage.Owes s node
  | .cancelled .. => False

/-- The call has not yet told the parent of its new child. -/
def Operation.Unpushed (parent node : Nat) (operation : Operation) : Prop :=
  operation = .child parent node .checking ∨ operation = .child parent node .pushing

/-- The call has fired the node, and wakes its waiters next. -/
def Operation.Notifies (node : Nat) : Operation → Prop
  | .child _ made stage => made = node ∧ stage = .notifying
  | .cancel _ _ stage => stage = .notifying node
  | .cancelled .. => False

namespace Tokens

/-- Nothing that fires is lost on its way to the descendants and the waiters. -/
structure Propagates (s : Tokens) : Prop extends Linked s where
  registered : ∀ node parent, (s.nodes node).parent = some parent → s.isCancelled parent = false →
    Alive s node → node ∈ (s.nodes parent).children ∨
      ∃ operation ∈ s.operations, operation.Unpushed parent node
  owed : ∀ node parent, (s.nodes node).parent = some parent → s.isCancelled parent = true →
    Alive s node → s.isCancelled node = true ∨ ∃ operation ∈ s.operations, operation.Owes s node
  waits : ∀ token, .cancelled token (.parked false) ∈ s.operations → s.isCancelled token = true →
    ∃ operation ∈ s.operations, operation.Notifies token

section Advancing

variable {s t : Tokens} {operation : Operation} {next : Option Operation} {node call : Nat}

/-- The state once the call has gone on. -/
def after (t : Tokens) (call : Nat) (next : Option Operation) : Tokens :=
  { t with operations := proceed t.operations call next }

theorem Advanced.children (advanced : Advanced s operation t next)
    {child : Nat} (listed : child ∈ (t.nodes node).children) :
    child ∈ (s.nodes node).children ∨ operation = .child node child .pushing := by
  cases advanced with
  | checkedFired | checked | recheckedFired | swappedFired | upgraded | skipped | emptied | returned
  | popped | resolved | waits | woke => exact .inl listed
  | stored | rechecked | fired | notified | swapped | took | pushed =>
    simp only [give, store, push, take, notifyWaiters, modify_nodes] at listed
    split at listed <;> first | simp_all; tauto | simp_all

/-- A child that is alive stays listed until its parent's children are taken. -/
theorem Advanced.keeps_child (linked : Linked s) (advanced : Advanced s operation t next)
    {child : Nat} (alive : Alive s child) (listed : child ∈ (s.nodes node).children) :
    child ∈ (t.nodes node).children ∨
      ∃ token pending, operation = .cancel token pending (.taking node) := by
  cases advanced with
  | checkedFired | checked | recheckedFired | swappedFired | upgraded | skipped | emptied | returned
  | popped | resolved | waits | woke => exact .inl listed
  | stored | rechecked | fired | notified | swapped =>
    left
    simp only [give, store, notifyWaiters, modify_nodes]
    split <;> simp_all
  | @took token other pending =>
    by_cases here : node = other
    · exact .inr ⟨token, pending, by rw [here]⟩
    · left
      rw [take, modify_nodes, if_neg here]
      exact listed
  | @pushed parent made =>
    left
    rw [push, modify_nodes]
    split
    · rename_i here
      subst here
      exact List.mem_append_left _ (List.mem_filter.mpr ⟨listed, linked.isAlive_iff.mpr alive⟩)
    · exact listed

theorem Advanced.unused (linked : Linked s) (advanced : Advanced s operation t next)
    (member : operation ∈ s.operations) (beyond : s.allocated ≤ node) :
    t.nodes node = s.nodes node := by
  have apart : operation.holds node = false := by
    by_contra holds
    rw [Bool.not_eq_false] at holds
    have within := linked.held node (isHeld_iff.mpr (.inr ⟨operation, member, holds⟩))
    omega
  cases advanced with
  | checkedFired | checked | recheckedFired | swappedFired | upgraded | skipped | emptied | returned
  | popped | resolved | waits | woke => rfl
  | stored | pushed | rechecked | fired | notified | swapped | took =>
    simp only [Operation.holds, Cancelling.node, Bool.or_eq_false_iff, decide_eq_false_iff_not,
      Option.some.injEq] at apart
    simp only [give, store, push, take, notifyWaiters, modify_nodes]
    split <;> simp_all

theorem Advanced.derived_next (advanced : Advanced s operation t next) (made : Nat)
    (derives : next.bind Operation.derived = some made) : operation.derived = some made := by
  cases advanced <;> first | exact derives | cases derives

theorem Advanced.handles (advanced : Advanced s operation t next) :
    (t.nodes node).handles = (s.nodes node).handles ∨ operation.derived = some node ∧ next = none := by
  cases advanced with
  | checkedFired | checked | recheckedFired | swappedFired | upgraded | skipped | emptied | returned
  | popped | resolved | waits | woke => exact .inl rfl
  | fired | swapped | took | pushed =>
    left
    simp only [store, push, take, modify_nodes]
    split <;> simp_all
  | @stored _ made | @rechecked _ made | @notified _ made =>
    by_cases here : node = made
    · exact .inr ⟨by rw [here]; rfl, rfl⟩
    · left
      simp only [give, store, notifyWaiters, modify_nodes, if_neg here]

theorem Advanced.awaited (advanced : Advanced s operation t next)
    (found : s.operations[call]? = some operation) {token : Nat} {stage : Waiting}
    (member : .cancelled token stage ∈ proceed t.operations call next) :
    ∃ stage, .cancelled token stage ∈ s.operations := by
  have mapped : ∀ node, .cancelled token stage ∈ s.operations.map (·.woken node) →
      ∃ stage, .cancelled token stage ∈ s.operations := by
    intro node member
    obtain ⟨before, inside, same⟩ := List.mem_map.mp member
    rcases before with ⟨⟩ | ⟨⟩ | ⟨_, _ | _ | _ | _⟩ <;> cases same <;> exact ⟨_, inside⟩
  obtain goes | others := mem_of_mem_proceed (advanced.getElem?_operations found) member
  · cases advanced with
    | waits =>
      cases goes
      exact ⟨_, List.mem_of_getElem? found⟩
    | _ => cases goes
  · cases advanced with
    | notified | woke => exact mapped _ others
    | _ => exact ⟨stage, others⟩

theorem Advanced.making (linked : Linked s) (advanced : Advanced s operation t next)
    (found : s.operations[call]? = some operation) {parent made : Nat} {stage : Deriving}
    (member : .child parent made stage ∈ proceed t.operations call next) :
    Making (after t call next) parent made stage := by
  have keeps : ∀ before, Making s parent made before →
      (operation.derived = some made → next ≠ none) →
      (stage = .storing ∨ stage = .firing → t.isCancelled parent = true) →
      Making (after t call next) parent made stage := by
    intro before making own fires
    refine ⟨(advanced.nodes made).1.trans making.linked, ?_, fun node => ?_, fun waiting member => ?_,
      fires⟩
    · have moves : (t.nodes made).handles = (s.nodes made).handles ∨ _ := advanced.handles
      obtain same | ⟨derived, past⟩ := moves
      · exact same.trans making.unshared
      · exact absurd past (own derived)
    · show (t.nodes node).parent ≠ some made
      rw [(advanced.nodes node).1]
      exact making.childless node
    · obtain ⟨_, before⟩ := advanced.awaited found member
      exact making.unawaited _ before
  obtain goes | others := mem_of_mem_proceed (advanced.getElem?_operations found) member
  · have ongoing : next ≠ none := by rw [goes]; exact nofun
    have mine := linked.making parent made
    cases advanced with
    | checkedFired fired | recheckedFired fired =>
      cases goes
      exact keeps _ (mine _ (List.mem_of_getElem? found)) (fun _ => ongoing) fun _ => fired
    | checked | pushed | fired =>
      cases goes
      exact keeps _ (mine _ (List.mem_of_getElem? found)) (fun _ => ongoing) (by simp)
    | _ => cases goes
  · rw [advanced.mem_operations rfl] at others
    refine keeps _ (linked.making _ _ _ others) (fun derived past => ?_) fun stage =>
      (advanced.nodes parent).2 ((linked.making _ _ _ others).fired stage)
    rw [past] at member
    refine ne_key_of_mem_proceed ?_ (advanced.getElem?_operations found) derived member rfl
    rw [advanced.derived_operations]
    exact linked.once

theorem Advanced.taking (linked : Linked s) (advanced : Advanced s operation t next)
    (found : s.operations[call]? = some operation) {token : Nat} {pending : List Nat}
    {stage : Cancelling} (member : .cancel token pending stage ∈ proceed t.operations call next)
    (fired : stage.fired = some node) : t.isCancelled node = true := by
  obtain goes | others := mem_of_mem_proceed (advanced.getElem?_operations found) member
  · have mine := fun stage => linked.taking token pending stage node
    cases advanced with
    | swapped =>
      cases goes
      cases fired
      simp [isCancelled, store, modify_nodes]
    | woke =>
      cases goes
      exact mine _ (List.mem_of_getElem? found) fired
    | swappedFired | took | upgraded | skipped | emptied | popped =>
      cases goes
      cases fired
    | _ => cases goes
  · rw [advanced.mem_operations rfl] at others
    exact (advanced.nodes node).2 (linked.taking _ _ _ _ others fired)

theorem Linked.advance (linked : Linked s) (advanced : Advanced s operation t next)
    (found : s.operations[call]? = some operation) : Linked (after t call next) where
  older node parent child := linked.older node parent ((advanced.nodes node).1 ▸ child)
  unused node beyond := by
    have same : t.allocated = s.allocated := by cases advanced <;> rfl
    change t.allocated ≤ node at beyond
    rw [same] at beyond
    exact (advanced.unused linked (List.mem_of_getElem? found) beyond).trans (linked.unused node beyond)
  held node held := by
    have same : t.allocated = s.allocated := by cases advanced <;> rfl
    show node < t.allocated
    rw [same]
    exact linked.alive_allocated (advanced.alive linked found (.held held))
  referenced node child listed := by
    show (t.nodes child).parent = some node
    rw [(advanced.nodes child).1]
    obtain listed | rfl := advanced.children listed
    · exact linked.referenced node child listed
    · exact (linked.making node child .pushing (List.mem_of_getElem? found)).linked
  once := by
    refine nodup_proceed ?_ (advanced.getElem?_operations found) advanced.derived_next
    rw [advanced.derived_operations]
    exact linked.once
  making parent made stage member := advanced.making linked found member
  taking token pending stage node member fired := by
    have fires := advanced.taking linked found member fired
    exact fires

/-- A node that fires was taken by its own flag, or is one that nobody shares yet. -/
theorem Advanced.fires (advanced : Advanced s operation t next) (unfired : s.isCancelled node = false)
    (fired : t.isCancelled node = true) :
    (∃ parent, operation = .child parent node .storing) ∨
      (∃ parent, operation = .child parent node .firing) ∨
      ∃ token pending, operation = .cancel token pending (.swapping node) ∧
        next = some (.cancel token pending (.notifying node)) ∧ t = s.store node := by
  cases advanced with
  | checkedFired | checked | recheckedFired | swappedFired | upgraded | skipped | emptied | returned
  | popped | resolved | waits | woke =>
    exact absurd fired (by rw [isCancelled] at unfired ⊢; exact unfired ▸ Bool.false_ne_true)
  | @stored parent made | @fired parent made | @swapped token made pending =>
    by_cases here : node = made
    · subst here
      simp
    · simp_all [isCancelled, give, store, modify_nodes]
  | pushed | rechecked | notified | took =>
    simp only [isCancelled, give, push, take, notifyWaiters, modify_nodes] at unfired fired
    split at fired <;> simp_all

theorem Propagates.registered_advance (propagates : Propagates s)
    (advanced : Advanced s operation t next) (found : s.operations[call]? = some operation)
    {parent : Nat} (child : (t.nodes node).parent = some parent)
    (unfired : t.isCancelled parent = false) (alive : Alive s node) :
    node ∈ (t.nodes parent).children ∨
      ∃ operation ∈ proceed t.operations call next, operation.Unpushed parent node := by
  have linked := propagates.toLinked
  rw [(advanced.nodes node).1] at child
  have before : s.isCancelled parent = false := by
    by_contra fired
    rw [(advanced.nodes parent).2 (Bool.of_not_eq_false fired)] at unfired
    cases unfired
  obtain listed | ⟨other, member, unpushed⟩ := propagates.registered node parent child before alive
  · refine (advanced.keeps_child linked alive listed).imp_right ?_
    rintro ⟨token, pending, rfl⟩
    have fired := linked.taking token pending _ parent (List.mem_of_getElem? found) rfl
    rw [fired] at before
    cases before
  · have busy : other.isWaiting = false := by obtain rfl | rfl := unpushed <;> rfl
    rw [← advanced.mem_operations busy] at member
    obtain rfl | stays := mem_proceed (advanced.getElem?_operations found) next member
    · obtain rfl | rfl := unpushed
      · cases advanced with
        | checkedFired fired =>
          rw [fired] at before
          cases before
        | checked => exact .inr ⟨_, next_mem_proceed found, .inr rfl⟩
      · cases advanced with
        | pushed =>
          left
          rw [push, modify_nodes, if_pos rfl]
          exact List.mem_append_right _ (List.mem_singleton_self _)
    · exact .inr ⟨other, stays, unpushed⟩

/-- What another call owes it still owes, or this one takes it over. -/
theorem Advanced.owes_other (linked : Linked s) (advanced : Advanced s operation t next)
    (alive : Alive s node) {other : Operation} (owes : other.Owes s node) :
    other.Owes t node ∨ ∃ mine, next = some mine ∧ mine.Owes t node := by
  have lists : ∀ parent, node ∈ (s.nodes parent).children → node ∈ (t.nodes parent).children ∨
      ∃ mine, next = some mine ∧ mine.Owes t node := by
    intro parent listed
    obtain listed | ⟨_, _, rfl⟩ := advanced.keeps_child linked alive listed
    · exact .inl listed
    · cases advanced with
      | took => exact .inr ⟨_, rfl, .inr listed⟩
  cases other with
  | child => exact .inl owes
  | cancelled => exact .inl owes
  | cancel token pending stage =>
    obtain waiting | owes := owes
    · exact .inl (.inl waiting)
    · cases stage with
      | notifying parent | taking parent => exact (lists parent owes).imp_left .inr
      | swapping | upgrading | popping => exact .inl (.inr owes)

/-- A call that goes on fires what it owes, or owes it still. -/
theorem Advanced.owes_own (linked : Linked s) (advanced : Advanced s operation t next)
    (found : s.operations[call]? = some operation) {parent : Nat}
    (child : (s.nodes node).parent = some parent) (fired : s.isCancelled parent = true)
    (alive : Alive s node) (owes : operation.Owes s node) :
    t.isCancelled node = true ∨ ∃ mine, next = some mine ∧ mine.Owes t node := by
  have stored : (s.store node).isCancelled node = true := by simp [isCancelled, store, modify_nodes]
  cases advanced with
  | checkedFired | checked | recheckedFired | pushed =>
    obtain ⟨rfl, -⟩ := owes
    exact .inr ⟨_, rfl, rfl, fun is => by cases is⟩
  | stored =>
    obtain ⟨rfl, -⟩ := owes
    left
    simp [isCancelled, give, store, modify_nodes]
  | fired =>
    obtain ⟨rfl, -⟩ := owes
    exact .inl stored
  | rechecked unfired =>
    obtain ⟨rfl, -⟩ := owes
    have same := (linked.making _ _ _ (List.mem_of_getElem? found)).linked
    rw [child, Option.some.injEq] at same
    subst same
    rw [fired] at unfired
    cases unfired
  | notified => exact absurd rfl owes.2
  | swappedFired already =>
    obtain waiting | rfl := owes
    · exact .inr ⟨_, rfl, .inl waiting⟩
    · exact .inl already
  | swapped =>
    obtain waiting | rfl := owes
    · exact .inr ⟨_, rfl, .inl waiting⟩
    · exact .inl stored
  | woke | took => exact .inr ⟨_, rfl, owes⟩
  | upgraded =>
    refine .inr ⟨_, rfl, ?_⟩
    obtain waiting | listed := owes
    · exact .inl (List.mem_append_left _ waiting)
    · obtain rfl | later := List.mem_cons.mp listed
      · exact .inl (List.mem_append_right _ (List.mem_singleton_self _))
      · exact .inr later
  | skipped dead =>
    refine .inr ⟨_, rfl, ?_⟩
    obtain waiting | listed := owes
    · exact .inl waiting
    · obtain rfl | later := List.mem_cons.mp listed
      · rw [linked.isAlive_iff.mpr alive] at dead
        cases dead
      · exact .inr later
  | emptied =>
    refine .inr ⟨_, rfl, ?_⟩
    obtain waiting | listed := owes
    · exact .inl waiting
    · cases listed
  | returned =>
    obtain waiting | none := owes
    · cases waiting
    · cases none
  | popped =>
    refine .inr ⟨_, rfl, ?_⟩
    obtain waiting | none := owes
    · obtain waiting | last := List.mem_append.mp waiting
      · exact .inl waiting
      · exact .inr (List.mem_singleton.mp last).symm
    · cases none
  | resolved | waits => exact owes.elim

theorem Propagates.owed_advance (propagates : Propagates s) (advanced : Advanced s operation t next)
    (found : s.operations[call]? = some operation) {parent : Nat}
    (child : (t.nodes node).parent = some parent) (fired : t.isCancelled parent = true)
    (alive : Alive s node) : t.isCancelled node = true ∨
      ∃ operation ∈ proceed t.operations call next, operation.Owes t node := by
  have linked := propagates.toLinked
  have own : (∃ mine, next = some mine ∧ mine.Owes t node) →
      ∃ operation ∈ proceed t.operations call next, operation.Owes t node := by
    rintro ⟨mine, rfl, owes⟩
    exact ⟨mine, next_mem_proceed (advanced.getElem?_operations found), owes⟩
  rw [(advanced.nodes node).1] at child
  by_cases before : s.isCancelled parent = true
  · obtain fired | ⟨other, member, owes⟩ := propagates.owed node parent child before alive
    · exact .inl ((advanced.nodes node).2 fired)
    · have busy : other.isWaiting = false := by
        cases other with
        | child | cancel => rfl
        | cancelled => cases owes
      have here := (advanced.mem_operations busy).mpr member
      obtain rfl | stays := mem_proceed (advanced.getElem?_operations found) next here
      · exact (advanced.owes_own linked found child before alive owes).imp_right own
      · obtain owes | taken := advanced.owes_other linked alive owes
        · exact .inr ⟨other, stays, owes⟩
        · exact .inr (own taken)
  · -- The parent fires now, with the node among its children or still to be listed there.
    have unfired := Bool.of_not_eq_true before
    have childless : ∀ owner stage, .child owner parent stage ∉ s.operations :=
      fun owner stage making => (linked.making owner parent stage making).childless node child
    right
    obtain ⟨_, rfl⟩ | ⟨_, rfl⟩ | ⟨token, pending, rfl, rfl, rfl⟩ := advanced.fires unfired fired
    · exact (childless _ _ (List.mem_of_getElem? found)).elim
    · exact (childless _ _ (List.mem_of_getElem? found)).elim
    · obtain listed | ⟨other, member, unpushed⟩ := propagates.registered node parent child unfired alive
      · refine own ⟨_, rfl, .inr ?_⟩
        show node ∈ ((s.store parent).nodes parent).children
        rw [store, modify_nodes, if_pos rfl]
        exact listed
      · obtain rfl | stays := mem_proceed found (some (.cancel token pending (.notifying parent))) member
        · obtain clash | clash := unpushed <;> cases clash
        · refine ⟨other, stays, ?_⟩
          obtain rfl | rfl := unpushed <;> exact ⟨rfl, fun is => by cases is⟩

/-- A call that wakes the waiters of a node leaves none of them asleep. -/
theorem Advanced.parked (advanced : Advanced s operation t next)
    (parked : .cancelled node (.parked false) ∈ t.operations) :
    .cancelled node (.parked false) ∈ s.operations ∧ ¬operation.Notifies node := by
  have mapped : ∀ other, .cancelled node (.parked false) ∈ s.operations.map (·.woken other) →
      .cancelled node (.parked false) ∈ s.operations ∧ other ≠ node := by
    intro other member
    obtain ⟨before, inside, same⟩ := List.mem_map.mp member
    rcases before with ⟨⟩ | ⟨⟩ | ⟨token, _ | _ | _ | woken⟩
    case cancelled.parked =>
      simp only [Operation.woken, Operation.cancelled.injEq, Waiting.parked.injEq, Bool.or_eq_false_iff,
        decide_eq_false_iff_not] at same
      obtain ⟨rfl, rfl, apart⟩ := same
      exact ⟨inside, fun clash => apart clash.symm⟩
    all_goals cases same
  cases advanced with
  | notified =>
    obtain ⟨inside, apart⟩ := mapped _ parked
    exact ⟨inside, fun notifies => apart notifies.1⟩
  | @woke token other pending =>
    obtain ⟨inside, apart⟩ := mapped _ parked
    refine ⟨inside, fun notifies => apart ?_⟩
    cases notifies
    rfl
  | checkedFired | checked | stored | pushed | recheckedFired | rechecked | fired =>
    exact ⟨parked, fun notifies => by cases notifies.2⟩
  | swappedFired | swapped | took | upgraded | skipped | emptied | returned | popped =>
    exact ⟨parked, fun notifies => by cases notifies⟩
  | resolved | waits => exact ⟨parked, id⟩

theorem Propagates.waits_advance (propagates : Propagates s) (advanced : Advanced s operation t next)
    (found : s.operations[call]? = some operation)
    (parked : .cancelled node (.parked false) ∈ proceed t.operations call next)
    (fired : t.isCancelled node = true) :
    ∃ operation ∈ proceed t.operations call next, operation.Notifies node := by
  have linked := propagates.toLinked
  obtain goes | parked := mem_of_mem_proceed (advanced.getElem?_operations found) parked
  · cases advanced with
    | waits _ sleeps =>
      cases goes
      rw [sleeps rfl] at fired
      cases fired
    | _ => cases goes
  · obtain ⟨asleep, silent⟩ := advanced.parked parked
    by_cases before : s.isCancelled node = true
    · obtain ⟨other, member, notifies⟩ := propagates.waits node asleep before
      have busy : other.isWaiting = false := by
        cases other with
        | child | cancel => rfl
        | cancelled => cases notifies
      have here := (advanced.mem_operations busy).mpr member
      obtain rfl | stays := mem_proceed (advanced.getElem?_operations found) next here
      · exact (silent notifies).elim
      · exact ⟨other, stays, notifies⟩
    · have alone : ∀ owner stage, .child owner node stage ∉ s.operations :=
        fun owner stage making => (linked.making owner node stage making).unawaited _ asleep
      obtain ⟨_, rfl⟩ | ⟨_, rfl⟩ | ⟨token, pending, rfl, rfl, rfl⟩ :=
        advanced.fires (Bool.of_not_eq_true before) fired
      · exact (alone _ _ (List.mem_of_getElem? found)).elim
      · exact (alone _ _ (List.mem_of_getElem? found)).elim
      · exact ⟨_, next_mem_proceed found, rfl⟩

theorem Propagates.advance (propagates : Propagates s) (advanced : Advanced s operation t next)
    (found : s.operations[call]? = some operation) : Propagates (after t call next) where
  toLinked := propagates.toLinked.advance advanced found
  registered node parent child unfired alive := by
    have before := advanced.alive propagates.toLinked found alive
    exact propagates.registered_advance advanced found child unfired before
  owed node parent child fired alive := by
    have before := advanced.alive propagates.toLinked found alive
    exact propagates.owed_advance advanced found child fired before
  waits token parked fired := propagates.waits_advance advanced found parked fired

end Advancing

section Beginning

variable {s t : Tokens} {node parent : Nat}

/-- What calls begin and end, and which handles there are, leaves the nodes as they are. -/
structure Unmoved (s t : Tokens) : Prop where
  allocated : t.allocated = s.allocated
  nodes : ∀ node, (t.nodes node).parent = (s.nodes node).parent ∧
    t.isCancelled node = s.isCancelled node ∧ (t.nodes node).children = (s.nodes node).children
  unused : ∀ node, s.allocated ≤ node → t.nodes node = s.nodes node
  handles : ∀ node, t.hasHandle node → s.hasHandle node
  derived : t.operations.filterMap Operation.derived = s.operations.filterMap Operation.derived
  busy : ∀ operation ∈ s.operations, operation.isWaiting = false → operation ∈ t.operations
  began : ∀ operation ∈ t.operations, operation ∈ s.operations ∨ ∃ token, s.hasHandle token ∧
    (operation = .cancel token [] (.swapping token) ∨ operation = .cancelled token .checking)

theorem Unmoved.alive (unmoved : Unmoved s t) (alive : Alive t node) : Alive s node := by
  refine alive.back (fun node held => ?_) fun node parent child => (unmoved.nodes node).1 ▸ child
  obtain handle | ⟨operation, member, holds⟩ := isHeld_iff.mp held
  · exact .held (isHeld_iff.mpr (.inl (unmoved.handles node handle)))
  · obtain member | ⟨token, handle, rfl | rfl⟩ := unmoved.began operation member
    · exact .held (isHeld_iff.mpr (.inr ⟨operation, member, holds⟩))
    · have same : token = node := by simpa [Operation.holds, Cancelling.node] using holds
      exact .held (isHeld_iff.mpr (.inl (same ▸ handle)))
    · have same : token = node := by simpa [Operation.holds] using holds
      exact .held (isHeld_iff.mpr (.inl (same ▸ handle)))

theorem Unmoved.owes (unmoved : Unmoved s t) {operation : Operation}
    (owes : operation.Owes s node) : operation.Owes t node := by
  cases operation with
  | child | cancelled => exact owes
  | cancel token pending stage =>
    refine owes.imp_right fun owes => ?_
    cases stage with
    | notifying parent | taking parent =>
      show node ∈ (t.nodes parent).children
      rw [(unmoved.nodes parent).2.2]
      exact owes
    | swapping | upgrading | popping => exact owes

theorem Linked.unmoved (linked : Linked s) (unmoved : Unmoved s t) : Linked t where
  older node parent child := linked.older node parent ((unmoved.nodes node).1 ▸ child)
  unused node beyond := by
    rw [unmoved.allocated] at beyond
    exact (unmoved.unused node beyond).trans (linked.unused node beyond)
  held node held := unmoved.allocated ▸ linked.alive_allocated (unmoved.alive (.held held))
  referenced node child listed := by
    rw [(unmoved.nodes child).1]
    exact linked.referenced node child ((unmoved.nodes node).2.2 ▸ listed)
  once := unmoved.derived ▸ linked.once
  making parent made stage member := by
    obtain member | ⟨_, _, clash | clash⟩ := unmoved.began _ member
    · have making := linked.making parent made stage member
      have unshared : ¬s.hasHandle made := by rw [hasHandle, making.unshared]; exact Nat.not_lt_zero 0
      refine ⟨(unmoved.nodes made).1.trans making.linked, ?_, fun node => ?_, fun waiting awaited => ?_,
        fun early => (unmoved.nodes parent).2.1.trans (making.fired early)⟩
      · exact Nat.eq_zero_of_not_pos fun handle => unshared (unmoved.handles made handle)
      · rw [(unmoved.nodes node).1]
        exact making.childless node
      · obtain awaited | ⟨token, handle, clash | clash⟩ := unmoved.began _ awaited
        · exact making.unawaited waiting awaited
        · cases clash
        · cases clash
          exact unshared handle
    · cases clash
    · cases clash
  taking token pending stage node member fired := by
    obtain member | ⟨_, _, clash | clash⟩ := unmoved.began _ member
    · exact (unmoved.nodes node).2.1.trans (linked.taking token pending stage node member fired)
    · cases clash
      cases fired
    · cases clash

theorem Propagates.unmoved (propagates : Propagates s) (unmoved : Unmoved s t) : Propagates t where
  toLinked := propagates.toLinked.unmoved unmoved
  registered node parent child unfired alive := by
    obtain ⟨same, -, -⟩ := unmoved.nodes node
    obtain ⟨-, flag, listed⟩ := unmoved.nodes parent
    rw [listed]
    obtain kept | ⟨operation, member, unpushed⟩ := propagates.registered node parent (same ▸ child)
      (flag ▸ unfired) (unmoved.alive alive)
    · exact .inl kept
    · refine .inr ⟨operation, unmoved.busy operation member ?_, unpushed⟩
      obtain rfl | rfl := unpushed <;> rfl
  owed node parent child fired alive := by
    obtain ⟨same, own, -⟩ := unmoved.nodes node
    rw [own]
    obtain fired | ⟨operation, member, owes⟩ := propagates.owed node parent (same ▸ child)
      ((unmoved.nodes parent).2.1 ▸ fired) (unmoved.alive alive)
    · exact .inl fired
    · refine .inr ⟨operation, unmoved.busy operation member ?_, unmoved.owes owes⟩
      cases operation with
      | child | cancel => rfl
      | cancelled => cases owes
  waits token parked fired := by
    obtain parked | ⟨_, _, clash | clash⟩ := unmoved.began _ parked
    · obtain ⟨operation, member, notifies⟩ := propagates.waits token parked
        ((unmoved.nodes token).2.1 ▸ fired)
      refine ⟨operation, unmoved.busy operation member ?_, notifies⟩
      cases operation with
      | child | cancel => rfl
      | cancelled => cases notifies
    · cases clash
    · cases clash

theorem derive_old (s : Tokens) (parent : Nat) (old : node < s.allocated) :
    (s.derive parent).nodes node = s.nodes node := by
  rw [derive_nodes, if_neg (Nat.ne_of_lt old)]

theorem derive_new (s : Tokens) (parent : Nat) :
    (s.derive parent).nodes s.allocated = .fresh (some parent) := by
  rw [derive_nodes, if_pos rfl]

theorem derive_alive (handle : s.hasHandle parent)
    (alive : Alive (s.derive parent) node) : node = s.allocated ∨ Alive s node := by
  have derives : Alive s parent := .held (isHeld_iff.mpr (.inl handle))
  induction alive with
  | @held node held =>
    obtain handle | ⟨operation, member, holds⟩ := isHeld_iff.mp held
    · by_cases new : node = s.allocated
      · exact .inl new
      · rw [hasHandle, derive_nodes, if_neg new] at handle
        exact .inr (.held (isHeld_iff.mpr (.inl handle)))
    · obtain member | same := List.mem_append.mp member
      · exact .inr (.held (isHeld_iff.mpr (.inr ⟨operation, member, holds⟩)))
      · obtain rfl := List.mem_singleton.mp same
        rw [Operation.holds, Bool.or_eq_true, decide_eq_true_eq, decide_eq_true_eq] at holds
        obtain rfl | rfl := holds
        · exact .inr derives
        · exact .inl rfl
  | @child node child owns _ ih =>
    right
    rw [derive_nodes] at owns
    split at owns
    · cases owns
      exact derives
    · rename_i old
      exact .child owns (ih.resolve_left old)

theorem derive_owes (linked : Linked s) {operation : Operation} (owes : operation.Owes s node) :
    operation.Owes (s.derive parent) node := by
  cases operation with
  | child | cancelled => exact owes
  | cancel token pending stage =>
    refine owes.imp_right fun owes => ?_
    have lists : ∀ owner, node ∈ (s.nodes owner).children →
        node ∈ ((s.derive parent).nodes owner).children := by
      intro owner listed
      rw [derive_old]
      · exact listed
      · by_contra beyond
        rw [linked.unused owner (Nat.not_lt.mp beyond)] at listed
        cases listed
    cases stage with
    | notifying owner | taking owner => exact lists owner owes
    | swapping | upgrading | popping => exact owes

theorem derive_cancelled (linked : Linked s) (fired : (s.derive parent).isCancelled node = true) :
    s.isCancelled node = true ∧ node < s.allocated := by
  rw [isCancelled, derive_nodes] at fired
  split at fired
  · cases fired
  · refine ⟨fired, ?_⟩
    by_contra beyond
    rw [linked.unused node (Nat.not_lt.mp beyond)] at fired
    cases fired

theorem Linked.derive (linked : Linked s) (handle : s.hasHandle parent) :
    Linked (s.derive parent) where
  older node owner child := by
    rw [derive_nodes] at child
    split at child
    · rename_i new
      cases child
      rw [new]
      exact linked.held parent (isHeld_iff.mpr (.inl handle))
    · exact linked.older node owner child
  unused node beyond := by
    change s.allocated + 1 ≤ node at beyond
    rw [derive_nodes, if_neg (by omega)]
    exact linked.unused node (by omega)
  held node held := by
    show node < s.allocated + 1
    obtain rfl | alive := derive_alive handle (.held held)
    · omega
    · have within := linked.alive_allocated alive
      omega
  referenced node child listed := by
    have listed : child ∈ (s.nodes node).children := by
      rw [derive_nodes] at listed
      split at listed
      · cases listed
      · exact listed
    have owns := linked.referenced node child listed
    rw [derive_old s parent (linked.allocated owns)]
    exact owns
  once := by
    show ((s.operations ++ [_]).filterMap Operation.derived).Nodup
    rw [List.filterMap_append, List.nodup_append]
    refine ⟨linked.once, List.nodup_singleton _, ?_⟩
    rintro made early _ new rfl
    obtain ⟨operation, member, derives⟩ := List.mem_filterMap.mp early
    obtain rfl : made = s.allocated := by simpa [Operation.derived] using new
    refine Nat.lt_irrefl _ (linked.held _ (isHeld_iff.mpr (.inr ⟨operation, member, ?_⟩)))
    cases operation with
    | child =>
      cases derives
      simp [Operation.holds]
    | cancel | cancelled => cases derives
  making owner made stage member := by
    obtain member | same := List.mem_append.mp member
    · have making := linked.making owner made stage member
      have old := linked.allocated making.linked
      refine ⟨?_, ?_, fun node child => ?_, fun waiting awaited => ?_, fun early => ?_⟩
      · rw [derive_old s parent old]
        exact making.linked
      · rw [derive_old s parent old]
        exact making.unshared
      · rw [derive_nodes] at child
        split at child
        · cases child
          rw [hasHandle, making.unshared] at handle
          cases handle
        · exact making.childless node child
      · obtain awaited | clash := List.mem_append.mp awaited
        · exact making.unawaited waiting awaited
        · cases List.mem_singleton.mp clash
      · have fired := making.fired early
        have within : owner < s.allocated := Nat.lt_trans (linked.older _ _ making.linked) old
        rw [isCancelled, derive_old s parent within]
        exact fired
    · cases List.mem_singleton.mp same
      have within := linked.held parent (isHeld_iff.mpr (.inl handle))
      refine ⟨?_, ?_, fun node child => ?_, fun waiting awaited => ?_, by simp⟩
      · rw [derive_new]
        rfl
      · rw [derive_new]
        rfl
      · rw [derive_nodes] at child
        split at child
        · cases child
          exact Nat.lt_irrefl _ within
        · have later := linked.older node _ child
          have old := linked.allocated child
          omega
      · obtain awaited | clash := List.mem_append.mp awaited
        · refine Nat.lt_irrefl _ (linked.held _ (isHeld_iff.mpr (.inr ⟨_, awaited, ?_⟩)))
          simp [Operation.holds]
        · cases List.mem_singleton.mp clash
  taking token pending stage node member fired := by
    obtain member | clash := List.mem_append.mp member
    · have before := linked.taking token pending stage node member fired
      rw [isCancelled, derive_old]
      · exact before
      · by_contra beyond
        rw [isCancelled, linked.unused node (Nat.not_lt.mp beyond)] at before
        cases before
    · cases List.mem_singleton.mp clash

theorem Propagates.derive (propagates : Propagates s) (handle : s.hasHandle parent) :
    Propagates (s.derive parent) where
  toLinked := propagates.toLinked.derive handle
  registered node owner child unfired alive := by
    have linked := propagates.toLinked
    obtain rfl | alive := derive_alive handle alive
    · rw [derive_new] at child
      cases child
      exact .inr ⟨_, List.mem_append_right _ (List.mem_singleton_self _), .inl rfl⟩
    · have old := linked.alive_allocated alive
      rw [derive_old s parent old] at child
      have within := Nat.lt_trans (linked.older _ _ child) old
      rw [isCancelled, derive_old s parent within] at unfired
      rw [derive_old s parent within]
      obtain listed | ⟨operation, member, unpushed⟩ :=
        propagates.registered node owner child unfired alive
      · exact .inl listed
      · exact .inr ⟨operation, List.mem_append_left _ member, unpushed⟩
  owed node owner child fired alive := by
    have linked := propagates.toLinked
    obtain rfl | alive := derive_alive handle alive
    · exact .inr ⟨_, List.mem_append_right _ (List.mem_singleton_self _), rfl,
        fun is => by cases is⟩
    · have old := linked.alive_allocated alive
      rw [derive_old s parent old] at child
      rw [isCancelled, derive_old s parent old]
      obtain fired | ⟨operation, member, owes⟩ :=
        propagates.owed node owner child (derive_cancelled linked fired).1 alive
      · exact .inl fired
      · exact .inr ⟨operation, List.mem_append_left _ member, derive_owes linked owes⟩
  waits token parked fired := by
    obtain parked | clash := List.mem_append.mp parked
    · obtain ⟨operation, member, notifies⟩ := propagates.waits token parked
        (derive_cancelled propagates.toLinked fired).1
      exact ⟨operation, List.mem_append_left _ member, notifies⟩
    · cases List.mem_singleton.mp clash

end Beginning

section Runs

variable {s t : Tokens} {node : Nat} {actions : List Action}

theorem root_node (node : Nat) : (root.nodes node).parent = none ∧ (root.nodes node).children = [] ∧
    root.isCancelled node = false ∧ (root.hasHandle node → node = 0) := by
  rw [isCancelled, hasHandle, root_nodes]
  split
  · exact ⟨rfl, rfl, rfl, fun _ => ‹_›⟩
  · exact ⟨rfl, rfl, rfl, fun clash => absurd clash (Nat.lt_irrefl 0)⟩

theorem root_propagates : Propagates root where
  older node parent child := by
    rw [(root_node node).1] at child
    cases child
  unused node beyond := by
    change 1 ≤ node at beyond
    rw [root_nodes, if_neg (by omega)]
  held node held := by
    obtain handle | ⟨_, member, _⟩ := isHeld_iff.mp held
    · rw [(root_node node).2.2.2 handle]
      exact Nat.one_pos
    · cases member
  referenced node child listed := by
    rw [(root_node node).2.1] at listed
    cases listed
  once := List.nodup_nil
  making _ _ _ member := by cases member
  taking _ _ _ _ member := by cases member
  registered node parent child := by
    rw [(root_node node).1] at child
    cases child
  owed node parent child := by
    rw [(root_node node).1] at child
    cases child
  waits _ member := by cases member

theorem unmoved_begin {operation : Operation} {token : Nat} (handle : s.hasHandle token)
    (begins : operation = .cancel token [] (.swapping token) ∨ operation = .cancelled token .checking)
    (cancels : List Nat) :
    Unmoved s { s with operations := s.operations ++ [operation], cancels := cancels } where
  allocated := rfl
  nodes _ := ⟨rfl, rfl, rfl⟩
  unused _ _ := rfl
  handles _ := id
  derived := by
    rw [List.filterMap_append]
    obtain rfl | rfl := begins <;> exact List.append_nil _
  busy _ member _ := List.mem_append_left _ member
  began other member := by
    obtain member | same := List.mem_append.mp member
    · exact .inl member
    · rw [List.mem_singleton.mp same]
      exact .inr ⟨token, handle, begins⟩

theorem unmoved_handles (linked : Linked s) {token : Nat} (handle : s.hasHandle token)
    (count : Nat → Nat) :
    Unmoved s (s.modify token fun n => { n with handles := count n.handles }) where
  allocated := rfl
  nodes node := by
    rw [isCancelled, modify_nodes]
    split
    · rename_i here
      subst here
      exact ⟨rfl, rfl, rfl⟩
    · exact ⟨rfl, rfl, rfl⟩
  unused node beyond := by
    have within := linked.held token (isHeld_iff.mpr (.inl handle))
    rw [modify_nodes, if_neg (by omega)]
  handles node := by
    rw [hasHandle, modify_nodes]
    split
    · rename_i here
      subst here
      exact fun _ => handle
    · exact id
  derived := rfl
  busy _ member _ := member
  began _ member := .inl member

theorem unmoved_abandon {call token : Nat} {stage : Waiting}
    (found : s.operations[call]? = some (.cancelled token stage)) :
    Unmoved s { s with operations := proceed s.operations call none } where
  allocated := rfl
  nodes _ := ⟨rfl, rfl, rfl⟩
  unused _ _ := rfl
  handles _ := id
  derived := by
    obtain ⟨before, after, same, proceeds⟩ := proceed_eq found
    show (proceed s.operations call none).filterMap _ = _
    rw [proceeds, same, List.filterMap_append, List.filterMap_append, List.filterMap_append,
      List.filterMap_cons_none (by rfl)]
    rfl
  busy operation member busy := by
    refine (mem_proceed found none member).resolve_left ?_
    rintro rfl
    cases busy
  began operation member := by
    change operation ∈ proceed s.operations call none at member
    obtain clash | member := mem_of_mem_proceed found member
    · cases clash
    · exact .inl member

theorem Propagates.step (propagates : Propagates s) {action : Action}
    (stepped : s.step action = some t) : Propagates t := by
  cases action with
  | child token =>
    obtain ⟨handle, same⟩ := Option.ite_none_right_eq_some.mp stepped
    cases same
    exact propagates.derive handle
  | cancel token =>
    obtain ⟨handle, same⟩ := Option.ite_none_right_eq_some.mp stepped
    cases same
    exact propagates.unmoved (unmoved_begin handle (.inl rfl) _)
  | cancelled token =>
    obtain ⟨handle, same⟩ := Option.ite_none_right_eq_some.mp stepped
    cases same
    exact propagates.unmoved (unmoved_begin handle (.inr rfl) _)
  | clone token =>
    obtain ⟨handle, same⟩ := Option.ite_none_right_eq_some.mp stepped
    cases same
    exact propagates.unmoved (unmoved_handles propagates.toLinked handle (· + 1))
  | drop token =>
    obtain ⟨handle, same⟩ := Option.ite_none_right_eq_some.mp stepped
    cases same
    exact propagates.unmoved (unmoved_handles propagates.toLinked handle (· - 1))
  | advance call =>
    obtain ⟨operation, found, goes⟩ := Option.bind_eq_some_iff.mp stepped
    obtain ⟨⟨u, next⟩, advanced, same⟩ := Option.bind_eq_some_iff.mp goes
    cases same
    exact propagates.advance (.of_advance advanced) found
  | abandon call =>
    obtain ⟨operation, found, goes⟩ := Option.bind_eq_some_iff.mp stepped
    cases operation with
    | child | cancel => cases goes
    | cancelled =>
      cases goes
      exact propagates.unmoved (unmoved_abandon found)

theorem propagates_of_run (run : Run step Free root actions s) : Propagates s :=
  run.invariant Propagates root_propagates fun _ _ _ propagates _ stepped => propagates.step stepped

/-- No call of `child` or `cancel` is in progress. -/
def Quiet (s : Tokens) : Prop := ∀ operation ∈ s.operations, operation.isWaiting = true

instance (s : Tokens) : Decidable s.Quiet := inferInstanceAs (Decidable (∀ operation ∈ _, _))

theorem Alive.above {upper : Nat} (above : Above s upper node) (alive : Alive s node) :
    Alive s upper := by
  induction above using Relation.ReflTransGen.head_induction_on with
  | refl => exact alive
  | head child _ ih => exact .child child ih

/-- Once no call of `child` or `cancel` is in progress, in any run of any calls, every token
that somebody still owns and that is derived from a fired one has fired, and nobody who waits
for it sleeps. -/
theorem fired_reaches_descendants (run : Run step Free root actions s) (quiet : s.Quiet)
    {upper : Nat} (fired : s.isCancelled upper = true) (above : Above s upper node)
    (alive : Alive s node) :
    s.isCancelled node = true ∧ .cancelled node (.parked false) ∉ s.operations := by
  have propagates := propagates_of_run run
  have reached : s.isCancelled node = true := by
    induction above with
    | refl => exact fired
    | @tail middle node above child ih =>
      have upward := ih (.child child alive)
      obtain fired | ⟨operation, member, owes⟩ := propagates.owed node middle child upward alive
      · exact fired
      · have waiting := quiet operation member
        cases operation with
        | child | cancel => cases waiting
        | cancelled => cases owes
  refine ⟨reached, fun parked => ?_⟩
  obtain ⟨operation, member, notifies⟩ := propagates.waits node parked reached
  have waiting := quiet operation member
  cases operation with
  | child | cancel => cases waiting
  | cancelled => cases notifies

end Runs

section Sample

/-- A token is derived from a child of the root while the root is cancelled; the child's own
handle is dropped. -/
def derivedMeanwhile : List Action :=
  [.child 0, .advance 0, .advance 0, .advance 0, .child 1, .advance 0, .cancel 0, .advance 1,
    .advance 1, .advance 1, .advance 1, .advance 1, .advance 1, .advance 1, .advance 1, .advance 1,
    .advance 1, .advance 1, .advance 0, .advance 0, .advance 0, .advance 0, .drop 1]

theorem fired_reaches_grandchild : ∃ s, Run step Free root derivedMeanwhile s ∧
    s.hasHandle 2 ∧ ¬s.hasHandle 1 ∧ s.isCancelled 2 = true := by
  have ran : (exec step Free root derivedMeanwhile).any (fun s =>
      s.Quiet ∧ s.isCancelled 0 = true ∧ (s.nodes 1).parent = some 0 ∧ (s.nodes 2).parent = some 1 ∧
        s.hasHandle 2 ∧ ¬s.hasHandle 1) = true := by decide +kernel
  obtain ⟨s, run, checked⟩ := Run.of_any ran
  obtain ⟨quiet, fired, child, grandchild, handle, dropped⟩ := of_decide_eq_true checked
  have above : Above s 0 2 := .tail (.tail .refl child) grandchild
  have alive : Alive s 2 := .held (isHeld_iff.mpr (.inl handle))
  exact ⟨s, run, handle, dropped, (fired_reaches_descendants run quiet fired above alive).1⟩

end Sample

end Tokens

end Fava.Runtime
