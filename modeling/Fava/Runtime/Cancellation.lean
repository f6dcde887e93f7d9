import Mathlib.Logic.Function.Basic
import Fava.Lib.Pool
import Fava.Lib.Run

namespace Fava.Runtime

open Fava.Lib

/-- What the handles of one token share. The parent is an owning reference, the children
are weak ones. -/
structure Node where
  cancelled : Bool
  children : List Nat
  parent : Option Nat
  handles : Nat

def Node.fresh (parent : Option Nat) : Node := ⟨false, [], parent, 0⟩

/-- How far a call of `child` is, once the new node is made. -/
inductive Deriving
  | checking
  | storing
  | pushing
  | rechecking
  | firing
  | notifying
deriving DecidableEq

/-- How far a call of `cancel` is: firing one node takes its flag, wakes its waiters, takes
its children and upgrades the references one by one. -/
inductive Cancelling
  | swapping (node : Nat)
  | notifying (node : Nat)
  | taking (node : Nat)
  | upgrading (node : Nat) (taken : List Nat)
  | popping
deriving DecidableEq

/-- How far a call of `cancelled` is, and whether it was woken since it registered. -/
inductive Waiting
  | checking
  | registering
  | rechecking (woken : Bool)
  | parked (woken : Bool)
deriving DecidableEq

inductive Operation
  | child (parent : Nat) (made : Nat) (stage : Deriving)
  | cancel (token : Nat) (pending : List Nat) (stage : Cancelling)
  | cancelled (token : Nat) (stage : Waiting)
deriving DecidableEq

/-- The node that a stage of `cancel` works on. -/
def Cancelling.node : Cancelling → Option Nat
  | .swapping node | .notifying node | .taking node | .upgrading node _ => some node
  | .popping => none

/-- The call owns a reference to the node. -/
def Operation.holds (node : Nat) : Operation → Bool
  | .child parent made _ => parent = node || made = node
  | .cancel token pending stage => token = node || node ∈ pending || stage.node = some node
  | .cancelled token _ => token = node

/-- The node a call of `child` is about to return. -/
def Operation.derived : Operation → Option Nat
  | .child _ made _ => some made
  | .cancel .. | .cancelled .. => none

def Operation.woken (node : Nat) : Operation → Operation
  | .cancelled token (.rechecking woken) => .cancelled token (.rechecking (woken || token = node))
  | .cancelled token (.parked woken) => .cancelled token (.parked (woken || token = node))
  | operation => operation

/-- The tokens of one runtime and the calls on them that have not returned. `cancels` is
what was ever cancelled. -/
structure Tokens where
  nodes : Nat → Node
  allocated : Nat
  operations : List Operation
  cancels : List Nat

namespace Tokens

/-- `CancellationToken::root`. -/
def root : Tokens :=
  ⟨Function.update (fun _ => .fresh none) 0 ⟨false, [], none, 1⟩, 1, [], []⟩

theorem root_nodes (node : Nat) : root.nodes node =
    if node = 0 then ⟨false, [], none, 1⟩ else .fresh none := by
  simp only [root, Function.update_apply]

def modify (s : Tokens) (node : Nat) (f : Node → Node) : Tokens :=
  { s with nodes := Function.update s.nodes node (f (s.nodes node)) }

theorem modify_nodes (s : Tokens) (node other : Nat) (f : Node → Node) :
    (s.modify node f).nodes other = if other = node then f (s.nodes node) else s.nodes other :=
  Function.update_apply _ _ _ _

def isCancelled (s : Tokens) (node : Nat) : Bool := (s.nodes node).cancelled

def isHeld (s : Tokens) (node : Nat) : Bool :=
  0 < (s.nodes node).handles || s.operations.any (·.holds node)

def isAliveWithin (s : Tokens) : Nat → Nat → Bool
  | 0, node => s.isHeld node
  | fuel + 1, node => s.isHeld node || (List.range s.allocated).any fun child =>
      (s.nodes child).parent = some node && s.isAliveWithin fuel child

/-- Some owner is left: a handle, a call, or a child that is itself alive. -/
def isAlive (s : Tokens) (node : Nat) : Bool := s.isAliveWithin s.allocated node

def store (s : Tokens) (node : Nat) : Tokens := s.modify node ({ · with cancelled := true })

def notifyWaiters (s : Tokens) (node : Nat) : Tokens :=
  { s with operations := s.operations.map (·.woken node) }

/-- The token is handed to the caller. -/
def give (s : Tokens) (node : Nat) : Tokens :=
  s.modify node fun n => { n with handles := n.handles + 1 }

/-- Keep the children that are alive, and this one. -/
def push (s : Tokens) (parent child : Nat) : Tokens :=
  s.modify parent fun n => { n with children := n.children.filter s.isAlive ++ [child] }

def take (s : Tokens) (node : Nat) : Tokens := s.modify node ({ · with children := [] })

def derive (s : Tokens) (parent : Nat) : Tokens :=
  { s with
    nodes := Function.update s.nodes s.allocated (.fresh (some parent))
    allocated := s.allocated + 1
    operations := s.operations ++ [.child parent s.allocated .checking] }

theorem derive_nodes (s : Tokens) (parent other : Nat) :
    (s.derive parent).nodes other =
      if other = s.allocated then .fresh (some parent) else s.nodes other :=
  Function.update_apply _ _ _ _

/-- The next access of one call to what it shares with others, and what is left of it. -/
def advance (s : Tokens) : Operation → Option (Tokens × Option Operation)
  | .child parent made .checking =>
    some (s, some (.child parent made (if s.isCancelled parent then .storing else .pushing)))
  | .child _ made .storing => some ((s.store made).give made, none)
  | .child parent made .pushing => some (s.push parent made, some (.child parent made .rechecking))
  | .child parent made .rechecking =>
    if s.isCancelled parent then some (s, some (.child parent made .firing))
    else some (s.give made, none)
  | .child parent made .firing => some (s.store made, some (.child parent made .notifying))
  | .child _ made .notifying => some ((s.notifyWaiters made).give made, none)
  | .cancel token pending (.swapping node) =>
    if s.isCancelled node then some (s, some (.cancel token pending .popping))
    else some (s.store node, some (.cancel token pending (.notifying node)))
  | .cancel token pending (.notifying node) =>
    some (s.notifyWaiters node, some (.cancel token pending (.taking node)))
  | .cancel token pending (.taking node) =>
    some (s.take node, some (.cancel token pending (.upgrading node (s.nodes node).children)))
  | .cancel token pending (.upgrading node (child :: rest)) =>
    some (s, some (.cancel token (if s.isAlive child then pending ++ [child] else pending)
      (.upgrading node rest)))
  | .cancel token pending (.upgrading _ []) => some (s, some (.cancel token pending .popping))
  | .cancel token pending .popping =>
    match pending.getLast? with
    | none => some (s, none)
    | some node => some (s, some (.cancel token pending.dropLast (.swapping node)))
  | .cancelled token .checking =>
    if s.isCancelled token then some (s, none) else some (s, some (.cancelled token .registering))
  | .cancelled token .registering => some (s, some (.cancelled token (.rechecking false)))
  | .cancelled token (.rechecking woken) =>
    if s.isCancelled token then some (s, none) else some (s, some (.cancelled token (.parked woken)))
  | .cancelled token (.parked woken) =>
    if woken then some (s, some (.cancelled token .checking)) else none

/-- Begin a call, copy or drop a handle, take the next access of a call in progress, or drop
a call of `cancelled` before it resolves. -/
inductive Action
  | child (token : Nat)
  | cancel (token : Nat)
  | cancelled (token : Nat)
  | clone (token : Nat)
  | drop (token : Nat)
  | advance (call : Nat)
  | abandon (call : Nat)

def hasHandle (s : Tokens) (token : Nat) : Prop := 0 < (s.nodes token).handles

instance (s : Tokens) (token : Nat) : Decidable (s.hasHandle token) :=
  inferInstanceAs (Decidable (_ < _))

def step (s : Tokens) : Action → Option Tokens
  | .child token => if s.hasHandle token then some (s.derive token) else none
  | .cancel token =>
    if s.hasHandle token then some { s with
      operations := s.operations ++ [.cancel token [] (.swapping token)]
      cancels := s.cancels ++ [token] }
    else none
  | .cancelled token =>
    if s.hasHandle token then some { s with
      operations := s.operations ++ [.cancelled token .checking] }
    else none
  | .clone token => if s.hasHandle token then some (s.give token) else none
  | .drop token =>
    if s.hasHandle token then
      some (s.modify token fun n => { n with handles := n.handles - 1 })
    else none
  | .advance call => do
    let operation ← s.operations[call]?
    let (s, next) ← s.advance operation
    some { s with operations := proceed s.operations call next }
  | .abandon call => do
    let .cancelled _ _ ← s.operations[call]? | none
    some { s with operations := proceed s.operations call none }

end Tokens

end Fava.Runtime
