import Fava.Runtime.Propagation

namespace Fava.Runtime

open Fava.Lib

/-- The call is on its way to fire the node, or has just fired it. -/
def Operation.Targets (node : Nat) : Operation → Prop
  | .cancel _ pending stage => node ∈ pending ∨ stage.node = some node ∨
      ∃ owner taken, stage = .upgrading owner taken ∧ node ∈ taken
  | .child .. | .cancelled .. => False

namespace Tokens

variable {s t : Tokens} {node call : Nat} {operation : Operation} {next : Option Operation}
  {actions : List Action}

/-- The node is one that was cancelled, or derived from one. -/
def Asked (s : Tokens) (node : Nat) : Prop := ∃ token ∈ s.cancels, Above s token node

structure Isolated (s : Tokens) : Prop where
  fired : ∀ node, s.isCancelled node = true → Asked s node
  targets : ∀ operation ∈ s.operations, ∀ node, operation.Targets node → Asked s node

theorem Asked.child {parent : Nat} (asked : Asked s parent)
    (child : (s.nodes node).parent = some parent) : Asked s node := by
  obtain ⟨token, cancelled, above⟩ := asked
  exact ⟨token, cancelled, above.tail child⟩

theorem Asked.mono (asked : Asked s node) (cancels : ∀ token ∈ s.cancels, token ∈ t.cancels)
    (linked : ∀ node parent, (s.nodes node).parent = some parent →
      (t.nodes node).parent = some parent) : Asked t node := by
  obtain ⟨token, cancelled, above⟩ := asked
  exact ⟨token, cancels token cancelled, Relation.ReflTransGen.mono (fun parent child => linked child parent) _ _ above⟩

theorem Advanced.cancels (advanced : Advanced s operation t next) : t.cancels = s.cancels := by
  cases advanced <;> rfl

/-- A call goes on towards nodes it was on its way to, and to children of such. -/
theorem Advanced.targets (linked : Linked s) (isolated : Isolated s)
    (advanced : Advanced s operation t next) (member : operation ∈ s.operations) {mine : Operation}
    (goes : next = some mine) (targets : mine.Targets node) : Asked s node := by
  have asked := isolated.targets operation member node
  cases advanced with
  | checkedFired | checked | pushed | recheckedFired | fired | waits =>
    cases goes
    exact targets.elim
  | stored | rechecked | notified | returned | resolved => cases goes
  | swappedFired | emptied =>
    cases goes
    obtain waiting | none | ⟨_, _, none, _⟩ := targets
    · exact asked (.inl waiting)
    · cases none
    · cases none
  | swapped | woke =>
    cases goes
    obtain waiting | here | ⟨_, _, none, _⟩ := targets
    · exact asked (.inl waiting)
    · exact asked (.inr (.inl here))
    · cases none
  | @took token other pending =>
    cases goes
    obtain waiting | here | ⟨_, _, is, listed⟩ := targets
    · exact asked (.inl waiting)
    · exact asked (.inr (.inl here))
    · cases is
      have owner := isolated.targets _ member other (.inr (.inl rfl))
      exact owner.child (linked.referenced other node listed)
  | upgraded =>
    cases goes
    obtain waiting | here | ⟨_, _, is, later⟩ := targets
    · obtain waiting | new := List.mem_append.mp waiting
      · exact asked (.inl waiting)
      · obtain rfl := List.mem_singleton.mp new
        exact asked (.inr (.inr ⟨_, _, rfl, List.mem_cons_self⟩))
    · exact asked (.inr (.inl here))
    · cases is
      exact asked (.inr (.inr ⟨_, _, rfl, List.mem_cons_of_mem _ later⟩))
  | skipped =>
    cases goes
    obtain waiting | here | ⟨_, _, is, later⟩ := targets
    · exact asked (.inl waiting)
    · exact asked (.inr (.inl here))
    · cases is
      exact asked (.inr (.inr ⟨_, _, rfl, List.mem_cons_of_mem _ later⟩))
  | popped =>
    cases goes
    obtain waiting | here | ⟨_, _, none, _⟩ := targets
    · exact asked (.inl (List.mem_append_left _ waiting))
    · cases here
      exact asked (.inl (List.mem_append_right _ (List.mem_singleton_self _)))
    · cases none

theorem Isolated.advance (isolated : Isolated s) (linked : Linked s)
    (advanced : Advanced s operation t next) (found : s.operations[call]? = some operation) :
    Isolated (after t call next) := by
  have member := List.mem_of_getElem? found
  have later : ∀ node, Asked s node → Asked (after t call next) node := by
    intro node asked
    refine asked.mono (fun token cancelled => ?_) fun node parent child => ?_
    · show token ∈ t.cancels
      rw [advanced.cancels]
      exact cancelled
    · exact (advanced.nodes node).1.trans child
  constructor
  · intro node fired
    by_cases before : s.isCancelled node = true
    · exact later node (isolated.fired node before)
    · refine later node ?_
      have made : ∀ parent stage, operation = .child parent node stage →
          stage = .storing ∨ stage = .firing → Asked s node := by
        rintro parent stage rfl early
        have making := linked.making parent node stage member
        exact (isolated.fired parent (making.fired early)).child making.linked
      obtain ⟨parent, is⟩ | ⟨parent, is⟩ | ⟨token, pending, is, -, -⟩ :=
        advanced.fires (Bool.of_not_eq_true before) fired
      · exact made parent _ is (.inl rfl)
      · exact made parent _ is (.inr rfl)
      · exact isolated.targets operation member node (is ▸ .inr (.inl rfl))
  · intro other inside node targets
    refine later node ?_
    change other ∈ proceed t.operations call next at inside
    obtain goes | inside := mem_of_mem_proceed (advanced.getElem?_operations found) inside
    · exact advanced.targets linked isolated member goes targets
    · cases other with
      | cancel => exact isolated.targets _ ((advanced.mem_operations rfl).mp inside) node targets
      | child | cancelled => exact targets.elim

theorem Isolated.unmoved (isolated : Isolated s) (unmoved : Unmoved s t)
    (cancels : ∀ token ∈ s.cancels, token ∈ t.cancels)
    (began : ∀ token, .cancel token [] (.swapping token) ∈ t.operations →
      .cancel token [] (.swapping token) ∈ s.operations ∨ token ∈ t.cancels) : Isolated t := by
  have later : ∀ node, Asked s node → Asked t node := fun node asked =>
    asked.mono cancels fun node parent child => (unmoved.nodes node).1.trans child
  constructor
  · intro node fired
    exact later node (isolated.fired node ((unmoved.nodes node).2.1 ▸ fired))
  · intro operation member node targets
    obtain inside | ⟨token, _, rfl | rfl⟩ := unmoved.began operation member
    · exact later node (isolated.targets operation inside node targets)
    · obtain inside | cancelled := began token member
      · exact later node (isolated.targets _ inside node targets)
      · obtain waiting | here | ⟨_, _, none, _⟩ := targets
        · cases waiting
        · cases here
          exact ⟨_, cancelled, .refl⟩
        · cases none
    · exact targets.elim

theorem Isolated.derive (isolated : Isolated s) (linked : Linked s) (parent : Nat) :
    Isolated (s.derive parent) := by
  have later : ∀ node, Asked s node → Asked (s.derive parent) node := fun node asked =>
    asked.mono (fun _ => id) fun node owner child => by
      rw [derive_old s parent (linked.allocated child)]
      exact child
  constructor
  · intro node fired
    exact later node (isolated.fired node (derive_cancelled linked fired).1)
  · intro operation member node targets
    obtain inside | new := List.mem_append.mp member
    · exact later node (isolated.targets operation inside node targets)
    · rw [List.mem_singleton.mp new] at targets
      exact targets.elim

theorem Isolated.step (isolated : Isolated s) (linked : Linked s) {action : Action}
    (stepped : s.step action = some t) : Isolated t := by
  cases action with
  | child token =>
    obtain ⟨handle, same⟩ := Option.ite_none_right_eq_some.mp stepped
    cases same
    exact isolated.derive linked token
  | cancel token =>
    obtain ⟨handle, same⟩ := Option.ite_none_right_eq_some.mp stepped
    cases same
    refine isolated.unmoved (unmoved_begin handle (.inl rfl) _)
      (fun _ cancelled => List.mem_append_left _ cancelled) fun other member => ?_
    refine (List.mem_append.mp member).imp_right fun new => ?_
    cases List.mem_singleton.mp new
    exact List.mem_append_right _ (List.mem_singleton_self _)
  | cancelled token =>
    obtain ⟨handle, same⟩ := Option.ite_none_right_eq_some.mp stepped
    cases same
    refine isolated.unmoved (unmoved_begin handle (.inr rfl) _) (fun _ => id) fun other member => ?_
    refine (List.mem_append.mp member).imp_right fun new => ?_
    cases List.mem_singleton.mp new
  | clone token =>
    obtain ⟨handle, same⟩ := Option.ite_none_right_eq_some.mp stepped
    cases same
    exact isolated.unmoved (unmoved_handles linked handle (· + 1)) (fun _ => id) fun _ => .inl
  | drop token =>
    obtain ⟨handle, same⟩ := Option.ite_none_right_eq_some.mp stepped
    cases same
    exact isolated.unmoved (unmoved_handles linked handle (· - 1)) (fun _ => id) fun _ => .inl
  | advance call =>
    obtain ⟨operation, found, goes⟩ := Option.bind_eq_some_iff.mp stepped
    obtain ⟨⟨u, next⟩, advanced, same⟩ := Option.bind_eq_some_iff.mp goes
    cases same
    exact isolated.advance linked (.of_advance advanced) found
  | abandon call =>
    obtain ⟨operation, found, goes⟩ := Option.bind_eq_some_iff.mp stepped
    cases operation with
    | child | cancel => cases goes
    | cancelled =>
      cases goes
      refine isolated.unmoved (unmoved_abandon found) (fun _ => id) fun other member => .inl ?_
      change _ ∈ proceed s.operations call none at member
      exact (mem_of_mem_proceed found member).resolve_left nofun

theorem root_isolated : Isolated root where
  fired node fired := by
    rw [(root_node node).2.2.1] at fired
    cases fired
  targets _ member := by cases member

/-- In any run, a token has fired only if it was cancelled or is derived from one that was:
neither a parent nor a sibling of a cancelled token fires with it. -/
theorem fired_only_below_cancelled (run : Run step Free root actions s)
    (fired : s.isCancelled node = true) : ∃ token ∈ s.cancels, Above s token node := by
  have both : Propagates s ∧ Isolated s := by
    refine run.invariant (fun s => Propagates s ∧ Isolated s) ⟨root_propagates, root_isolated⟩ ?_
    intro s action t both _ stepped
    exact ⟨both.1.step stepped, both.2.step both.1.toLinked stepped⟩
  exact both.2.fired node fired

/-- Two children of the root, of which one is cancelled. -/
def oneOfTwo : List Action :=
  [.child 0, .advance 0, .advance 0, .advance 0, .child 0, .advance 0, .advance 0, .advance 0,
    .cancel 1, .advance 0]

theorem fired_only_below_one : ∃ s, Run step Free root oneOfTwo s ∧ s.isCancelled 2 = false ∧
    ∃ token ∈ s.cancels, Above s token 1 := by
  have ran : (exec step Free root oneOfTwo).any (fun s =>
      s.isCancelled 1 = true ∧ s.isCancelled 2 = false) = true := by decide +kernel
  obtain ⟨s, run, checked⟩ := Run.of_any ran
  obtain ⟨fired, sibling⟩ := of_decide_eq_true checked
  exact ⟨s, run, sibling, fired_only_below_cancelled run fired⟩

end Tokens

end Fava.Runtime
