import Fava.Lib.BTree
import Fava.Write.Event

namespace Fava.Routing

open Std Fava.Lib Fava.Nostr Fava.Write

/-- One independently tracked routing-coverage target. -/
inductive RouteTarget
  | wholeRequest
  | author (key : PublicKey)
  | recipient (key : PublicKey)
  | referencedEvent (id : EventId)
deriving DecidableEq

namespace RouteTarget

def rank : RouteTarget → Nat
  | .wholeRequest => 0
  | .author _ => 1
  | .recipient _ => 2
  | .referencedEvent _ => 3

def value : RouteTarget → Nat
  | .wholeRequest => 0
  | .author key => key
  | .recipient key => key
  | .referencedEvent id => id

instance : Ord RouteTarget := ⟨compareLex (compareOn rank) (compareOn value)⟩

instance : TransOrd RouteTarget :=
  inferInstanceAs (TransCmp (compareLex (compareOn rank) (compareOn value)))

instance : LawfulEqOrd RouteTarget where
  compare_self := ReflOrd.compare_self
  eq_of_compare := by
    intro a b h
    obtain ⟨rank, value⟩ := Ordering.then_eq_eq.mp h
    cases a <;> cases b <;> simp_all [compareOn, RouteTarget.rank, RouteTarget.value]

def debug (N : Library) : RouteTarget → String
  | .wholeRequest => "WholeRequest"
  | .author key => "Author(" ++ N.keyDebug key ++ ")"
  | .recipient key => "Recipient(" ++ N.keyDebug key ++ ")"
  | .referencedEvent id => "ReferencedEvent(" ++ N.idDebug id ++ ")"

end RouteTarget

inductive CoverageState
  | covered (relays : BTreeSet RelayUrl)
  | unresolved
  | settledAbsent

/-- Why a router selected a relay. -/
structure RouteReason where
  router : String
  reason : String
deriving DecidableEq

namespace RouteReason

instance : Ord RouteReason := ⟨compareLex (compareOn router) (compareOn reason)⟩

instance : TransOrd RouteReason :=
  inferInstanceAs (TransCmp (compareLex (compareOn router) (compareOn reason)))

instance : LawfulEqOrd RouteReason where
  compare_self := ReflOrd.compare_self
  eq_of_compare := by
    rintro ⟨router, reason⟩ ⟨router', reason'⟩ h
    obtain ⟨routers, reasons⟩ := Ordering.then_eq_eq.mp h
    rw [RouteReason.mk.injEq]
    exact ⟨LawfulEqCmp.eq_of_compare routers, LawfulEqCmp.eq_of_compare reasons⟩

end RouteReason

/-- One relay of a plan, with what it covers and why it was selected. -/
structure PlannedRelay where
  session : RelayUrl
  targets : BTreeSet RouteTarget
  reasons : BTreeSet RouteReason

/-- The current result of ordered routing. -/
structure RoutePlan where
  revision : Nat
  destinations : BTreeMap RelayUrl PlannedRelay
  coverage : BTreeMap RouteTarget CoverageState
  unresolved : BTreeSet RouteTarget
  shortfalls : List String

def RoutePlan.settled (plan : RoutePlan) : Bool := plan.unresolved.isEmpty

end Fava.Routing
