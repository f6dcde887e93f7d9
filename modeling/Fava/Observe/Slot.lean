import Fava.Subscriptions.Planner

namespace Fava.Observe

open Std Fava.Lib Fava.Nostr Fava.Relay Fava.Subscriptions

abbrev Round := Nat

/-- Mint the next value of a counter that never repeats one: the last is the
largest 64-bit number. -/
def allocate (issued : Nat) : Option Nat := if issued < 2 ^ 64 - 1 then some (issued + 1) else none

/-- The token governing one subscription's handle, a child of its slot's token of
that generation. -/
structure Token where
  generation : Round
  subscription : SubscriptionId
deriving DecidableEq

/-- What one relay session holds on the wire. -/
structure Holding where
  relay : RelayUrl
  generation : Round
  installed : InstalledSubscriptions
  attending : BTreeMap SubscriptionId Token
  completeness : BTreeMap SubscriptionId EoseCompleteness
  revision : Option Nat

/-- A live transport session. -/
abbrev Session := Nat

structure Slot extends Holding where
  settled : BTreeMap SubscriptionId Bool
  session : Option Session
  requested : Authority
  constraints : RelayReadConstraints
  armed : Bool
  busy : Bool

def Holding.new (relay : RelayUrl) (generation : Round) : Holding :=
  ⟨relay, generation, ∅, ∅, ∅, none⟩

namespace Slot

def new (relay : RelayUrl) (generation : Round) (requested : Authority) : Slot :=
  ⟨.new relay generation, ∅, none, requested, .unknown, false, false⟩

/-- Whether this slot can still reach `authority`: asked of the live connection once
there is one. -/
def canServe (connections : Session → Authentication) (s : Slot) (authority : Authority) : Bool :=
  match s.session with
  | none => s.requested = authority
  | some session => (connections session).canServe authority

end Slot

namespace Holding

/-- Void everything installed on the previous generation. -/
def advance (h : Holding) (generation : Round) : Holding :=
  { h with generation := generation, installed := ∅, attending := ∅, completeness := ∅ }

def serves (h : Holding) (d : DemandId) : Bool :=
  h.installed.toList.any fun e => e.2.serves.contains d

def covers (h : Holding) (d : RelayDemand) : Bool :=
  h.installed.toList.any fun e =>
    e.2.serves.contains d.id || e.2.filters.any (filterCovers · d.filter)

/-- Demand whose traffic no running subscription already carries. -/
def uncovered (h : Holding) (demand : List RelayDemand) : List RelayDemand :=
  demand.filter fun d => !h.covers d

/-- Whether any running subscription has lost its last serving demand. -/
def orphaned (h : Holding) (demand : List RelayDemand) : Bool :=
  h.installed.toList.any fun e => e.2.serves.toList.all fun held => !(requestedIds demand).contains held

def owners (h : Holding) (id : SubscriptionId) : List ObservationId :=
  match h.installed[id]? with
  | none => []
  | some entry => ((entry.serves.toList.map DemandId.owner).insertionSort (· ≤ ·)).dedup

/-- Whether an EOSE on one wire subscription proves its stored window ended. -/
def provesCompleteness (h : Holding) (id : SubscriptionId) : EoseCompleteness :=
  h.completeness[id]?.getD .proven

/-- What an installation opened: the identifier the session gave to each planned
request it did not refuse. -/
def opening (opens : List PlannedSubscription) (opened : List (Option SubscriptionId)) :
    List (SubscriptionId × PlannedSubscription) :=
  (opens.zip opened).filterMap fun (planned, id) => id.map (·, planned)

/-- What the session holds once this plan has been executed. A retained subscription
keeps its exact filters; only the demand it serves may change. -/
def accepted (baseline : InstalledSubscriptions) (plan : SubscriptionPlan)
    (opened : List (Option SubscriptionId)) (closed : List SubscriptionId) :
    InstalledSubscriptions :=
  BTreeMap.insertAll
    (baseline.filterMap fun id current =>
      if id ∈ closed then none
      else plan.attribution[id]?.map fun attributed => ⟨current.filters, attributed.serves⟩)
    (fun planned => ⟨planned.filters, planned.serves⟩) (opening plan.opens opened)

/-- Replace the baseline with exactly what the transport accepted. -/
def recordInstalled (h : Holding) (plan : SubscriptionPlan) (opened : List (Option SubscriptionId))
    (closed : List SubscriptionId) : Holding :=
  let installed := accepted h.installed plan opened closed
  { h with
    installed := installed
    completeness := h.completeness.filter fun id _ => installed.contains id }

/-- What the plan says of the subscriptions it retains. -/
def recordCompleteness (h : Holding) (plan : SubscriptionPlan) : Holding :=
  { h with
    completeness :=
      h.completeness.insertAll PlannedSubscription.completeness plan.attribution.toList }

/-- Take over the tokens of what was opened, and give back those of what was closed. -/
def attend (h : Holding) (opened closed : List SubscriptionId) : Holding × List Token :=
  let attending := h.attending.insertAll (Token.mk h.generation) (opened.map fun id => (id, id))
  ({ h with attending := closed.foldl (fun tokens id => tokens.erase id) attending },
    closed.filterMap (attending[·]?))

/-- The running subscription demand that is served by none joins: the first that
covers it. -/
def joins (installed : InstalledSubscriptions) (d : RelayDemand) : Option SubscriptionId :=
  if installed.toList.any fun e => e.2.serves.contains d.id then none
  else (installed.toList.find? fun e => e.2.filters.any (filterCovers · d.filter)).map Prod.fst

/-- Bind demand a running request already carries to that request, with the joiners
of requests whose stored replay already ended. -/
def attach (settled : BTreeMap SubscriptionId Bool) (installed : InstalledSubscriptions)
    (demand : List RelayDemand) :
    InstalledSubscriptions × List (SubscriptionId × ObservationId) :=
  demand.foldl
    (fun (installed, credited) item =>
      match joins installed item with
      | none => (installed, credited)
      | some id =>
        (installed.modify id fun entry => { entry with serves := entry.serves.insert item.id },
          if settled[id]?.getD false then credited ++ [(id, item.owner)] else credited))
    (installed, [])

end Holding

/-- A new baseline; what settled on a subscription that is gone is forgotten. -/
def Slot.rebase (s : Slot) (holding : Holding) : Slot :=
  { s with
    toHolding := holding, settled := s.settled.filter fun id _ => holding.installed.contains id }

/-- The slot on its next generation. -/
def Slot.advance (s : Slot) (generation : Round) : Slot :=
  { s with
    toHolding := s.toHolding.advance generation, settled := ∅, armed := false, busy := false }

end Fava.Observe
