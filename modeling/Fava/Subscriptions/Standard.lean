import Mathlib.Algebra.GroupWithZero.Nat
import Fava.Subscriptions.Grouping
import Fava.Subscriptions.Conformance

namespace Fava.Subscriptions

open Std Fava.Lib Fava.Nostr Fava.Relay

/-- Demand each running subscription also serves, beside what it was installed for. -/
abbrev Attached := BTreeMap SubscriptionId (BTreeSet DemandId)

def Attached.add (attached : Attached) (id : SubscriptionId) (serves : BTreeSet DemandId) :
    Attached :=
  attached.insert id (attached[id]?.getD ∅ ∪ serves)

def refuseDuplicateDemand (demand : List RelayDemand) : Except SubscriptionPlanError Unit :=
  go [] demand
where
  go (seen : List DemandId) : List RelayDemand → Except SubscriptionPlanError Unit
    | [] => .ok ()
    | item :: rest =>
      if item.id ∈ seen then .error (.duplicateDemand item.id) else go (item.id :: seen) rest

/-- A demand's own `limit` is within the declared filter limit. -/
def withinLimit (constraints : RelayReadConstraints) (d : RelayDemand) : Bool :=
  match constraints.maxFilterLimit, d.filter.limit with
  | some maximum, some required => decide (required ≤ maximum)
  | _, _ => true

def limitShortfall (constraints : RelayReadConstraints) (d : RelayDemand) :
    Option SubscriptionShortfall :=
  match constraints.maxFilterLimit, d.filter.limit with
  | some maximum, some required =>
    if maximum < required then some ⟨d.id, .filterLimitExceeded required maximum⟩ else none
  | _, _ => none

def admitFilterLimits (demand : List RelayDemand) (constraints : RelayReadConstraints) :
    List RelayDemand × List SubscriptionShortfall :=
  (demand.filter (withinLimit constraints), demand.filterMap (limitShortfall constraints))

/-- The running subscription that already serves this demand, or else the first
whose filters cover it. -/
def hostFor (d : RelayDemand) (installed : InstalledSubscriptions) : Option SubscriptionId :=
  let serving := installed.toList.find? fun e => e.2.serves.contains d.id
  let covering := installed.toList.find? fun e => e.2.filters.any (filterCovers · d.filter)
  (serving <|> covering).map Prod.fst

/-- `host` says which running subscription carries a demand, if one does. -/
def attach (host : RelayDemand → Option SubscriptionId) (demand : List RelayDemand) :
    Attached × List RelayDemand :=
  demand.foldl (fun (attached, pending) item =>
    match host item with
    | some id => (attached.add id {item.id}, pending)
    | none => (attached, pending ++ [item])) (∅, [])

def survivingOwners (demand : List RelayDemand) (installed : InstalledSubscriptions)
    (attached : Attached) : Attached :=
  installed.filterMap fun id entry =>
    let still := (entry.serves.filter (requestedIds demand).contains) ∪ attached[id]?.getD ∅
    if still.isEmpty then none else some still

def foldIdenticalFilters (candidates : List AttributedSubscription) :
    List AttributedSubscription :=
  candidates.foldl (fun folded candidate =>
    upsert (fun c => c.filters = candidate.filters)
      (fun c => { c with serves := c.serves ∪ candidate.serves }) candidate folded) []

def foldIntoRunning (candidates : List AttributedSubscription)
    (installed : InstalledSubscriptions) (attached : Attached) :
    List AttributedSubscription × Attached :=
  candidates.foldl (fun (kept, attached) candidate =>
    match installed.toList.find? fun e => e.2.filters = candidate.filters with
    | some e => (kept, attached.add e.1 candidate.serves)
    | none => (kept ++ [candidate], attached)) ([], attached)

def fitResidualCount (candidates : List AttributedSubscription)
    (constraints : RelayReadConstraints) (running : Nat) :
    List AttributedSubscription × List SubscriptionShortfall :=
  match constraints.maxSubscriptions with
  | none => (candidates, [])
  | some maximum =>
    let residual := maximum - running
    (candidates.take residual, (candidates.drop residual).flatMap fun dropped =>
      dropped.serves.toList.map fun demand =>
        ⟨demand, .subscriptionsExhausted (running + candidates.length) maximum⟩)

/-- Steps the splitting loop can still take: each step removes a candidate or
replaces it by at least two that share its members. -/
def splitBound (queue : List Candidate) : Nat :=
  (queue.map fun c => 2 * c.2.length).sum + queue.length

/-- Split every candidate until its exact `REQ` fits the declared message bound. -/
def fitMessageBound (encoder : Encoder) (constraints : RelayReadConstraints) :
    Nat → List Candidate → List AttributedSubscription → List SubscriptionShortfall →
      Except SubscriptionPlanError (List AttributedSubscription × List SubscriptionShortfall)
  | 0, _, carried, shortfalls => .ok (carried, shortfalls)
  | _, [], carried, shortfalls => .ok (carried, shortfalls)
  | steps + 1, (filter, members) :: queue, carried, shortfalls =>
    if members = [] then fitMessageBound encoder constraints steps queue carried shortfalls
    else
      match encoder.encodedBytes [filter] with
      | .error detail => .error (.encoding detail)
      | .ok bytes =>
        if constraints.maxMessageBytes.all fun maximum => bytes ≤ maximum then
          fitMessageBound encoder constraints steps queue
            (carried ++ [⟨[filter], ExtTreeSet.ofList (members.map RelayDemand.id),
              completeness [filter] constraints⟩]) shortfalls
        else
          match members with
          | [only] =>
            fitMessageBound encoder constraints steps queue carried (shortfalls ++
              [⟨only.id, .messageTooLarge bytes (constraints.maxMessageBytes.getD bytes)⟩])
          | _ =>
            let midpoint := (members.length + 1) / 2
            fitMessageBound encoder constraints steps
              (queue ++ group encoder (members.take midpoint) constraints ++
                group encoder (members.drop midpoint) constraints) carried shortfalls

/-- The running subscriptions that keep an owner, with what they now serve. -/
def attributed (constraints : RelayReadConstraints) (installed : InstalledSubscriptions)
    (owners : Attached) : BTreeMap SubscriptionId AttributedSubscription :=
  owners.filterMap fun id serves =>
    installed[id]?.map fun entry => ⟨entry.filters, serves, completeness entry.filters constraints⟩

def withdrawals (installed : InstalledSubscriptions) (owners : Attached) : List SubscriptionId :=
  installed.keys.filter fun id => !owners.contains id

/-- The answer as a diff. Attribution covers exactly what is retained. -/
def assemble (relay : RelayUrl) (revision : Nat) (opened : List PlannedSubscription)
    (constraints : RelayReadConstraints) (installed : InstalledSubscriptions) (owners : Attached)
    (shortfalls : List SubscriptionShortfall) : SubscriptionPlan where
  relay := relay
  revision := revision
  opens := opened
  retain := (attributed constraints installed owners).keys
  close := withdrawals installed owners
  attribution := attributed constraints installed owners
  shortfalls := shortfalls

def sortByFilters (planned : List PlannedSubscription) : List PlannedSubscription :=
  planned.insertionSort fun left right =>
    (List.compareLex Filter.cmp left.filters right.filters).isLE

namespace StandardSubscriptionPlanner

def plan (encoder : Encoder) (relay : RelayUrl) (demand : List RelayDemand)
    (constraints : RelayReadConstraints) (installed : InstalledSubscriptions) (revision : Nat) :
    Except SubscriptionPlanError SubscriptionPlan := do
  refuseDuplicateDemand demand
  let (admissible, shortfalls) := admitFilterLimits demand constraints
  let (attached, pending) := attach (hostFor · installed) admissible
  let grouped := group encoder pending constraints
  let (candidates, shortfalls) ←
    fitMessageBound encoder constraints (splitBound grouped) grouped [] shortfalls
  let (candidates, attached) := foldIntoRunning (foldIdenticalFilters candidates) installed attached
  let owners := survivingOwners admissible installed attached
  let (candidates, dropped) := fitResidualCount candidates constraints owners.size
  return assemble relay revision (sortByFilters candidates) constraints installed owners
    (shortfalls ++ dropped)

end StandardSubscriptionPlanner

namespace OnePerDemand

/-- The running subscription that serves this demand or carries exactly its filter. -/
def runningHost (d : RelayDemand) (installed : InstalledSubscriptions) : Option SubscriptionId :=
  (installed.toList.find? fun e => e.2.serves.contains d.id || e.2.filters = [d.filter]).map
    Prod.fst

def encodedBytes (encoder : Encoder) (filter : Filter) : Nat :=
  match encoder.encodedBytes [filter] with
  | .ok bytes => bytes
  | .error _ => 2 ^ 64 - 1

/-- One step of `admit_pending`. -/
def carry (encoder : Encoder) (constraints : RelayReadConstraints) (running required : Nat)
    (installed : InstalledSubscriptions)
    (state : List PlannedSubscription × List SubscriptionShortfall) (item : RelayDemand) :
    List PlannedSubscription × List SubscriptionShortfall :=
  let (carried, shortfalls) := state
  match constraints.maxSubscriptions.filter fun maximum => maximum - running ≤ carried.length with
  | some maximum => (carried, shortfalls ++ [⟨item.id, .subscriptionsExhausted required maximum⟩])
  | none =>
    if carried.any fun planned => planned.filters = [item.filter] then
      (upsert (fun planned => planned.filters = [item.filter])
        (fun planned => { planned with serves := planned.serves.insert item.id })
        ⟨[item.filter], {item.id}, completeness [item.filter] constraints⟩ carried, shortfalls)
    else if installed.toList.any fun e => e.2.filters = [item.filter] then (carried, shortfalls)
    else
      let bytes := encodedBytes encoder item.filter
      match constraints.maxMessageBytes.filter fun maximum => maximum < bytes with
      | some maximum => (carried, shortfalls ++ [⟨item.id, .messageTooLarge bytes maximum⟩])
      | none =>
        (carried ++ [⟨[item.filter], {item.id}, completeness [item.filter] constraints⟩],
          shortfalls)

def plan (encoder : Encoder) (relay : RelayUrl) (demand : List RelayDemand)
    (constraints : RelayReadConstraints) (installed : InstalledSubscriptions) (revision : Nat) :
    Except SubscriptionPlanError SubscriptionPlan := do
  refuseDuplicateDemand demand
  let (admissible, shortfalls) := admitFilterLimits demand constraints
  let (attached, pending) := attach (runningHost · installed) admissible
  let pending := pending.insertionSort fun left right => (compare left.id right.id).isLE
  let owners := survivingOwners admissible installed attached
  let (carried, shortfalls) := pending.foldl
    (carry encoder constraints owners.size (owners.size + pending.length) installed)
    ([], shortfalls)
  return assemble relay revision carried constraints installed owners shortfalls

end OnePerDemand

end Fava.Subscriptions
