import Fava.Subscriptions.Plan

namespace Fava.Subscriptions

open Std Fava.Lib Fava.Nostr Fava.Relay

inductive PlanConformanceError
  | wrongRelay
  | overlappingBuckets (id : SubscriptionId)
  | unknownInstalled (id : SubscriptionId)
  | attributionMismatch
  | emptyFilters (position : Nat)
  | filterAttributionMismatch (id : SubscriptionId)
  | demandUnaccounted (demand : DemandId)
  | demandInvented (demand : DemandId)
  | declaredSubscriptionsExceeded (installed maximum : Nat)
  | runningSubscriptionWithdrawn (id : SubscriptionId) (stillWanted : DemandId)
  | duplicateFilters (first : SubscriptionId) (second : Nat)
  | duplicatePlannedFilters (position : Nat)
deriving DecidableEq

abbrev Conformance := Except PlanConformanceError

def requestedIds (demand : List RelayDemand) : BTreeSet DemandId :=
  ExtTreeSet.ofList (demand.map RelayDemand.id)

def checkRelay (relay : RelayUrl) (plan : SubscriptionPlan) : Conformance Unit :=
  if plan.relay = relay then .ok () else .error .wrongRelay

def checkBucket (installed : InstalledSubscriptions) (seen : List SubscriptionId) :
    List SubscriptionId → Conformance Unit
  | [] => .ok ()
  | id :: rest =>
    if id ∈ seen then .error (.overlappingBuckets id)
    else if installed[id]? = none then .error (.unknownInstalled id)
    else checkBucket installed (id :: seen) rest

/-- `retain` and `close` name installed subscriptions, and name them once. -/
def checkBuckets (installed : InstalledSubscriptions) (plan : SubscriptionPlan) :
    Conformance Unit :=
  checkBucket installed [] (plan.retain ++ plan.close)

def checkAttributionKeys (plan : SubscriptionPlan) : Conformance Unit :=
  if (ExtTreeSet.ofList plan.attribution.keys : BTreeSet SubscriptionId) =
      ExtTreeSet.ofList plan.retain then .ok ()
  else .error .attributionMismatch

def checkRetainedFilters (installed : InstalledSubscriptions) (plan : SubscriptionPlan) :
    List SubscriptionId → Conformance Unit
  | [] => .ok ()
  | id :: rest =>
    match installed[id]?, plan.attribution[id]? with
    | none, _ => .error (.unknownInstalled id)
    | some _, none => .error .attributionMismatch
    | some entry, some attributed =>
      if attributed.filters ≠ entry.filters then .error (.filterAttributionMismatch id)
      else checkRetainedFilters installed plan rest

def checkFilters (installed : InstalledSubscriptions) (plan : SubscriptionPlan) :
    Conformance Unit :=
  match plan.opens.findIdx? fun planned => planned.filters.isEmpty with
  | some position => .error (.emptyFilters position)
  | none => checkRetainedFilters installed plan plan.retain

def servedBy (plan : SubscriptionPlan) : List DemandId :=
  (plan.attribution.toList.flatMap fun e => e.2.serves.toList) ++
    plan.opens.flatMap fun planned => planned.serves.toList

/-- Every input demand is accounted for and no attribution is invented. -/
def checkDemand (demand : List RelayDemand) (plan : SubscriptionPlan) : Conformance Unit :=
  let requested := requestedIds demand
  match (servedBy plan).find? fun served => !requested.contains served with
  | some served => .error (.demandInvented served)
  | none =>
    let accounted := plan.shortfalls.map SubscriptionShortfall.demand ++ servedBy plan
    match requested.toList.find? fun id => decide (id ∉ accounted) with
    | some id => .error (.demandUnaccounted id)
    | none =>
      match plan.shortfalls.find? fun entry => !requested.contains entry.demand with
      | some entry => .error (.demandInvented entry.demand)
      | none => .ok ()

/-- A running subscription is never withdrawn while it is still wanted. -/
def checkRunningSubscriptions (demand : List RelayDemand) (installed : InstalledSubscriptions) :
    List SubscriptionId → Conformance Unit
  | [] => .ok ()
  | withdrawn :: rest =>
    match installed[withdrawn]? with
    | none => checkRunningSubscriptions demand installed rest
    | some entry =>
      match entry.serves.toList.find? fun served => (requestedIds demand).contains served with
      | some retained => .error (.runningSubscriptionWithdrawn withdrawn retained)
      | none => checkRunningSubscriptions demand installed rest

/-- No planned request repeats the filters of a retained one or of an earlier
planned one. -/
def checkDistinct (retained : List (SubscriptionId × List Filter)) (planned : List (List Filter)) :
    Nat → List PlannedSubscription → Conformance Unit
  | _, [] => .ok ()
  | position, candidate :: rest =>
    match retained.find? fun e => e.2 = candidate.filters with
    | some e => .error (.duplicateFilters e.1 position)
    | none =>
      if candidate.filters ∈ planned then .error (.duplicatePlannedFilters position)
      else checkDistinct retained (candidate.filters :: planned) (position + 1) rest

def checkDistinctFilters (installed : InstalledSubscriptions) (plan : SubscriptionPlan) :
    Conformance Unit :=
  let retained := plan.retain.filterMap fun id =>
    installed[id]?.map fun entry => (id, entry.filters)
  checkDistinct retained [] 0 plan.opens

def checkDeclaredLimits (constraints : RelayReadConstraints) (plan : SubscriptionPlan) :
    Conformance Unit :=
  match constraints.maxSubscriptions with
  | none => .ok ()
  | some maximum =>
    if maximum - plan.retain.length < plan.opens.length then
      .error (.declaredSubscriptionsExceeded (plan.opens.length + plan.retain.length) maximum)
    else .ok ()

/-- The conformance rules, in the order they are checked. -/
def validatePlan (relay : RelayUrl) (demand : List RelayDemand)
    (constraints : RelayReadConstraints) (installed : InstalledSubscriptions)
    (plan : SubscriptionPlan) : Conformance Unit := do
  checkRelay relay plan
  checkBuckets installed plan
  checkAttributionKeys plan
  checkFilters installed plan
  checkDemand demand plan
  checkRunningSubscriptions demand installed plan.close
  checkDistinctFilters installed plan
  checkDeclaredLimits constraints plan

end Fava.Subscriptions
