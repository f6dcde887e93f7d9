import Fava.Subscriptions.Filter
import Fava.Relay.Connection

namespace Fava.Subscriptions

open Std Fava.Lib Fava.Nostr Fava.Relay

abbrev ObservationId := Nat

/-- Wire identifiers are a fixed prefix and a zero-padded counter, so the counter
stands for the identifier and its order. -/
abbrev SubscriptionId := Nat

structure DemandId where
  owner : ObservationId
  branch : Nat
deriving DecidableEq

namespace DemandId

instance : Ord DemandId := ⟨compareLex (compareOn owner) (compareOn branch)⟩

instance : TransOrd DemandId :=
  inferInstanceAs (TransCmp (compareLex (compareOn owner) (compareOn branch)))

instance : LawfulEqOrd DemandId where
  compare_self := ReflOrd.compare_self
  eq_of_compare := by
    intro a b h
    obtain ⟨owner, branch⟩ := Ordering.then_eq_eq.mp h
    cases a
    cases b
    simp_all [compareOn]

end DemandId

structure QueryBounds where
  since : Option Timestamp
  till : Option Timestamp
  limit : Option Nat
deriving DecidableEq

structure RelayDemand where
  owner : ObservationId
  branch : Nat
  filter : Filter
  bounds : QueryBounds
deriving DecidableEq

def RelayDemand.id (d : RelayDemand) : DemandId := ⟨d.owner, d.branch⟩

/-- Read limits one relay declares; an absent one is unknown. The declared
length of identifiers is read by nothing. -/
structure RelayReadConstraints where
  maxSubscriptions : Option Nat
  maxMessageBytes : Option Nat
  maxFilterLimit : Option Nat
  defaultFilterLimit : Option Nat
deriving DecidableEq

def RelayReadConstraints.unknown : RelayReadConstraints := ⟨none, none, none, none⟩

/-- What an EOSE on one wire subscription actually proves. -/
inductive EoseCompleteness
  | proven
  | limitedRequest
  | relayDefaultLimit
deriving DecidableEq

structure PlannedSubscription where
  filters : List Filter
  serves : BTreeSet DemandId
  completeness : EoseCompleteness

abbrev AttributedSubscription := PlannedSubscription

structure InstalledSubscription where
  filters : List Filter
  serves : BTreeSet DemandId

abbrev InstalledSubscriptions := BTreeMap SubscriptionId InstalledSubscription

inductive ShortfallReason
  | subscriptionsExhausted (required maximum : Nat)
  | messageTooLarge (bytes maximum : Nat)
  | filterLimitExceeded (required maximum : Nat)
deriving DecidableEq

structure SubscriptionShortfall where
  demand : DemandId
  reason : ShortfallReason
deriving DecidableEq

/-- The desired plan for one relay session, as a diff against what is installed. -/
structure SubscriptionPlan where
  relay : RelayUrl
  revision : Nat
  opens : List PlannedSubscription
  retain : List SubscriptionId
  close : List SubscriptionId
  attribution : BTreeMap SubscriptionId AttributedSubscription
  shortfalls : List SubscriptionShortfall

def SubscriptionPlan.isNoop (p : SubscriptionPlan) : Bool := p.opens.isEmpty && p.close.isEmpty

inductive SubscriptionPlanError
  | duplicateDemand (demand : DemandId)
  | encoding (detail : BoundedText)
deriving DecidableEq

/-- What an EOSE on a request with these filters would prove. -/
def completeness (filters : List Filter) (constraints : RelayReadConstraints) : EoseCompleteness :=
  if filters.any fun filter => filter.limit.isSome then .limitedRequest
  else if constraints.defaultFilterLimit.isSome then .relayDefaultLimit
  else .proven

end Fava.Subscriptions
