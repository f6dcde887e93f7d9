import Mathlib.Algebra.GroupWithZero.Nat
import Fava.Subscriptions.Matching
import Fava.Subscriptions.Shares

namespace Fava.Subscriptions

open Std Fava.Lib Fava.Nostr Fava.Relay

variable {search : String → Event → Bool} {encoder : Encoder} {relay : RelayUrl} {revision : Nat}
  {constraints : RelayReadConstraints} {demand : List RelayDemand}
  {planned : List PlannedSubscription} {event : Event} {installed : InstalledSubscriptions}
  {plan : SubscriptionPlan}

/-- An event some of the demand asks for. -/
def Wanted (search : String → Event → Bool) (demand : List RelayDemand) (event : Event) : Prop :=
  ∃ d ∈ demand, matchEvent search d.filter event = true

/-- An event some filter of these requests asks for. -/
def Asked (search : String → Event → Bool) (planned : List PlannedSubscription) (event : Event) :
    Prop :=
  ∃ p ∈ planned, ∃ f ∈ p.filters, matchEvent search f event = true

theorem wanted_append {demand' : List RelayDemand} :
    Wanted search (demand ++ demand') event ↔
      Wanted search demand event ∨ Wanted search demand' event := by
  simp [Wanted, or_and_right, exists_or]

theorem asked_append {planned' : List PlannedSubscription} :
    Asked search (planned ++ planned') event ↔
      Asked search planned event ∨ Asked search planned' event := by
  simp [Asked, or_and_right, exists_or]

/-- A group asks for what its members ask for, and for nothing else. -/
theorem group_exact (distinct : Distinguishes encoder demand) :
    ∀ c ∈ group encoder demand constraints,
      ∀ event, matchEvent search c.1 event = true ↔ Wanted search c.2 event := by
  refine group_forall distinct ?_ ?_ ?_
  · intro d _ event
    simp [Wanted]
  · intro filter held held' first second event
    rw [wanted_append, ← first event, ← second event, or_self]
  · intro _ left right union merged first second event
    rw [wanted_append, ← first event, ← second event, matchEvent_merge merged]

/-- Requests without a shortfall that ask for what the demand asks for. -/
def Exact (search : String → Event → Bool) (demand : List RelayDemand)
    (planned : List PlannedSubscription) (shortfalls : List SubscriptionShortfall) : Prop :=
  shortfalls = [] ∧ ∀ event, Asked search planned event ↔ Wanted search demand event

theorem exact_answering (unbounded : constraints.maxMessageBytes = none) :
    Answering encoder constraints
      (fun c => ∀ event, matchEvent search c.1 event = true ↔ Wanted search c.2 event)
      (Exact search) where
  nil := ⟨rfl, fun event => by simp [Asked, Wanted]⟩
  carried filter held bytes _ exact _ _ := ⟨rfl, fun event => by simpa [Asked] using exact event⟩
  dropped filter d bytes maximum _ _ bounded := by
    rw [unbounded] at bounded
    cases bounded
  append first second planned planned' dropped dropped' one two := by
    obtain ⟨rfl, one⟩ := one
    obtain ⟨rfl, two⟩ := two
    exact ⟨rfl, fun event => by rw [asked_append, wanted_append, one, two]⟩
  perm first second planned dropped same exact :=
    ⟨exact.1, fun event => (exact.2 event).trans (by simp only [Wanted, same.mem_iff])⟩

theorem asked_foldIdenticalFilters :
    Asked search (foldIdenticalFilters planned) event ↔ Asked search planned event := by
  induction planned using List.reverseRecOn with
  | nil => exact Iff.rfl
  | append_singleton planned p ih =>
    rw [foldIdenticalFilters_append_singleton, asked_append, ← ih]
    constructor
    · rintro ⟨q, hq, asks⟩
      obtain old | ⟨rfl, -⟩ | ⟨c, hc, -, rfl⟩ := mem_upsert hq
      · exact .inl ⟨q, old, asks⟩
      · exact .inr ⟨q, List.mem_singleton_self q, asks⟩
      · exact .inl ⟨c, hc, asks⟩
    · rintro (⟨q, hq, asks⟩ | ⟨q, hq, asks⟩)
      · exact exists_mem_upsert (fun c _ asks => asks) (fun c same asks => by
          rwa [of_decide_eq_true same]) (.inr ⟨q, hq, asks⟩)
      · obtain rfl := List.mem_singleton.mp hq
        exact exists_mem_upsert (fun c _ asks => asks) (fun c same asks => by
          rwa [of_decide_eq_true same]) (.inl asks)

namespace StandardSubscriptionPlanner

theorem hostFor_empty {d : RelayDemand} : hostFor d ∅ = none := by
  simp [hostFor]

theorem pending_unknown_empty : pending demand .unknown ∅ = demand := by
  rw [pending, attach_pending, List.filter_eq_self.mpr fun d _ => by rw [hostFor_empty]; rfl]
  exact List.filter_eq_self.mpr fun d _ => rfl

/-- With nothing declared nothing is dropped for want of room. -/
theorem opening_unbounded {candidates : List PlannedSubscription} {running : Nat}
    (unbounded : constraints.maxSubscriptions = none) :
    opening candidates constraints running = (foldIdenticalFilters candidates, []) := by
  simp [opening, fitResidualCount, unbounded]

theorem limit_unbounded (unbounded : constraints.maxFilterLimit = none) :
    (admitFilterLimits demand constraints).2 = [] := by
  refine List.filterMap_eq_nil_iff.mpr fun d _ => ?_
  simp [limitShortfall, unbounded]

/-- Where nothing runs and nothing is known of the relay, the plan asks for exactly what
the demand asks for, and one request serves each demand and asks for all it wants. -/
theorem plan_exact (search : String → Event → Bool) (distinct : Distinguishes encoder demand)
    (nodup : (ids demand).Nodup)
    (encodes : ∀ filters, ∃ bytes, encoder.encodedBytes filters = .ok bytes) :
    ∃ plan, StandardSubscriptionPlanner.plan encoder relay demand .unknown ∅ revision = .ok plan ∧
      (∀ event, Asked search plan.opens event ↔ Wanted search demand event) ∧
      ∀ d ∈ demand, ∃ p, plan.opens.filter (fun p => p.serves.contains d.id) = [p] ∧
        ∀ event, matchEvent search d.filter event = true →
          ∃ f ∈ p.filters, matchEvent search f event = true := by
  obtain ⟨plan, found⟩ : ∃ plan, StandardSubscriptionPlanner.plan encoder relay demand .unknown ∅
      revision = .ok plan := plan_total nodup encodes
  refine ⟨plan, found, ?_⟩
  obtain ⟨candidates, large, rfl, answered⟩ := plan_answered distinct found
  rw [pending_unknown_empty] at answered
  obtain ⟨rfl, exact⟩ := answered _ (Exact search) (exact_answering rfl)
    fun sub within => group_exact (distinct.subset within)
  have fitted := (answered _ _ fitted_answering fun sub within =>
    (group_grouped (distinct.subset within)).covering).fold
  have dealt := dealt_of_answered .unknown (owners demand .unknown ∅).size nodup
    (answered (fun _ => True) _ dealt_answering fun _ _ _ _ => trivial)
  rw [opening_unbounded rfl] at dealt ⊢
  simp only [named, List.append_nil, List.map_nil] at dealt
  have same : ∀ {p}, p ∈ sortByFilters (foldIdenticalFilters candidates) ↔
      p ∈ foldIdenticalFilters candidates := (List.perm_insertionSort _ _).mem_iff
  constructor
  · intro event
    refine Iff.trans ?_ (asked_foldIdenticalFilters.trans (exact event))
    simp only [Asked, assemble, same]
  · intro d hd
    obtain ⟨p, sole⟩ := filter_serves (dealt.nodup_iff.mpr nodup)
      (dealt.mem_iff.mpr (mem_ids.mpr ⟨d, hd, rfl⟩))
    refine ⟨p, sole, fun event wants => ?_⟩
    have listed : p ∈ (sortByFilters (foldIdenticalFilters candidates)).filter
        fun p => p.serves.contains d.id := by simp [sole]
    obtain ⟨opened, serves⟩ := List.mem_filter.mp listed
    obtain ⟨-, filter, filters, covers⟩ := fitted.carries p (same.mp opened)
    obtain ⟨e, he, eq, covered⟩ := covers d.id (ExtTreeSet.contains_iff_mem.mp serves)
    obtain rfl := List.inj_on_of_nodup_map nodup he hd eq
    exact ⟨filter, by simp [filters], matchEvent_of_covers covered wants⟩

section Kinds

def kindsText (f : Filter) : String :=
  "\x7b\"kinds\":[" ++ String.intercalate "," ((f.kinds.elim [] ExtTreeSet.toList).map toString) ++
    "]\x7d"

/-- The text of a filter that bounds nothing but kinds, and the length of a `REQ` with
such filters. -/
def kindsEncoder : Encoder where
  canonicalEncoding := kindsText
  encodedBytes filters := .ok (31 + (filters.map fun f => (kindsText f).utf8ByteSize + 1).sum)

def kindDemand (owner : Nat) (kind : Kind) : RelayDemand :=
  ⟨owner, 0, { Filter.new with kinds := some {kind} }, ⟨none, none, none⟩⟩

/-- No filter here has a search term. -/
def everything (_ : String) (_ : Event) : Bool := true

theorem two_kinds_exact :
    ∃ plan, StandardSubscriptionPlanner.plan kindsEncoder "wss://relay" [kindDemand 1 1,
        kindDemand 2 2] .unknown ∅ 1 = .ok plan ∧
      (∀ event, Asked everything plan.opens event ↔
        Wanted everything [kindDemand 1 1, kindDemand 2 2] event) ∧
      ∀ d ∈ [kindDemand 1 1, kindDemand 2 2],
        ∃ p, plan.opens.filter (fun p => p.serves.contains d.id) = [p] ∧
          ∀ event, matchEvent everything d.filter event = true →
            ∃ f ∈ p.filters, matchEvent everything f event = true := by
  apply plan_exact everything
  · unfold Distinguishes
    decide +kernel
  · decide +kernel
  · exact fun filters => ⟨_, rfl⟩

end Kinds

end StandardSubscriptionPlanner

theorem whole_answering (unbounded : constraints.maxMessageBytes = none) :
    Answering encoder constraints (fun _ => True) fun _ _ dropped => dropped = [] where
  nil := rfl
  carried _ _ _ _ _ _ _ := rfl
  dropped _ _ _ _ _ _ bounded _ := by
    rw [unbounded] at bounded
    cases bounded
  append _ _ _ _ _ _ one two := by
    rw [one, two]
    rfl
  perm _ _ _ _ _ whole := whole

theorem StandardSubscriptionPlanner.whole (distinct : Distinguishes encoder demand)
    (h : StandardSubscriptionPlanner.plan encoder relay demand .unknown installed revision =
      .ok plan) : plan.shortfalls = [] := by
  obtain ⟨candidates, large, rfl, answered⟩ := StandardSubscriptionPlanner.plan_answered distinct h
  have none := answered _ _ (whole_answering rfl) fun _ _ _ _ => trivial
  rw [assemble, StandardSubscriptionPlanner.limit_unbounded rfl, none,
    StandardSubscriptionPlanner.opening_unbounded rfl]
  rfl

theorem OnePerDemand.carry_unknown {running required : Nat}
    {state : List PlannedSubscription × List SubscriptionShortfall} {item : RelayDemand} :
    (OnePerDemand.carry encoder .unknown running required installed state item).2 = state.2 := by
  unfold OnePerDemand.carry
  simp only [RelayReadConstraints.unknown, Option.filter_none]
  split
  · rfl
  · split
    · rfl
    · rfl

theorem OnePerDemand.foldl_carry_unknown {running required : Nat} {items : List RelayDemand}
    {state : List PlannedSubscription × List SubscriptionShortfall} :
    (items.foldl (OnePerDemand.carry encoder .unknown running required installed) state).2 =
      state.2 := by
  induction items using List.reverseRecOn with
  | nil => rfl
  | append_singleton items item ih =>
    rw [List.foldl_append, List.foldl_cons, List.foldl_nil, OnePerDemand.carry_unknown, ih]

theorem OnePerDemand.whole (h : OnePerDemand.plan encoder relay demand .unknown installed revision =
      .ok plan) : plan.shortfalls = [] := by
  obtain ⟨items, required, carried, dropped, -, folded, -, rfl⟩ := OnePerDemand.plan_carried h
  have kept := congrArg Prod.snd folded
  rw [OnePerDemand.foldl_carry_unknown] at kept
  exact kept.symm.trans (StandardSubscriptionPlanner.limit_unbounded rfl)

end Fava.Subscriptions
