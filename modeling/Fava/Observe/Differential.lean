import Fava.Observe.Wire
import Fava.Subscriptions.Exact

namespace Fava.Observe

open Std Fava.Lib Fava.Nostr Fava.Relay Fava.Subscriptions

variable {encoder : Encoder} {relay : RelayUrl} {revision : Nat} {demand : List RelayDemand}
  {installed : InstalledSubscriptions} {plan : SubscriptionPlan} {w : Wire} {as : List Pass}
  {filterOf : DemandId → Filter} {constraints : RelayReadConstraints}

instance : Decidable (Distinguishes encoder demand) :=
  inferInstanceAs (Decidable (∀ a ∈ demand, ∀ b ∈ demand,
    encoder.canonicalEncoding a.filter = encoder.canonicalEncoding b.filter → a.filter = b.filter))

/-- A pass under these limits, in which every demand keeps its filter. -/
def Steady (encoder : Encoder) (constraints : RelayReadConstraints) (filterOf : DemandId → Filter)
    (_ : Wire) (a : Pass) : Prop :=
  a.constraints = constraints ∧ Distinguishes encoder a.demand ∧
    ∀ d ∈ a.demand, d.filter = filterOf d.id

instance : ∀ (w : Wire) (a : Pass), Decidable (Steady encoder constraints filterOf w a) :=
  fun _ _ => inferInstanceAs (Decidable (_ ∧ _ ∧ _))

/-- What the last pass was asked for. -/
def demanded (as : List Pass) : List RelayDemand := as.getLast?.elim [] Pass.demand

/-- What runs serves exactly this demand, asks for all it wants, and nothing is short. -/
structure Serving (filterOf : DemandId → Filter) (demand : List RelayDemand) (w : Wire) :
    Prop where
  below : w.Below
  covering : w.Covering filterOf
  served : ∀ x, w.serves x ↔ ∃ d ∈ demand, d.id = x
  whole : w.shortfalls = []

theorem serving_new : Serving filterOf [] .new where
  below id member := by simp [Wire.new] at member
  covering id entry here := by simp [Wire.new] at here
  served x := by simp [Wire.serves, Wire.new]
  whole := rfl

/-- A policy that hosts lawfully, answers all its demand and leaves nothing short. -/
structure Whole (encoder : Encoder) (relay : RelayUrl) (planner : SubscriptionPlanner)
    (host : Host) : Prop where
  lawful : host.Lawful
  answered : ∀ demand installed revision plan, Distinguishes encoder demand →
    planner.plan relay demand .unknown installed revision = .ok plan →
      Answered host relay demand .unknown installed revision plan ∧ plan.shortfalls = []

theorem standard_policy :
    Whole encoder relay (StandardSubscriptionPlanner.planner encoder) hostFor where
  lawful := hostFor_lawful
  answered _ _ _ _ distinct h := ⟨standard_answered distinct h, StandardSubscriptionPlanner.whole distinct h⟩

theorem single_policy :
    Whole encoder relay (OnePerDemand.planner encoder) OnePerDemand.runningHost where
  lawful := runningHost_lawful
  answered _ _ _ _ _ h := ⟨single_answered h, OnePerDemand.whole h⟩

theorem Whole.serving {planner : SubscriptionPlanner} {host : Host}
    (whole : Whole encoder relay planner host)
    (run : Run (Wire.step planner relay) (Steady encoder .unknown filterOf) .new as w) :
    Serving filterOf (demanded as) w := by
  induction run with
  | nil => exact serving_new
  | @snoc as w w' a run steady stepped ih =>
    obtain ⟨known, distinct, keeps⟩ := steady
    obtain ⟨plan, found, mints, rfl⟩ := Wire.step_eq_some.mp stepped
    rw [known] at found
    obtain ⟨answered, none⟩ := whole.answered _ _ _ _ distinct found
    obtain ⟨requested, served⟩ := answered.serves ih.below mints
    have last : demanded (as ++ [a]) = a.demand := by simp [demanded]
    rw [last]
    refine ⟨answered.bounded ih.below mints,
      answered.covering whole.lawful ih.below mints keeps ih.covering, fun x => ?_, none⟩
    constructor
    · exact requested x
    · rintro ⟨d, hd, rfl⟩
      obtain serves | ⟨s, short, -⟩ := served d hd
      · exact serves
      · simp [Wire.execute, none] at short

/-- A subscription that serves this demand asks for this event. -/
def Wire.asks (search : String → Event → Bool) (w : Wire) (x : DemandId) (event : Event) : Prop :=
  ∃ (id : SubscriptionId) (entry : InstalledSubscription), w.installed[id]? = some entry ∧
    x ∈ entry.serves ∧ ∃ f ∈ entry.filters, matchEvent search f event = true

theorem Wire.Covering.asks {search : String → Event → Bool} {x : DemandId} {event : Event}
    (covering : w.Covering filterOf) (serves : w.serves x)
    (wants : matchEvent search (filterOf x) event = true) : w.asks search x event := by
  obtain ⟨id, entry, here, member⟩ := serves
  obtain ⟨f, hf, covers⟩ := covering id entry here x member
  exact ⟨id, entry, here, member, f, hf, matchEvent_of_covers covers wants⟩

/-- A plan can be executed from every state, whatever it opens. -/
theorem Wire.exists_step {planner : SubscriptionPlanner}
    (found : planner.plan relay demand constraints w.installed revision = .ok plan) :
    ∃ names w', Wire.step planner relay w ⟨demand, constraints, revision, names⟩ = some w' := by
  refine ⟨List.range' w.minted plan.opens.length, _, Wire.step_eq_some.mpr ⟨plan, found, ?_, rfl⟩⟩
  refine ⟨by simp, List.pairwise_lt_range', fun n hn => ?_⟩
  exact (List.mem_range'_1.mp hn).1

/-- A pass for demand that repeats no identifier can always be made. -/
def Proceeds (relay : RelayUrl) (planner : SubscriptionPlanner) : Prop :=
  ∀ demand (w : Wire), (ids demand).Nodup →
    ∃ plan, planner.plan relay demand .unknown w.installed 0 = .ok plan

theorem exists_run {planner : SubscriptionPlanner} {history : List (List RelayDemand)}
    (proceeds : Proceeds relay planner)
    (sets : ∀ demand ∈ history, (ids demand).Nodup ∧ Distinguishes encoder demand ∧
      ∀ d ∈ demand, d.filter = filterOf d.id) :
    ∃ as w, as.map Pass.demand = history ∧
      Run (Wire.step planner relay) (Steady encoder .unknown filterOf) .new as w := by
  induction history using List.reverseRecOn with
  | nil => exact ⟨[], _, rfl, .nil⟩
  | append_singleton history demand ih =>
    obtain ⟨as, w, same, run⟩ := ih fun demand hd => sets demand (by simp [hd])
    obtain ⟨nodup, distinct, keeps⟩ := sets demand (by simp)
    obtain ⟨plan, found⟩ := proceeds demand w nodup
    obtain ⟨names, w', stepped⟩ := Wire.exists_step found
    exact ⟨as ++ [⟨demand, .unknown, 0, names⟩], w', by simp [same],
      .snoc run ⟨rfl, distinct, keeps⟩ stepped⟩

theorem demanded_eq {history : List (List RelayDemand)} (same : as.map Pass.demand = history) :
    demanded as = history.getLast?.getD [] := by
  rw [← same, List.getLast?_map, demanded]
  cases as.getLast? with
  | none => rfl
  | some a => rfl

/-- Grouping cannot be observed: asked for the same demand over and over, both policies
serve the same, leave nothing short, and have every event that is wanted asked for. -/
theorem planners_agree (search : String → Event → Bool) (filterOf : DemandId → Filter)
    {history : List (List RelayDemand)}
    (encodes : ∀ filters, ∃ bytes, encoder.encodedBytes filters = .ok bytes)
    (sets : ∀ demand ∈ history, (ids demand).Nodup ∧ Distinguishes encoder demand ∧
      ∀ d ∈ demand, d.filter = filterOf d.id) :
    (∃ as grouped, as.map Pass.demand = history ∧
      Run (Wire.step (StandardSubscriptionPlanner.planner encoder) relay)
        (Steady encoder .unknown filterOf) .new as grouped) ∧
    (∃ bs single, bs.map Pass.demand = history ∧
      Run (Wire.step (OnePerDemand.planner encoder) relay) (Steady encoder .unknown filterOf) .new
        bs single) ∧
    ∀ as bs grouped single, as.map Pass.demand = history → bs.map Pass.demand = history →
      Run (Wire.step (StandardSubscriptionPlanner.planner encoder) relay)
        (Steady encoder .unknown filterOf) .new as grouped →
      Run (Wire.step (OnePerDemand.planner encoder) relay) (Steady encoder .unknown filterOf) .new
        bs single →
      (∀ x, grouped.serves x ↔ single.serves x) ∧
      grouped.shortfalls = [] ∧ single.shortfalls = [] ∧
      ∀ d ∈ history.getLast?.getD [], ∀ event, matchEvent search d.filter event = true →
        grouped.asks search d.id event ∧ single.asks search d.id event := by
  refine ⟨exists_run (fun _ _ nodup => StandardSubscriptionPlanner.plan_total nodup encodes) sets,
    exists_run (fun _ _ nodup => OnePerDemand.plan_total nodup) sets, ?_⟩
  intro as bs grouped single first second runs runs'
  have one := standard_policy.serving runs
  have two := single_policy.serving runs'
  rw [demanded_eq first] at one
  rw [demanded_eq second] at two
  refine ⟨fun x => (one.served x).trans (two.served x).symm, one.whole, two.whole, ?_⟩
  intro d hd event wants
  have keeps : d.filter = filterOf d.id := by
    cases last : history.getLast? with
    | none => simp [last] at hd
    | some demand =>
      rw [last, Option.getD_some] at hd
      exact (sets demand (List.mem_of_getLast? last)).2.2 d hd
  rw [keeps] at wants
  exact ⟨one.covering.asks ((one.served d.id).mpr ⟨d, hd, rfl⟩) wants,
    two.covering.asks ((two.served d.id).mpr ⟨d, hd, rfl⟩) wants⟩

section Kinds

open StandardSubscriptionPlanner

def kindOf (x : DemandId) : Filter := (kindDemand x.owner x.owner).filter

theorem kinds_agree :
    ∃ as bs grouped single, as.map Pass.demand = [[kindDemand 1 1, kindDemand 2 2], [kindDemand 2 2]] ∧
      Run (Wire.step (StandardSubscriptionPlanner.planner kindsEncoder) "wss://relay")
        (Steady kindsEncoder .unknown kindOf) .new as grouped ∧
      Run (Wire.step (OnePerDemand.planner kindsEncoder) "wss://relay")
        (Steady kindsEncoder .unknown kindOf) .new bs single ∧
      (∀ x, grouped.serves x ↔ single.serves x) := by
  have sets : ∀ demand ∈ [[kindDemand 1 1, kindDemand 2 2], [kindDemand 2 2]],
      (ids demand).Nodup ∧ Distinguishes kindsEncoder demand ∧
        ∀ d ∈ demand, d.filter = kindOf d.id := by decide +kernel
  obtain ⟨⟨as, grouped, first, runs⟩, ⟨bs, single, second, runs'⟩, agree⟩ :=
    planners_agree (fun _ _ => true) kindOf (fun _ => ⟨_, rfl⟩) sets
  exact ⟨as, bs, grouped, single, first, runs, runs', (agree _ _ _ _ first second runs runs').1⟩

end Kinds

end Fava.Observe
