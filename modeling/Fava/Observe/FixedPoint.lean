import Fava.Lib.Text
import Fava.Observe.Replanning
import Mathlib.Algebra.Order.BigOperators.Group.List
import Mathlib.Algebra.Order.Group.Nat

namespace Fava.Observe

open Std Fava.Lib Fava.Nostr Fava.Relay Fava.Subscriptions StandardSubscriptionPlanner

variable {encoder : Encoder} {relay : RelayUrl} {constraints : RelayReadConstraints}
  {demand : List RelayDemand} {planned : List PlannedSubscription}
  {dropped large : List SubscriptionShortfall} {installed : InstalledSubscriptions} {w : Wire}
  {a : Pass} {as : List Pass} {plan : SubscriptionPlan} {id : SubscriptionId}
  {entry : InstalledSubscription} {d : RelayDemand} {x : DemandId} {revision : Nat}

/-- Every request can be encoded, and that of a union is no shorter than that of either
filter it unites. -/
structure Measures (encoder : Encoder) : Prop where
  encodes : ∀ filters, ∃ bytes, encoder.encodedBytes filters = .ok bytes
  grows : ∀ left right union bytes bytes' total, mergeOnSoleDifferingAxis left right = some union →
    encoder.encodedBytes [left] = .ok bytes → encoder.encodedBytes [right] = .ok bytes' →
      encoder.encodedBytes [union] = .ok total → bytes ≤ total ∧ bytes' ≤ total

/-- A request for this filter is larger than the relay takes. -/
def TooLarge (encoder : Encoder) (constraints : RelayReadConstraints) (f : Filter) : Prop :=
  ∃ bytes maximum, encoder.encodedBytes [f] = .ok bytes ∧
    constraints.maxMessageBytes = some maximum ∧ maximum < bytes

/-- What is left short by the splitting loop is too large alone. -/
theorem large_answering : Answering encoder constraints
    (fun c => c.2 ≠ [] ∧ ∀ d, c.2 = [d] → c.1 = d.filter)
    fun demand _ dropped => ∀ s ∈ dropped, ∃ d ∈ demand, d.id = s.demand ∧
      TooLarge encoder constraints d.filter where
  nil := by simp
  carried _ _ _ _ _ _ _ := by simp
  dropped filter d bytes maximum single encoded known beyond := by
    intro s hs
    rw [List.mem_singleton.mp hs]
    refine ⟨d, by simp, rfl, bytes, maximum, ?_, known, beyond⟩
    rw [← single.2 d rfl]
    exact encoded
  append first second planned planned' dropped dropped' one two := by
    intro s hs
    obtain hs | hs := List.mem_append.mp hs
    · obtain ⟨d, hd, large⟩ := one s hs
      exact ⟨d, by simp [hd], large⟩
    · obtain ⟨d, hd, large⟩ := two s hs
      exact ⟨d, by simp [hd], large⟩
  perm first second planned dropped same short := by
    intro s hs
    obtain ⟨d, hd, large⟩ := short s hs
    exact ⟨d, same.mem_iff.mp hd, large⟩

/-- A group of one demand is for that demand's own filter. -/
theorem group_single (distinct : Distinguishes encoder demand) :
    ∀ c ∈ group encoder demand constraints, c.2 ≠ [] ∧ ∀ d, c.2 = [d] → c.1 = d.filter := by
  have several : ∀ held held' : List RelayDemand, held ≠ [] → held' ≠ [] →
      ∀ d, held ++ held' ≠ [d] := by
    intro held held' filled filled' d single
    have total := congrArg List.length single
    rw [List.length_append, List.length_singleton] at total
    have := List.length_pos_iff.mpr filled
    have := List.length_pos_iff.mpr filled'
    omega
  refine group_forall distinct ?_ ?_ ?_
  · intro d _
    refine ⟨by simp, fun e same => ?_⟩
    rw [(List.cons.inj same).1]
  · intro filter held held' first second
    exact ⟨List.append_ne_nil_of_left_ne_nil first.1 _,
      fun d single => (several held held' first.1 second.1 d single).elim⟩
  · intro _ left right union _ first second
    exact ⟨List.append_ne_nil_of_left_ne_nil first.1 _,
      fun d single => (several left.2 right.2 first.1 second.1 d single).elim⟩

theorem none_answering : Answering encoder constraints (fun c => TooLarge encoder constraints c.1)
    fun _ planned _ => planned = [] where
  nil := rfl
  carried filter held bytes _ large encoded fits := by
    obtain ⟨bytes', maximum, encoded', known, beyond⟩ := large
    rw [encoded, Except.ok.injEq] at encoded'
    have := fits maximum known
    omega
  dropped _ _ _ _ _ _ _ _ := rfl
  append _ _ _ _ _ _ one two := by
    rw [one, two]
    rfl
  perm _ _ _ _ _ none := none

/-- Demand that is too large alone is too large together. -/
theorem group_tooLarge (measures : Measures encoder) (distinct : Distinguishes encoder demand)
    (large : ∀ d ∈ demand, TooLarge encoder constraints d.filter) :
    ∀ c ∈ group encoder demand constraints, TooLarge encoder constraints c.1 := by
  refine group_forall distinct large ?_ ?_
  · intro filter held held' first _
    exact first
  · rintro _ left right union merged ⟨bytes, maximum, encoded, known, beyond⟩
      ⟨bytes', -, encoded', -, -⟩
    obtain ⟨total, whole⟩ := measures.encodes [union]
    have longer := (measures.grows _ _ _ _ _ _ merged encoded encoded' whole).1
    exact ⟨total, maximum, whole, known, by omega⟩

/-- Where all that is pending is too large alone, nothing is opened. -/
theorem opens_nil_of_tooLarge (measures : Measures encoder)
    (distinct : Distinguishes encoder demand)
    (found : StandardSubscriptionPlanner.plan encoder relay demand constraints installed revision =
      .ok plan)
    (large : ∀ d ∈ pending demand constraints installed, TooLarge encoder constraints d.filter) :
    plan.opens = [] := by
  obtain ⟨candidates, short, rfl, answered⟩ := plan_answered distinct found
  have none := answered _ _ none_answering fun sub within => group_tooLarge measures
    (distinct.subset fun d hd => (mem_pending.mp (within d hd)).1.1) fun d hd => large d (within d hd)
  rw [none]
  unfold opening fitResidualCount
  simp only [assemble]
  split
  · rfl
  · simp [sortByFilters, foldIdenticalFilters]

/-- Where the declared number of subscriptions is running already, nothing is opened. -/
theorem opens_nil_of_full {maximum : Nat} (distinct : Distinguishes encoder demand)
    (found : StandardSubscriptionPlanner.plan encoder relay demand constraints installed revision =
      .ok plan) (known : constraints.maxSubscriptions = some maximum)
    (full : maximum ≤ (owners demand constraints installed).size) : plan.opens = [] := by
  obtain ⟨candidates, short, rfl, -⟩ := plan_answered distinct found
  have none : maximum - (owners demand constraints installed).size = 0 := by omega
  simp [assemble, opening, fitResidualCount, known, none, sortByFilters]

theorem fitResidualCount_full {running : Nat}
    (short : (fitResidualCount planned constraints running).2 ≠ []) :
    ∃ maximum, constraints.maxSubscriptions = some maximum ∧
      maximum ≤ running + (fitResidualCount planned constraints running).1.length := by
  unfold fitResidualCount at short ⊢
  cases known : constraints.maxSubscriptions with
  | none => simp [known] at short
  | some maximum =>
    simp only [known] at short ⊢
    have left : planned.drop (maximum - running) ≠ [] := by
      intro none
      simp [none] at short
    have more := List.length_pos_iff.mpr left
    rw [List.length_drop] at more
    refine ⟨maximum, rfl, ?_⟩
    rw [List.length_take]
    omega

/-- Pending demand is left short because it is too large, or because the declared number
of subscriptions is reached. -/
theorem short_reason (distinct : Distinguishes encoder demand)
    (found : StandardSubscriptionPlanner.plan encoder relay demand constraints installed revision =
      .ok plan) :
    (∃ maximum, constraints.maxSubscriptions = some maximum ∧
      maximum ≤ (owners demand constraints installed).size + plan.opens.length) ∨
    ∀ d ∈ pending demand constraints installed, d.id ∉ shares plan.opens →
      TooLarge encoder constraints d.filter := by
  have nodup : (ids (pending demand constraints installed)).Nodup :=
    pending_nodup (nodup_of_plan found)
  obtain ⟨candidates, large, rfl, answered⟩ := plan_answered distinct found
  have within : ∀ sub : List RelayDemand,
      (∀ d ∈ sub, d ∈ pending demand constraints installed) → Distinguishes encoder sub :=
    fun sub inside => distinct.subset fun d hd => (mem_pending.mp (inside d hd)).1.1
  have reasons := answered _ _ large_answering fun sub inside => group_single (within sub inside)
  have dealt := dealt_of_answered constraints (owners demand constraints installed).size nodup
    (answered (fun _ => True) _ dealt_answering fun _ _ _ _ => trivial)
  by_cases exhausted : (opening candidates constraints
      (owners demand constraints installed).size).2 = []
  · right
    intro d hd unserved
    rw [exhausted, List.append_nil] at dealt
    have among := dealt.mem_iff.mpr (mem_ids.mpr ⟨d, hd, rfl⟩)
    obtain served | short := List.mem_append.mp among
    · exact (unserved served).elim
    · obtain ⟨s, hs, eq⟩ := mem_named.mp short
      obtain ⟨e, he, same, tooLarge⟩ := reasons s hs
      rwa [List.inj_on_of_nodup_map nodup he hd (same.trans eq)] at tooLarge
  · left
    obtain ⟨maximum, known, full⟩ := fitResidualCount_full exhausted
    refine ⟨maximum, known, ?_⟩
    rwa [assemble, sortByFilters, (List.perm_insertionSort _ _).length_eq]

section Again

variable (owned : w.Owned) (distinct : Distinguishes encoder a.demand)
  (found : StandardSubscriptionPlanner.plan encoder relay a.demand a.constraints w.installed
    a.revision = .ok plan) (mints : w.mints plan a.names)
include owned distinct found mints

/-- Every subscription that runs after a pass serves demand the pass admits. -/
theorem Wire.Owned.wanted (here : (w.execute plan a.names).installed[id]? = some entry) :
    (∃ x, x ∈ entry.serves) ∧ ∀ x ∈ entry.serves,
      ∃ d ∈ (admitFilterLimits a.demand a.constraints).1, d.id = x := by
  obtain ⟨p, listed, rfl⟩ | ⟨before, -, -, filled, hosts⟩ :=
    (owned.executed distinct found mints).mp here
  · obtain ⟨opened, shortfalls, eq, -, carries⟩ := standard_answered distinct found
    have opens : plan.opens = opened := by rw [eq, assemble]
    have member := (List.of_mem_zip listed).2
    refine ⟨(carries p (opens ▸ member)).wanted, fun x hx => ?_⟩
    obtain ⟨short, -, dealt⟩ := plan_dealt distinct found
    obtain ⟨d, hd, eq⟩ := mem_ids.mp
      (dealt.mem_iff.mp (List.mem_append_left _ (mem_shares.mpr ⟨p, member, hx⟩)))
    exact ⟨d, mem_admissible.mpr (mem_pending.mp hd).1, eq⟩
  · refine ⟨filled, fun x hx => ?_⟩
    obtain ⟨d, hd, -, eq⟩ := (hosts x).mp hx
    exact ⟨d, hd, eq⟩

/-- So planning again for the same demand keeps all of them. -/
theorem Wire.Owned.kept (here : (w.execute plan a.names).installed[id]? = some entry) :
    ∃ serves : BTreeSet DemandId,
      (owners a.demand a.constraints (w.execute plan a.names).installed)[id]? = some serves ∧
        (∀ x ∈ entry.serves, x ∈ serves) ∧ ∀ x ∈ serves,
          ∃ d ∈ (admitFilterLimits a.demand a.constraints).1,
            hostFor d (w.execute plan a.names).installed = some id ∧ d.id = x := by
  have next := owned.execute distinct found mints
  obtain ⟨⟨x, hx⟩, wanted⟩ := owned.wanted distinct found mints here
  have hosts : ∀ x ∈ entry.serves, ∃ d ∈ (admitFilterLimits a.demand a.constraints).1,
      hostFor d (w.execute plan a.names).installed = some id ∧ d.id = x := by
    intro x hx
    obtain ⟨d, hd, rfl⟩ := wanted x hx
    exact ⟨d, hd, next.host here hx, rfl⟩
  obtain ⟨serves, kept⟩ := Option.isSome_iff_exists.mp (ExtTreeMap.mem_iff_isSome_getElem?.mp
    ((mem_survivingOwners here).mpr ⟨x, (next.owns here).mpr (hosts x hx)⟩))
  obtain ⟨entry', here', -, owns⟩ := survivingOwners_eq_some.mp kept
  rw [here, Option.some.injEq] at here'
  subst here'
  exact ⟨serves, kept, fun x hx => (owns x).mpr ((next.owns here).mpr (hosts x hx)),
    fun x hx => (next.owns here).mp ((owns x).mp hx)⟩

theorem Wire.Owned.closes_nil {again : SubscriptionPlan} {revision : Nat}
    (found' : StandardSubscriptionPlanner.plan encoder relay a.demand a.constraints
      (w.execute plan a.names).installed revision = .ok again) : again.close = [] := by
  obtain ⟨candidates, large, rfl, -⟩ := plan_answered distinct found'
  simp only [assemble]
  apply List.eq_nil_iff_forall_not_mem.mpr
  intro id dropped
  obtain ⟨⟨entry, here⟩, unowned⟩ := mem_withdrawals.mp dropped
  obtain ⟨serves, kept, -⟩ := owned.kept distinct found mints here
  apply unowned
  rw [ExtTreeMap.mem_iff_isSome_getElem?, kept]
  rfl

/-- As many subscriptions keep an owner as ran and were opened. -/
theorem Wire.Owned.size_le : (owners a.demand a.constraints w.installed).size + plan.opens.length ≤
    (owners a.demand a.constraints (w.execute plan a.names).installed).size := by
  have known : ∀ id ∈ (owners a.demand a.constraints w.installed).keys ++ a.names,
      id ∈ owners a.demand a.constraints (w.execute plan a.names).installed := by
    intro id member
    have runs : ∃ entry, (w.execute plan a.names).installed[id]? = some entry := by
      obtain old | new := List.mem_append.mp member
      · obtain ⟨serves, owners⟩ := Option.isSome_iff_exists.mp
          (ExtTreeMap.mem_iff_isSome_getElem?.mp (ExtTreeMap.mem_keys.mp old))
        obtain ⟨before, here, -⟩ := survivingOwners_eq_some.mp owners
        obtain ⟨opened, shortfalls, rfl, -, -⟩ := standard_answered distinct found
        exact ⟨_, (Wire.installed_execute owned.below mints).mpr
          (.inr ⟨before, serves, here, owners, rfl⟩)⟩
      · rw [← List.map_fst_zip mints.1.le] at new
        obtain ⟨⟨id, p⟩, listed, rfl⟩ := List.mem_map.mp new
        exact ⟨_, (owned.executed distinct found mints).mpr (.inl ⟨p, listed, rfl⟩)⟩
    obtain ⟨entry, here⟩ := runs
    obtain ⟨serves, kept, -⟩ := owned.kept distinct found mints here
    rw [ExtTreeMap.mem_iff_isSome_getElem?, kept]
    rfl
  have apart : ((owners a.demand a.constraints w.installed).keys ++ a.names).Nodup := by
    refine List.nodup_append.mpr ⟨ExtTreeMap.nodup_keys, mints.2.1.imp Nat.ne_of_lt, ?_⟩
    rintro id old _ new rfl
    obtain ⟨before, here⟩ := survivingOwners_known (ExtTreeMap.mem_keys.mp old)
    have below := owned.below id (by rw [ExtTreeMap.mem_iff_isSome_getElem?, here]; rfl)
    exact Nat.not_lt_of_le (mints.2.2 id new) below
  have counted := BTreeMap.length_le_size apart known
  rwa [List.length_append, ExtTreeMap.length_keys, mints.1] at counted

/-- Demand that is pending again was pending and left short. -/
theorem Wire.Owned.pending_again
    (hd : d ∈ pending a.demand a.constraints (w.execute plan a.names).installed) :
    d ∈ pending a.demand a.constraints w.installed ∧ d.id ∉ shares plan.opens := by
  have next := owned.execute distinct found mints
  obtain ⟨admitted, unhosted⟩ := mem_pending.mp hd
  have unserved : ∀ (id : SubscriptionId) (entry : InstalledSubscription),
      (w.execute plan a.names).installed[id]? = some entry → d.id ∉ entry.serves := by
    intro id entry here member
    rw [next.host here member] at unhosted
    cases unhosted
  constructor
  · refine mem_pending.mpr ⟨admitted, ?_⟩
    rw [Option.eq_none_iff_forall_ne_some]
    intro id hosted
    obtain ⟨before, serves, -, runs, member⟩ :=
      owned.hosted distinct found mints (mem_admissible.mpr admitted) hosted
    exact unserved id _ runs member
  · intro served
    obtain ⟨p, hp, member⟩ := mem_shares.mp served
    obtain ⟨id, listed⟩ := exists_name mints.1 hp
    exact unserved id _ ((owned.executed distinct found mints).mpr (.inl ⟨p, listed, rfl⟩)) member

theorem Wire.Owned.opens_nil (measures : Measures encoder) {again : SubscriptionPlan}
    {revision : Nat} (found' : StandardSubscriptionPlanner.plan encoder relay a.demand a.constraints
      (w.execute plan a.names).installed revision = .ok again) : again.opens = [] := by
  obtain ⟨maximum, known, full⟩ | large := short_reason distinct found
  · exact opens_nil_of_full distinct found' known
      (full.trans (owned.size_le distinct found mints))
  · refine opens_nil_of_tooLarge measures distinct found' fun d hd => ?_
    obtain ⟨before, unserved⟩ := owned.pending_again distinct found mints hd
    exact large d before unserved

/-- Demand that was left short stays short, or has joined a subscription that covers it. -/
theorem Wire.Owned.still_short {again : SubscriptionPlan} {revision : Nat} (measures : Measures encoder)
    (found' : StandardSubscriptionPlanner.plan encoder relay a.demand a.constraints
      (w.execute plan a.names).installed revision = .ok again) {s : SubscriptionShortfall}
    (hs : s ∈ plan.shortfalls) : (∃ s' ∈ again.shortfalls, s'.demand = s.demand) ∨
      ∃ d ∈ a.demand, d.id = s.demand ∧ ∃ (id : SubscriptionId) (att : AttributedSubscription),
        again.attribution[id]? = some att ∧ d.id ∈ att.serves ∧
          ∃ f ∈ att.filters, filterCovers f d.filter = true := by
  have next := owned.execute distinct found mints
  have nodup := nodup_of_plan found
  obtain ⟨opened, shortfalls, rfl, answers⟩ := answers distinct found
  obtain ⟨d, hd, same⟩ := answers.named s hs
  have opens := owned.opens_nil distinct found mints measures found'
  obtain ⟨opened', shortfalls', rfl, answers'⟩ := StandardSubscriptionPlanner.answers distinct found'
  simp only [assemble] at opens
  subst opens
  obtain ⟨p, hp, -⟩ | short | ⟨id, entry, here, joined⟩ := answers'.accounted d hd
  · cases hp
  · rw [same] at short
    exact .inl short
  · obtain ⟨e, he, hosted, eq⟩ := attach_joined.mp joined
    obtain rfl := List.inj_on_of_nodup_map nodup (mem_admissible.mp he).1 hd eq
    obtain ⟨pended, unserved⟩ := unserved_of_short distinct found hs he same
    -- It is served by nothing that runs, so it joined what covers it.
    obtain ⟨entry', here', serves | covers⟩ := hostFor_lawful e _ id hosted
    · obtain ⟨p, listed, rfl⟩ | ⟨before, -, -, -, hosts⟩ :=
        (owned.executed distinct found mints).mp here'
      · exact (unserved (mem_shares.mpr ⟨p, (List.of_mem_zip listed).2, serves⟩)).elim
      · obtain ⟨e', he', hosted', eq'⟩ := (hosts e.id).mp serves
        have unhosted := (mem_pending.mp pended).2
        rw [← List.inj_on_of_nodup_map nodup (mem_admissible.mp he').1 hd eq', hosted'] at unhosted
        cases unhosted
    · rw [here, Option.some.injEq] at here'
      subst here'
      obtain ⟨att, listed, member⟩ := Subscriptions.Answers.attached_served here joined
      have attributed := ExtTreeMap.mem_toList_iff_getElem?_eq_some.mp listed
      obtain ⟨serves, entry', -, here', rfl⟩ := attributed_eq_some.mp attributed
      rw [here, Option.some.injEq] at here'
      subst here'
      exact .inr ⟨e, hd, same, id, _, attributed, member, covers⟩

end Again

/-- A pass whose demand has distinct texts for distinct filters. -/
def Legible (encoder : Encoder) (_ : Wire) (a : Pass) : Prop := Distinguishes encoder a.demand

instance : ∀ (w : Wire) (a : Pass), Decidable (Legible encoder w a) :=
  fun _ a => inferInstanceAs (Decidable (Distinguishes encoder a.demand))

/-- Planning once more for what was planned changes nothing on the wire: nothing opens or
closes, what serves a demand keeps it, and what was short is short or has joined. -/
theorem replanning_settles (measures : Measures encoder)
    (run : Run (replan encoder relay) (Legible encoder) .new as w) (legible : Legible encoder w a)
    {w' : Wire} (stepped : replan encoder relay w a = some w') (revision : Nat) :
    ∃ again, StandardSubscriptionPlanner.plan encoder relay a.demand a.constraints w'.installed
        revision = .ok again ∧
      again.opens = [] ∧ again.close = [] ∧
      (∀ (id : SubscriptionId) (entry : InstalledSubscription), w'.installed[id]? = some entry →
        (∃ att : AttributedSubscription, again.attribution[id]? = some att ∧
          att.filters = entry.filters ∧ ∀ x ∈ entry.serves, x ∈ att.serves) ∧
        ∀ x ∈ entry.serves, ∀ (id' : SubscriptionId) (att : AttributedSubscription),
          again.attribution[id']? = some att → x ∈ att.serves → id' = id) ∧
      ∀ s ∈ w'.shortfalls, (∃ s' ∈ again.shortfalls, s'.demand = s.demand) ∨
        ∃ d ∈ a.demand, d.id = s.demand ∧ ∃ (id : SubscriptionId) (att : AttributedSubscription),
          again.attribution[id]? = some att ∧ d.id ∈ att.serves ∧
            ∃ f ∈ att.filters, filterCovers f d.filter = true := by
  have owned := owned_new.run run fun _ _ legible => legible
  obtain ⟨plan, found, mints, rfl⟩ := Wire.step_eq_some.mp stepped
  have next := owned.execute legible found mints
  have nodup := nodup_of_plan found
  obtain ⟨again, found'⟩ : ∃ again, StandardSubscriptionPlanner.plan encoder relay a.demand
      a.constraints (w.execute plan a.names).installed revision = .ok again :=
    plan_total nodup measures.encodes
  refine ⟨again, found', owned.opens_nil legible found mints measures found',
    owned.closes_nil legible found mints found', fun id entry here => ?_,
    fun s => owned.still_short legible found mints measures found'⟩
  have attributes : again.attribution = attributed a.constraints (w.execute plan a.names).installed
      (owners a.demand a.constraints (w.execute plan a.names).installed) := by
    obtain ⟨candidates, large, rfl, -⟩ := plan_answered legible found'
    rfl
  rw [attributes]
  constructor
  · obtain ⟨serves, kept, all, -⟩ := owned.kept legible found mints here
    exact ⟨_, attributed_eq_some.mpr ⟨serves, entry, kept, here, rfl⟩, rfl, all⟩
  · intro x hx id' att there member
    obtain ⟨serves, entry', owners, here', rfl⟩ := attributed_eq_some.mp there
    obtain ⟨entry', there', -, owns⟩ := survivingOwners_eq_some.mp owners
    obtain ⟨d, hd, hosted, rfl⟩ := (next.owns there').mp ((owns x).mp member)
    rw [next.host here hx, Option.some.injEq] at hosted
    exact hosted.symm

section Kinds

/-- The kinds a filter names. -/
def kindsOf (f : Filter) : List Kind := f.kinds.elim [] ExtTreeSet.toList

theorem kindsText_mono {f g : Filter} (sub : ∀ k ∈ kindsOf f, k ∈ kindsOf g) :
    (kindsText f).utf8ByteSize ≤ (kindsText g).utf8ByteSize := by
  have nodup : (kindsOf f).Nodup := by
    unfold kindsOf
    cases f.kinds with
    | none => exact .nil
    | some values => exact BTreeSet.nodup_toList
  obtain ⟨l, same, within⟩ := List.Nodup.subperm nodup fun k hk => sub k hk
  have shorter : ((kindsOf f).map fun k => (toString k).utf8ByteSize + 1).sum ≤
      ((kindsOf g).map fun k => (toString k).utf8ByteSize + 1).sum := by
    rw [← (same.map _).sum_eq]
    exact List.Sublist.sum_le_sum (within.map _) fun _ _ => Nat.zero_le _
  have texts : ∀ f : Filter, (kindsText f).utf8ByteSize = "\x7b\"kinds\":[".utf8ByteSize +
      (((kindsOf f).map fun k => (toString k).utf8ByteSize + 1).sum - 1) +
        "]\x7d".utf8ByteSize := by
    intro f
    rw [kindsText, String.utf8ByteSize_append, String.utf8ByteSize_append,
      utf8ByteSize_intercalate (by decide), List.map_map]
    rfl
  rw [texts, texts]
  exact Nat.add_le_add_right (Nat.add_le_add_left (Nat.sub_le_sub_right shorter 1) _) _

theorem kindsOf_merge {left right union : Filter}
    (merged : mergeOnSoleDifferingAxis left right = some union) :
    (∀ k ∈ kindsOf left, k ∈ kindsOf union) ∧ ∀ k ∈ kindsOf right, k ∈ kindsOf union := by
  obtain ⟨-, -, united⟩ := merge_cases merged
  have same : union.kinds = left.kinds → left.kinds = right.kinds →
      (∀ k ∈ kindsOf left, k ∈ kindsOf union) ∧ ∀ k ∈ kindsOf right, k ∈ kindsOf union := by
    intro kept alike
    simp only [kindsOf, kept, alike]
    exact ⟨fun _ hk => hk, fun _ hk => hk⟩
  obtain ⟨-, alike, -, h⟩ | ⟨-, alike, -, h⟩ | ⟨-, -, -, h⟩ | ⟨name, -, -, alike, -, h⟩ := united
  · obtain ⟨values, -, rfl⟩ := Option.map_eq_some_iff.mp h
    exact same rfl alike
  · obtain ⟨values, -, rfl⟩ := Option.map_eq_some_iff.mp h
    exact same rfl alike
  · obtain ⟨values, union, rfl⟩ := Option.map_eq_some_iff.mp h
    simp only [unionConstrained, Option.bind_eq_bind, Option.bind_eq_some_iff,
      Option.some.injEq] at union
    obtain ⟨lefts, hl, rights, hr, rfl⟩ := union
    simp only [kindsOf, (constrained_eq_some hl).1, (constrained_eq_some hr).1, Option.elim_some,
      ExtTreeSet.mem_toList, ExtTreeSet.mem_union_iff]
    exact ⟨fun _ hk => .inl hk, fun _ hk => .inr hk⟩
  · simp only [unionTag, Option.bind_eq_bind, Option.bind_eq_some_iff, Option.some.injEq] at h
    obtain ⟨lefts, -, rights, -, rfl⟩ := h
    exact same rfl alike

theorem kinds_measures : Measures kindsEncoder where
  encodes filters := ⟨_, rfl⟩
  grows left right union bytes bytes' total merged hl hr hu := by
    obtain ⟨first, second⟩ := kindsOf_merge merged
    simp only [kindsEncoder, List.map_cons, List.map_nil, List.sum_cons, List.sum_nil,
      Except.ok.injEq] at hl hr hu
    subst hl hr hu
    exact ⟨Nat.add_le_add_left (Nat.add_le_add_right (Nat.add_le_add_right
        (kindsText_mono first) _) _) _, Nat.add_le_add_left (Nat.add_le_add_right
        (Nat.add_le_add_right (kindsText_mono second) _) _) _⟩

/-- A relay that takes one small request. -/
def smallRelay : RelayReadConstraints :=
  { RelayReadConstraints.unknown with maxSubscriptions := some 1, maxMessageBytes := some 45 }

def tightPass : Pass := ⟨[kindDemand 1 1, kindDemand 2 2], smallRelay, 1, [0]⟩

theorem tight_pass_settles :
    ∃ w again, replan kindsEncoder "wss://relay" .new tightPass = some w ∧
      StandardSubscriptionPlanner.plan kindsEncoder "wss://relay" tightPass.demand smallRelay
        w.installed 2 = .ok again ∧ again.opens = [] ∧ again.close = [] := by
  have runs : (replan kindsEncoder "wss://relay" .new tightPass).isSome = true := by decide +kernel
  obtain ⟨w, stepped⟩ := Option.isSome_iff_exists.mp runs
  have legible : Legible kindsEncoder .new tightPass := by decide +kernel
  obtain ⟨again, found, opens, close, -⟩ :=
    replanning_settles kinds_measures .nil legible stepped 2
  exact ⟨w, again, stepped, found, opens, close⟩

end Kinds

end Fava.Observe
