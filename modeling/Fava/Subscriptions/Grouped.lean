import Fava.Subscriptions.Coverage
import Mathlib.Data.List.Induction

namespace Fava.Subscriptions

open Std Fava.Lib

variable {encoder : Encoder} {constraints : RelayReadConstraints}
  {demand demand' : List RelayDemand} {candidates merged : List Candidate}

/-- The filters of this demand have distinct texts. -/
def Distinguishes (encoder : Encoder) (demand : List RelayDemand) : Prop :=
  ∀ a ∈ demand, ∀ b ∈ demand,
    encoder.canonicalEncoding a.filter = encoder.canonicalEncoding b.filter → a.filter = b.filter

def members (candidates : List Candidate) : List RelayDemand := candidates.flatMap Prod.snd

/-- Candidates that share out the demand exactly, each asking for everything its
members ask for. -/
structure Grouped (demand : List RelayDemand) (candidates : List Candidate) : Prop where
  shared : (members candidates).Perm demand
  inhabited : ∀ c ∈ candidates, c.2 ≠ []
  covering : ∀ c ∈ candidates, ∀ d ∈ c.2, filterCovers c.1 d.filter = true

theorem Distinguishes.subset (distinct : Distinguishes encoder demand)
    (sub : ∀ d ∈ demand', d ∈ demand) : Distinguishes encoder demand' :=
  fun a ha b hb => distinct a (sub a ha) b (sub b hb)

theorem canonicalOrder_perm : (canonicalOrder encoder demand).Perm demand :=
  List.perm_insertionSort _ _

/-- What holds of the buckets after some of the demand has been put into them. -/
structure Bucketed (encoder : Encoder) (demand : List RelayDemand)
    (buckets : List (String × Candidate)) : Prop where
  shared : (buckets.flatMap fun b => b.2.2).Perm demand
  inhabited : ∀ b ∈ buckets, b.2.2 ≠ []
  same : ∀ b ∈ buckets, b.1 = encoder.canonicalEncoding b.2.1 ∧ ∀ d ∈ b.2.2, d.filter = b.2.1

theorem Bucketed.add {buckets : List (String × Candidate)} {item : RelayDemand}
    (distinct : Distinguishes encoder (demand ++ [item]))
    (bucketed : Bucketed encoder demand buckets) :
    Bucketed encoder (demand ++ [item])
      (upsert (fun b => b.1 = encoder.canonicalEncoding item.filter)
        (fun b => (b.1, b.2.1, b.2.2 ++ [item]))
        (encoder.canonicalEncoding item.filter, item.filter, [item]) buckets) where
  shared := by
    refine (flatMap_upsert_perm fun c _ _ => List.perm_append_comm).trans ?_
    refine (bucketed.shared.append_left _).trans ?_
    exact List.perm_append_comm
  inhabited b member := by
    obtain old | ⟨rfl, -⟩ | ⟨c, -, -, rfl⟩ := mem_upsert member
    · exact bucketed.inhabited b old
    · simp
    · simp
  same b member := by
    obtain old | ⟨rfl, -⟩ | ⟨c, hc, hit, rfl⟩ := mem_upsert member
    · exact bucketed.same b old
    · exact ⟨rfl, by simp⟩
    · obtain ⟨key, filters⟩ := bucketed.same c hc
      refine ⟨key, fun d hd => ?_⟩
      obtain old | new := List.mem_append.mp hd
      · exact filters d old
      · obtain ⟨first, held⟩ := List.exists_mem_of_ne_nil _ (bucketed.inhabited c hc)
        have among : first ∈ demand :=
          bucketed.shared.mem_iff.mp (List.mem_flatMap.mpr ⟨c, hc, held⟩)
        rw [List.mem_singleton.mp new, ← filters first held]
        refine distinct item (by simp) first (by simp [among]) ?_
        rw [filters first held, ← key]
        simpa using (of_decide_eq_true hit).symm

theorem bucketByFilter_bucketed (distinct : Distinguishes encoder demand) :
    ∃ buckets, Bucketed encoder demand buckets ∧
      bucketByFilter encoder demand = buckets.map Prod.snd := by
  refine ⟨_, ?_, rfl⟩
  induction demand using List.reverseRecOn with
  | nil => exact ⟨.nil, by simp, by simp⟩
  | append_singleton demand item ih =>
    rw [List.foldl_append]
    exact (ih (distinct.subset fun d hd => List.mem_append_left _ hd)).add distinct

theorem bucketByFilter_members (distinct : Distinguishes encoder demand) :
    (members (bucketByFilter encoder demand)).Perm demand := by
  obtain ⟨buckets, bucketed, eq⟩ := bucketByFilter_bucketed distinct
  rw [eq]
  simpa only [members, List.flatMap_map] using bucketed.shared

theorem members_cons {c : Candidate} : members (c :: candidates) = c.2 ++ members candidates := rfl

theorem foldIdenticalUnions_append_singleton {candidate : Candidate} :
    foldIdenticalUnions (candidates ++ [candidate]) = upsert (fun c => c.1 = candidate.1)
      (fun c => (c.1, c.2 ++ candidate.2)) candidate (foldIdenticalUnions candidates) := by
  unfold foldIdenticalUnions
  rw [List.foldl_append, List.foldl_cons, List.foldl_nil]

theorem foldIdenticalUnions_members :
    (members (foldIdenticalUnions candidates)).Perm (members candidates) := by
  induction candidates using List.reverseRecOn with
  | nil => exact .nil
  | append_singleton candidates candidate ih =>
    rw [foldIdenticalUnions_append_singleton]
    refine (flatMap_upsert_perm fun c _ _ => List.perm_append_comm).trans ?_
    refine (ih.append_left _).trans ?_
    simpa [members] using List.perm_append_comm

theorem mergeInto_members {left : Candidate} {bounds : QueryBounds}
    (h : mergeInto left bounds candidates = some merged) :
    (members merged).Perm (members (left :: candidates)) := by
  induction candidates generalizing merged with
  | nil => cases h
  | cons right rest ih =>
    rw [mergeInto] at h
    split at h
    · cases h
      simp only [members_cons, List.append_assoc]
      exact .refl _
    · split at h
      · rename_i joined others found
        cases h
        have swapped := (ih found).append_left right.2
        simp only [members_cons] at swapped ⊢
        exact (List.perm_append_comm_assoc _ _ _).trans
          (swapped.trans (List.perm_append_comm_assoc _ _ _))
      · cases h

theorem mergeFirstPair_members (h : mergeFirstPair candidates = some merged) :
    (members merged).Perm (members candidates) := by
  induction candidates generalizing merged with
  | nil => cases h
  | cons left rest ih =>
    rw [mergeFirstPair] at h
    split at h
    · rename_i joined found
      cases h
      obtain ⟨bounds, -, found⟩ := Option.bind_eq_some_iff.mp found
      exact mergeInto_members found
    · obtain ⟨later, found, rfl⟩ := Option.map_eq_some_iff.mp h
      exact (ih found).append_left left.2

theorem mergeToFixedPoint_members {rounds : Nat} :
    (members (mergeToFixedPoint rounds candidates)).Perm (members candidates) := by
  induction rounds generalizing candidates with
  | zero => exact .refl _
  | succ rounds ih =>
    rw [mergeToFixedPoint]
    split
    · rename_i merged found
      exact ih.trans (mergeFirstPair_members found)
    · exact .refl _

/-- Grouping deals out the demand, each once. -/
theorem group_members (distinct : Distinguishes encoder demand) :
    (members (group encoder demand constraints)).Perm demand := by
  have ordered : (canonicalOrder encoder demand).Perm demand := canonicalOrder_perm
  have bucketed := (bucketByFilter_members
    (distinct.subset fun d hd => ordered.mem_iff.mp hd)).trans ordered
  refine foldIdenticalUnions_members.trans ?_
  split
  · exact mergeToFixedPoint_members.trans bucketed
  · exact bucketed

section Kept

variable {P : Candidate → Prop}
  (fold : ∀ filter held held', P (filter, held) → P (filter, held') → P (filter, held ++ held'))
  (merge : ∀ left right union, mergeOnSoleDifferingAxis left.1 right.1 = some union →
    P left → P right → P (union, left.2 ++ right.2))

include fold in
theorem forall_of_alike {filter : Filter} {held : List RelayDemand}
    (single : ∀ d ∈ held, P (d.filter, [d])) (inhabited : held ≠ [])
    (alike : ∀ d ∈ held, d.filter = filter) : P (filter, held) := by
  induction held with
  | nil => exact (inhabited rfl).elim
  | cons d held ih =>
    have first : P (filter, [d]) := alike d (by simp) ▸ single d (by simp)
    by_cases last : held = []
    · rw [last]
      exact first
    · exact fold filter [d] held first
        (ih (fun e he => single e (by simp [he])) last fun e he => alike e (by simp [he]))

include fold in
theorem bucketByFilter_forall (distinct : Distinguishes encoder demand)
    (single : ∀ d ∈ demand, P (d.filter, [d])) : ∀ c ∈ bucketByFilter encoder demand, P c := by
  obtain ⟨buckets, bucketed, eq⟩ := bucketByFilter_bucketed distinct
  intro c hc
  rw [eq] at hc
  obtain ⟨b, hb, rfl⟩ := List.mem_map.mp hc
  refine forall_of_alike fold (fun d hd => single d ?_) (bucketed.inhabited b hb)
    (bucketed.same b hb).2
  exact bucketed.shared.mem_iff.mp (List.mem_flatMap.mpr ⟨b, hb, hd⟩)

include fold in
theorem foldIdenticalUnions_forall (all : ∀ c ∈ candidates, P c) :
    ∀ c ∈ foldIdenticalUnions candidates, P c := by
  induction candidates using List.reverseRecOn with
  | nil => exact all
  | append_singleton candidates candidate ih =>
    have before := ih fun c hc => all c (by simp [hc])
    have last := all candidate (by simp)
    rw [foldIdenticalUnions_append_singleton]
    intro c hc
    obtain old | ⟨rfl, -⟩ | ⟨e, he, hit, rfl⟩ := mem_upsert hc
    · exact before c old
    · exact last
    · have same : e.1 = candidate.1 := of_decide_eq_true hit
      apply fold
      · exact before e he
      · rw [same]
        exact last

include merge in
theorem mergeInto_forall {left : Candidate} {bounds : QueryBounds}
    (h : mergeInto left bounds candidates = some merged) (first : P left)
    (all : ∀ c ∈ candidates, P c) : ∀ c ∈ merged, P c := by
  induction candidates generalizing merged with
  | nil => cases h
  | cons right rest ih =>
    rw [List.forall_mem_cons] at all
    rw [mergeInto] at h
    split at h
    · rename_i union joined
      cases h
      rw [Option.ite_none_right_eq_some] at joined
      exact List.forall_mem_cons.mpr ⟨merge _ _ _ joined.2 first all.1, all.2⟩
    · split at h
      · rename_i joined others found
        cases h
        have kept := List.forall_mem_cons.mp (ih found all.2)
        exact List.forall_mem_cons.mpr ⟨kept.1, List.forall_mem_cons.mpr ⟨all.1, kept.2⟩⟩
      · cases h

include merge in
theorem mergeFirstPair_forall (h : mergeFirstPair candidates = some merged)
    (all : ∀ c ∈ candidates, P c) : ∀ c ∈ merged, P c := by
  induction candidates generalizing merged with
  | nil => cases h
  | cons left rest ih =>
    rw [List.forall_mem_cons] at all
    rw [mergeFirstPair] at h
    split at h
    · rename_i joined found
      cases h
      obtain ⟨bounds, -, found⟩ := Option.bind_eq_some_iff.mp found
      exact mergeInto_forall merge found all.1 all.2
    · obtain ⟨later, found, rfl⟩ := Option.map_eq_some_iff.mp h
      exact List.forall_mem_cons.mpr ⟨all.1, ih found all.2⟩

include merge in
theorem mergeToFixedPoint_forall {rounds : Nat} (all : ∀ c ∈ candidates, P c) :
    ∀ c ∈ mergeToFixedPoint rounds candidates, P c := by
  induction rounds generalizing candidates with
  | zero => exact all
  | succ rounds ih =>
    rw [mergeToFixedPoint]
    split
    · rename_i merged found
      exact ih (mergeFirstPair_forall merge found all)
    · exact all

end Kept

/-- What holds of every demand alone, of two candidates with one filter together, and
of two that merge, holds of every group. Nothing merges under a default limit. -/
theorem group_forall {P : Candidate → Prop} (distinct : Distinguishes encoder demand)
    (single : ∀ d ∈ demand, P (d.filter, [d]))
    (fold : ∀ filter held held', P (filter, held) → P (filter, held') → P (filter, held ++ held'))
    (merge : constraints.defaultFilterLimit = none → ∀ left right union,
      mergeOnSoleDifferingAxis left.1 right.1 = some union → P left → P right →
        P (union, left.2 ++ right.2)) : ∀ c ∈ group encoder demand constraints, P c := by
  have ordered : (canonicalOrder encoder demand).Perm demand := canonicalOrder_perm
  have bucketed := bucketByFilter_forall fold
    (distinct.subset fun d hd => ordered.mem_iff.mp hd) fun d hd => single d (ordered.mem_iff.mp hd)
  apply foldIdenticalUnions_forall fold
  split
  · rename_i undeclared
    exact mergeToFixedPoint_forall (merge undeclared) bucketed
  · exact bucketed

/-- Grouping loses no demand, and every group asks for all its members do. -/
theorem group_grouped (distinct : Distinguishes encoder demand) :
    Grouped demand (group encoder demand constraints) where
  shared := group_members distinct
  inhabited := by
    refine group_forall distinct (fun d _ => by simp) (fun filter held held' first _ => ?_)
      fun _ left right union _ first _ => ?_
    · exact List.append_ne_nil_of_left_ne_nil first _
    · exact List.append_ne_nil_of_left_ne_nil first _
  covering := by
    refine group_forall distinct ?_ ?_ ?_
    · intro d _ e he
      rw [List.mem_singleton.mp he]
      exact filterCovers_refl
    · intro filter held held' first second d hd
      exact (List.mem_append.mp hd).elim (first d) (second d)
    · intro _ left right union merged first second d hd
      obtain ⟨hl, hr⟩ := merge_covers merged
      obtain hd | hd := List.mem_append.mp hd
      · exact filterCovers_trans (filterCovers_iff.mpr (.inr hl)) (first d hd)
      · exact filterCovers_trans (filterCovers_iff.mpr (.inr hr)) (second d hd)

end Fava.Subscriptions
