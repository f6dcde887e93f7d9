import Mathlib.Data.List.Nodup

namespace Fava.Lib

variable {β κ κ' : Type} [DecidableEq κ] [DecidableEq κ'] {key : β → Option κ} {revise : β → Option β}
  {key' : β → Option κ'} {revise' : β → Option β} {p : β → Bool} {b : β} {k : κ} {l l' : List β}
  {seen seen' : List κ}

/-- Keep the first entry of every key as it is revised, drop the others of that key, and leave
what has no key where it is. -/
def settle (key : β → Option κ) (revise : β → Option β) : List κ → List β → List β
  | _, [] => []
  | seen, b :: rest =>
    match key b with
    | none => b :: settle key revise seen rest
    | some k =>
      if k ∈ seen then settle key revise seen rest
      else (revise b).toList ++ settle key revise (k :: seen) rest

/-- What is revised keeps its key. -/
def KeepsKey (key : β → Option κ) (revise : β → Option β) : Prop :=
  ∀ b c k, key b = some k → revise b = some c → key c = some k

def keyedBy (key : β → Option κ) (k : κ) (b : β) : Bool := key b = some k

theorem settle_cons_none (keyless : key b = none) :
    settle key revise seen (b :: l) = b :: settle key revise seen l := by
  rw [settle, keyless]

theorem settle_cons_seen (keyed : key b = some k) (before : k ∈ seen) :
    settle key revise seen (b :: l) = settle key revise seen l := by
  rw [settle, keyed]
  exact if_pos before

theorem settle_cons_new (keyed : key b = some k) (new : k ∉ seen) :
    settle key revise seen (b :: l) = (revise b).toList ++ settle key revise (k :: seen) l := by
  rw [settle, keyed]
  exact if_neg new

theorem settle_congr (same : ∀ k, k ∈ seen ↔ k ∈ seen') :
    settle key revise seen l = settle key revise seen' l := by
  induction l generalizing seen seen' with
  | nil => rfl
  | cons b l ih =>
    cases keyed : key b with
    | none => rw [settle_cons_none keyed, settle_cons_none keyed, ih same]
    | some k =>
      by_cases before : k ∈ seen
      · rw [settle_cons_seen keyed before, settle_cons_seen keyed ((same k).mp before), ih same]
      · rw [settle_cons_new keyed before, settle_cons_new keyed (mt (same k).mpr before)]
        congr 1
        apply ih
        intro j
        rw [List.mem_cons, List.mem_cons, same j]

theorem settle_append : settle key revise seen (l ++ l') =
    settle key revise seen l ++ settle key revise (l.filterMap key ++ seen) l' := by
  induction l generalizing seen with
  | nil => rfl
  | cons b l ih =>
    rw [List.cons_append]
    cases keyed : key b with
    | none => rw [settle_cons_none keyed, settle_cons_none keyed, List.filterMap_cons_none keyed, ih]; rfl
    | some k =>
      rw [List.filterMap_cons_some keyed]
      by_cases before : k ∈ seen
      · rw [settle_cons_seen keyed before, settle_cons_seen keyed before, ih]
        congr 1
        apply settle_congr
        intro j
        simp only [List.cons_append, List.mem_cons, List.mem_append]
        constructor
        · exact .inr
        · rintro (rfl | here)
          · exact .inr before
          · exact here
      · rw [settle_cons_new keyed before, settle_cons_new keyed before, ih, List.append_assoc]
        congr 2
        apply settle_congr
        intro j
        simp only [List.cons_append, List.mem_cons, List.mem_append]
        exact or_left_comm

/-- What the keys are called does not matter. -/
theorem settle_rekey {f : κ → κ'} (injective : Function.Injective f) (renamed : ∀ b, key' b = (key b).map f) :
    settle key' revise (seen.map f) l = settle key revise seen l := by
  induction l generalizing seen with
  | nil => rfl
  | cons b l ih =>
    cases keyed : key b with
    | none =>
      have keyed' : key' b = none := by rw [renamed, keyed]; rfl
      rw [settle_cons_none keyed, settle_cons_none keyed', ih]
    | some k =>
      have keyed' : key' b = some (f k) := by rw [renamed, keyed]; rfl
      have same : f k ∈ seen.map f ↔ k ∈ seen := List.mem_map_of_injective injective
      by_cases before : k ∈ seen
      · rw [settle_cons_seen keyed before, settle_cons_seen keyed' (same.mpr before), ih]
      · rw [settle_cons_new keyed before, settle_cons_new keyed' (mt same.mp before), ← ih]
        rfl

/-- An entry that stays has no key, or is what the first entry of its key was revised to. -/
theorem mem_settle (listed : b ∈ settle key revise seen l) :
    (b ∈ l ∧ key b = none) ∨ ∃ c ∈ l, ∃ k, key c = some k ∧ k ∉ seen ∧ revise c = some b := by
  induction l generalizing seen with
  | nil => cases listed
  | cons a l ih =>
    have later {seen : List κ} (listed : b ∈ settle key revise seen l) :
        (b ∈ a :: l ∧ key b = none) ∨
          ∃ c ∈ a :: l, ∃ k, key c = some k ∧ k ∉ seen ∧ revise c = some b := by
      obtain ⟨here, keyless⟩ | ⟨c, here, keyed⟩ := ih listed
      · exact .inl ⟨List.mem_cons_of_mem _ here, keyless⟩
      · exact .inr ⟨c, List.mem_cons_of_mem _ here, keyed⟩
    cases keyed : key a with
    | none =>
      rw [settle_cons_none keyed] at listed
      obtain rfl | listed := List.mem_cons.mp listed
      · exact .inl ⟨List.mem_cons_self, keyed⟩
      · exact later listed
    | some k =>
      by_cases before : k ∈ seen
      · rw [settle_cons_seen keyed before] at listed
        exact later listed
      · rw [settle_cons_new keyed before, List.mem_append, Option.mem_toList] at listed
        obtain revised | listed := listed
        · exact .inr ⟨a, List.mem_cons_self, k, keyed, before, revised⟩
        · obtain keyless | ⟨c, here, j, keyed, new, revised⟩ := later listed
          · exact .inl keyless
          · exact .inr ⟨c, here, j, keyed, fun seen => new (List.mem_cons_of_mem _ seen), revised⟩

/-- Where revising is done once, an entry with a key needs no revision. -/
theorem revised_of_settle
    (again : ∀ b c k, key b = some k → revise b = some c → revise c = some c)
    (listed : b ∈ settle key revise seen l) (keyed : key b = some k) : revise b = some b := by
  obtain ⟨-, keyless⟩ | ⟨c, -, j, ckeyed, -, revised⟩ := mem_settle listed
  · rw [keyless] at keyed
    cases keyed
  · exact again c b j ckeyed revised

/-- Where no entry of a key stays, only what has no key does. -/
theorem settle_of_drop (drops : ∀ b k, key b = some k → revise b = none) :
    settle key revise seen l = l.filter (key · |>.isNone) := by
  induction l generalizing seen with
  | nil => rfl
  | cons b l ih =>
    cases keyed : key b with
    | none => rw [settle_cons_none keyed, ih, List.filter_cons_of_pos (by rw [keyed]; rfl)]
    | some k =>
      rw [List.filter_cons_of_neg (by rw [keyed]; exact Bool.false_ne_true)]
      by_cases before : k ∈ seen
      · rw [settle_cons_seen keyed before, ih]
      · rw [settle_cons_new keyed before, drops b k keyed, ih]
        rfl

/-- What is told apart from everything with a key is left alone. -/
theorem filter_settle (keeps : KeepsKey key revise) (away : ∀ b k, key b = some k → p b = false) :
    (settle key revise seen l).filter p = l.filter p := by
  induction l generalizing seen with
  | nil => rfl
  | cons b l ih =>
    cases keyed : key b with
    | none => rw [settle_cons_none keyed, List.filter_cons, List.filter_cons, ih]
    | some k =>
      rw [List.filter_cons_of_neg (by rw [away b k keyed]; exact Bool.false_ne_true)]
      by_cases before : k ∈ seen
      · rw [settle_cons_seen keyed before, ih]
      · rw [settle_cons_new keyed before, List.filter_append, ih]
        cases revised : revise b with
        | none => rfl
        | some c =>
          have other := away c k (keeps b c k keyed revised)
          rw [Option.toList_some, List.filter_cons_of_neg (by rw [other]; exact Bool.false_ne_true)]
          rfl

theorem keyedBy_iff : keyedBy key k b = true ↔ key b = some k := decide_eq_true_iff

theorem keyedBy_of_none (keyless : key b = none) : ¬keyedBy key k b = true := by
  rw [keyedBy_iff, keyless]
  nofun

theorem keyedBy_of_ne {j : κ} (keyed : key b = some j) (other : j ≠ k) : ¬keyedBy key k b = true := by
  rw [keyedBy_iff, keyed, Option.some.injEq]
  exact other

/-- Of a key that was not seen before, what stays is what its first entry is revised to. -/
theorem filter_settle_key (keeps : KeepsKey key revise) :
    (settle key revise seen l).filter (keyedBy key k) =
      if k ∈ seen then [] else ((l.find? (keyedBy key k)).bind revise).toList := by
  induction l generalizing seen with
  | nil => split <;> rfl
  | cons b l ih =>
    cases keyed : key b with
    | none =>
      have other := keyedBy_of_none (k := k) keyed
      rw [settle_cons_none keyed, List.filter_cons_of_neg other, ih, List.find?_cons_of_neg other]
    | some j =>
      by_cases before : j ∈ seen
      · rw [settle_cons_seen keyed before, ih]
        split
        · rfl
        · rename_i new
          have other : j ≠ k := by
            rintro rfl
            exact new before
          rw [List.find?_cons_of_neg (keyedBy_of_ne keyed other)]
      · rw [settle_cons_new keyed before, List.filter_append, ih]
        by_cases here : j = k
        · subst here
          have kept : (revise b).toList.filter (keyedBy key j) = (revise b).toList := by
            refine List.filter_eq_self.mpr fun c revised => ?_
            exact keyedBy_iff.mpr (keeps b c j keyed (Option.mem_toList.mp revised))
          rw [kept, if_pos List.mem_cons_self, if_neg before, List.append_nil,
            List.find?_cons_of_pos (keyedBy_iff.mpr keyed)]
          rfl
        · have gone : (revise b).toList.filter (keyedBy key k) = [] := by
            refine List.filter_eq_nil_iff.mpr fun c revised => ?_
            exact keyedBy_of_ne (keeps b c j keyed (Option.mem_toList.mp revised)) here
          have same : k ∈ j :: seen ↔ k ∈ seen := List.mem_cons.trans (or_iff_right (Ne.symm here))
          rw [gone, List.nil_append, List.find?_cons_of_neg (keyedBy_of_ne keyed here)]
          exact if_congr same rfl rfl

theorem nodup_settle (keeps : KeepsKey key revise) :
    ((settle key revise seen l).filterMap key).Nodup := by
  induction l generalizing seen with
  | nil => exact List.nodup_nil
  | cons b l ih =>
    cases keyed : key b with
    | none =>
      rw [settle_cons_none keyed, List.filterMap_cons_none keyed]
      exact ih
    | some k =>
      by_cases before : k ∈ seen
      · rw [settle_cons_seen keyed before]
        exact ih
      · rw [settle_cons_new keyed before, List.filterMap_append]
        cases revised : revise b with
        | none => exact ih
        | some c =>
          rw [Option.toList_some, List.filterMap_cons_some (keeps b c k keyed revised)]
          refine List.nodup_cons.mpr ⟨fun again => ?_, ih⟩
          obtain ⟨d, listed, keyed⟩ := List.mem_filterMap.mp again
          obtain ⟨-, keyless⟩ | ⟨e, -, j, ekeyed, new, erevised⟩ := mem_settle listed
          · rw [keyless] at keyed
            cases keyed
          · rw [keeps e d j ekeyed erevised] at keyed
            cases keyed
            exact new List.mem_cons_self

/-- A list that is settled stays as it is. -/
theorem settle_fixed (fixed : ∀ b ∈ l, ∀ k, key b = some k → k ∉ seen ∧ revise b = some b)
    (nodup : (l.filterMap key).Nodup) : settle key revise seen l = l := by
  induction l generalizing seen with
  | nil => rfl
  | cons b l ih =>
    rw [List.forall_mem_cons] at fixed
    cases keyed : key b with
    | none =>
      rw [List.filterMap_cons_none keyed] at nodup
      rw [settle_cons_none keyed, ih fixed.2 nodup]
    | some k =>
      rw [List.filterMap_cons_some keyed, List.nodup_cons] at nodup
      obtain ⟨new, same⟩ := fixed.1 k keyed
      rw [settle_cons_new keyed new, same, ih ?_ nodup.2]
      · rfl
      · intro c listed j ckeyed
        refine ⟨fun seen => ?_, (fixed.2 c listed j ckeyed).2⟩
        obtain rfl | seen := List.mem_cons.mp seen
        · exact nodup.1 (List.mem_filterMap.mpr ⟨c, listed, ckeyed⟩)
        · exact (fixed.2 c listed j ckeyed).1 seen

theorem settle_of_none (keyless : ∀ b ∈ l, key b = none) : settle key revise seen l = l := by
  refine settle_fixed (fun b listed k keyed => ?_) ?_
  · rw [keyless b listed] at keyed
    cases keyed
  · rw [List.filterMap_eq_nil_iff.mpr keyless]
    exact List.nodup_nil

/-- Settling by keys that no entry has both of can be done in either order. -/
theorem settle_comm {seen' : List κ'} (keeps : KeepsKey key revise) (keeps' : KeepsKey key' revise')
    (apart : ∀ b, key b = none ∨ key' b = none) :
    settle key' revise' seen' (settle key revise seen l) =
      settle key revise seen (settle key' revise' seen' l) := by
  induction l generalizing seen seen' with
  | nil => rfl
  | cons b l ih =>
    cases keyed : key b with
    | some k =>
      have keyless : key' b = none := (apart b).resolve_left (by rw [keyed]; nofun)
      rw [settle_cons_none keyless]
      by_cases before : k ∈ seen
      · rw [settle_cons_seen keyed before, settle_cons_seen keyed before, ih]
      · rw [settle_cons_new keyed before, settle_cons_new keyed before, ← ih]
        cases revised : revise b with
        | none => rfl
        | some c =>
          have other : key' c = none :=
            (apart c).resolve_left (by rw [keeps b c k keyed revised]; nofun)
          exact settle_cons_none other
    | none =>
      rw [settle_cons_none keyed]
      cases keyed' : key' b with
      | none => rw [settle_cons_none keyed', settle_cons_none keyed', settle_cons_none keyed, ih]
      | some k =>
        by_cases before : k ∈ seen'
        · rw [settle_cons_seen keyed' before, settle_cons_seen keyed' before, ih]
        · rw [settle_cons_new keyed' before, settle_cons_new keyed' before, ih]
          cases revised : revise' b with
          | none => rfl
          | some c =>
            have other : key c = none :=
              (apart c).resolve_right (by rw [keeps' b c k keyed' revised]; nofun)
            exact (settle_cons_none other).symm

section Missing

/-- The keys that were not seen before, each where it comes first. -/
def missing : List κ → List κ → List κ
  | _, [] => []
  | seen, k :: keys => if k ∈ seen then missing seen keys else k :: missing (k :: seen) keys

variable {keys : List κ}

theorem missing_congr (same : ∀ k, k ∈ seen ↔ k ∈ seen') : missing seen keys = missing seen' keys := by
  induction keys generalizing seen seen' with
  | nil => rfl
  | cons k keys ih =>
    unfold missing
    by_cases before : k ∈ seen
    · rw [if_pos before, if_pos ((same k).mp before), ih same]
    · rw [if_neg before, if_neg (mt (same k).mpr before)]
      congr 1
      apply ih
      intro j
      rw [List.mem_cons, List.mem_cons, same j]

theorem missing_singleton : missing seen [k] = if k ∈ seen then [] else [k] := rfl

theorem mem_missing : k ∈ missing seen keys ↔ k ∈ keys ∧ k ∉ seen := by
  induction keys generalizing seen with
  | nil => exact iff_of_false List.not_mem_nil fun h => absurd h.1 List.not_mem_nil
  | cons j keys ih =>
    unfold missing
    split
    · rename_i before
      rw [ih, List.mem_cons]
      constructor
      · exact fun h => ⟨.inr h.1, h.2⟩
      · rintro ⟨rfl | here, new⟩
        · exact absurd before new
        · exact ⟨here, new⟩
    · rename_i first
      rw [List.mem_cons, ih, List.mem_cons, List.mem_cons, not_or]
      constructor
      · rintro (rfl | ⟨here, -, new⟩)
        · exact ⟨.inl rfl, first⟩
        · exact ⟨.inr here, new⟩
      · rintro ⟨rfl | here, new⟩
        · exact .inl rfl
        · by_cases same : k = j
          · exact .inl same
          · exact .inr ⟨here, same, new⟩

theorem nodup_missing : (missing seen keys).Nodup := by
  induction keys generalizing seen with
  | nil => exact List.nodup_nil
  | cons j keys ih =>
    unfold missing
    split
    · exact ih
    · exact List.nodup_cons.mpr ⟨fun again => (mem_missing.mp again).2 List.mem_cons_self, ih⟩

theorem missing_of_subset (subset : ∀ k ∈ keys, k ∈ seen) : missing seen keys = [] := by
  apply List.eq_nil_iff_forall_not_mem.mpr
  intro k listed
  obtain ⟨here, new⟩ := mem_missing.mp listed
  exact new (subset k here)

end Missing

section Filled

variable {make : κ → β} {keys : List κ}

/-- A list settled, and then an entry made for every wanted key that it did not have. -/
def filled (key : β → Option κ) (revise : β → Option β) (make : κ → β) (keys : List κ) (l : List β) :
    List β :=
  settle key revise [] l ++ (missing (l.filterMap key) keys).map make

/-- Revising is done once and keeps what is wanted, and the entries made need no revision. -/
structure Fills (key : β → Option κ) (revise : β → Option β) (make : κ → β) (keys : List κ) : Prop where
  keeps : KeepsKey key revise
  again : ∀ b c k, key b = some k → revise b = some c → revise c = some c
  wants : ∀ b k, key b = some k → k ∈ keys → ∃ c, revise b = some c
  makes : ∀ k ∈ keys, key (make k) = some k ∧ revise (make k) = some (make k)

theorem mem_filterMap_settle (keeps : KeepsKey key revise)
    (wanted : ∀ b, key b = some k → ∃ c, revise b = some c) (new : k ∉ seen)
    (here : k ∈ l.filterMap key) : k ∈ (settle key revise seen l).filterMap key := by
  have stays : (settle key revise seen l).filter (keyedBy key k) =
      ((l.find? (keyedBy key k)).bind revise).toList := (filter_settle_key keeps).trans (if_neg new)
  obtain ⟨b, listed, keyed⟩ := List.mem_filterMap.mp here
  cases found : l.find? (keyedBy key k) with
  | none => exact absurd (keyedBy_iff.mpr keyed) (List.find?_eq_none.mp found b listed)
  | some a =>
    obtain ⟨c, revised⟩ := wanted a (keyedBy_iff.mp (List.find?_some found))
    have one : c ∈ (settle key revise seen l).filter (keyedBy key k) := by
      rw [stays, found, Option.bind_some, revised]
      exact List.mem_singleton_self c
    obtain ⟨listed, keyed⟩ := List.mem_filter.mp one
    exact List.mem_filterMap.mpr ⟨c, listed, keyedBy_iff.mp keyed⟩

/-- Where no key comes twice, one entry has a key that comes. -/
theorem filter_of_nodup (nodup : (l.filterMap key).Nodup) (here : k ∈ l.filterMap key) :
    ∃ b ∈ l, key b = some k ∧ l.filter (keyedBy key k) = [b] := by
  induction l with
  | nil => cases here
  | cons b l ih =>
    cases keyed : key b with
    | none =>
      rw [List.filterMap_cons_none keyed] at nodup here
      obtain ⟨c, listed, ckeyed, one⟩ := ih nodup here
      refine ⟨c, List.mem_cons_of_mem _ listed, ckeyed, ?_⟩
      rw [List.filter_cons_of_neg (keyedBy_of_none keyed), one]
    | some j =>
      rw [List.filterMap_cons_some keyed] at nodup here
      rw [List.nodup_cons] at nodup
      by_cases same : j = k
      · subst same
        refine ⟨b, List.mem_cons_self, keyed, ?_⟩
        rw [List.filter_cons_of_pos (keyedBy_iff.mpr keyed)]
        refine congrArg (b :: ·) (List.filter_eq_nil_iff.mpr fun c listed ckeyed => ?_)
        exact nodup.1 (List.mem_filterMap.mpr ⟨c, listed, keyedBy_iff.mp ckeyed⟩)
      · obtain ⟨c, listed, ckeyed, one⟩ := ih nodup.2 ((List.mem_cons.mp here).resolve_left (Ne.symm same))
        refine ⟨c, List.mem_cons_of_mem _ listed, ckeyed, ?_⟩
        rw [List.filter_cons_of_neg (keyedBy_of_ne keyed same), one]

variable (fills : Fills key revise make keys)
include fills

theorem keys_filled : (filled key revise make keys l).filterMap key =
    (settle key revise [] l).filterMap key ++ missing (l.filterMap key) keys := by
  have made : ((missing (l.filterMap key) keys).map make).filterMap key =
      (missing (l.filterMap key) keys).filterMap some := by
    rw [List.filterMap_map]
    exact List.filterMap_congr fun k new => (fills.makes k (mem_missing.mp new).1).1
  rw [filled, List.filterMap_append, made, List.filterMap_some]

theorem nodup_filled : ((filled key revise make keys l).filterMap key).Nodup := by
  rw [keys_filled fills]
  refine List.nodup_append.mpr ⟨nodup_settle fills.keeps, nodup_missing, ?_⟩
  rintro k before _ new rfl
  obtain ⟨b, listed, keyed⟩ := List.mem_filterMap.mp before
  apply (mem_missing.mp new).2
  obtain ⟨-, keyless⟩ | ⟨c, here, j, ckeyed, -, revised⟩ := mem_settle listed
  · rw [keyless] at keyed
    cases keyed
  · rw [fills.keeps c b j ckeyed revised] at keyed
    cases keyed
    exact List.mem_filterMap.mpr ⟨c, here, ckeyed⟩

theorem mem_keys_filled (wanted : k ∈ keys) : k ∈ (filled key revise make keys l).filterMap key := by
  rw [keys_filled fills, List.mem_append]
  by_cases here : k ∈ l.filterMap key
  · left
    exact mem_filterMap_settle fills.keeps (fun b keyed => fills.wants b k keyed wanted) List.not_mem_nil here
  · exact .inr (mem_missing.mpr ⟨wanted, here⟩)

/-- Every entry is as it would be revised to. -/
theorem fixed_filled (listed : b ∈ filled key revise make keys l) (keyed : key b = some k) :
    revise b = some b := by
  obtain settled | made := List.mem_append.mp listed
  · exact revised_of_settle fills.again settled keyed
  · obtain ⟨j, new, rfl⟩ := List.mem_map.mp made
    exact (fills.makes j (mem_missing.mp new).1).2

theorem filled_filled : filled key revise make keys (filled key revise make keys l) =
    filled key revise make keys l := by
  have settled : settle key revise [] (filled key revise make keys l) = filled key revise make keys l :=
    settle_fixed (fun b listed k keyed => ⟨List.not_mem_nil, fixed_filled fills listed keyed⟩)
      (nodup_filled fills)
  have none : missing ((filled key revise make keys l).filterMap key) keys = [] :=
    missing_of_subset fun k wanted => mem_keys_filled fills wanted
  rw [filled, settled, none]
  exact List.append_nil _

/-- A wanted key has one entry, which needs no revision. -/
theorem filter_filled (wanted : k ∈ keys) : ∃ b, key b = some k ∧ revise b = some b ∧
    (filled key revise make keys l).filter (keyedBy key k) = [b] := by
  obtain ⟨b, listed, keyed, one⟩ := filter_of_nodup (nodup_filled fills) (mem_keys_filled fills wanted)
  exact ⟨b, keyed, fixed_filled fills listed keyed, one⟩

theorem filter_filled_away (away : ∀ b k, key b = some k → p b = false) :
    (filled key revise make keys l).filter p = l.filter p := by
  have none : ((missing (l.filterMap key) keys).map make).filter p = [] := by
    refine List.filter_eq_nil_iff.mpr fun b made => ?_
    obtain ⟨k, new, rfl⟩ := List.mem_map.mp made
    rw [away _ k (fills.makes k (mem_missing.mp new).1).1]
    exact Bool.false_ne_true
  unfold filled
  rw [List.filter_append, filter_settle fills.keeps away, none, List.append_nil]

omit fills

/-- Where nothing is wanted, no entry of a key stays whose entries are dropped. -/
theorem filter_filled_dropped (drops : ∀ b k, key b = some k → revise b = none) :
    (filled key revise make [] l).filter (keyedBy key k) = [] := by
  unfold filled
  rw [settle_of_drop drops, show missing (l.filterMap key) [] = [] from rfl, List.map_nil, List.append_nil,
    List.filter_filter, List.filter_eq_nil_iff]
  intro b _ both
  rw [Bool.and_eq_true, keyedBy_iff] at both
  rw [both.1] at both
  cases both.2

end Filled

section Flags

/-- A key for lists of which only one thing is asked. -/
def flag (p : β → Bool) (b : β) : Option Unit := if p b then some () else none

theorem flag_eq_some {u : Unit} : flag p b = some u ↔ p b = true := by
  unfold flag
  split
  · rename_i here
    exact iff_of_true rfl here
  · rename_i other
    exact iff_of_false nofun other

theorem flag_eq_none : flag p b = none ↔ p b = false := by
  unfold flag
  split
  · rename_i here
    exact iff_of_false nofun (by rw [here]; nofun)
  · rename_i other
    exact iff_of_true rfl (Bool.eq_false_iff.mpr other)

theorem keyedBy_flag : keyedBy (flag p) () = p := by
  funext b
  rw [Bool.eq_iff_iff, keyedBy_iff, flag_eq_some]

theorem filterMap_flag : l.filterMap (flag p) = (l.filter p).map fun _ => () := by
  induction l with
  | nil => rfl
  | cons b l ih =>
    cases here : p b with
    | true =>
      rw [List.filterMap_cons_some (flag_eq_some.mpr here), List.filter_cons_of_pos here, ih]
      rfl
    | false =>
      rw [List.filterMap_cons_none (flag_eq_none.mpr here), List.filter_cons_of_neg (by rw [here]; nofun), ih]

/-- A loop that revises the first entry it asks for, if it is to, and drops the others. -/
theorem foldl_settle {step : Bool × List β → β → Bool × List β} {first : Bool}
    (passes : ∀ s b, p b = false → step s b = (s.1, s.2 ++ [b]))
    (takes : ∀ s b, p b = true →
      step s b = if first && !s.1 then (true, s.2 ++ (revise b).toList) else s) :
    l.foldl step (false, []) =
      (first && l.any p, settle (flag p) (if first then revise else fun _ => none) [] l) := by
  suffices from_state : ∀ (found : Bool) (done : List β), (found = true → first = true) →
      l.foldl step (found, done) = (found || (first && l.any p),
        done ++ settle (flag p) (if first then revise else fun _ => none)
          (if found then [()] else []) l) from
    from_state false [] nofun
  induction l with
  | nil => intro found done _; simp [settle]
  | cons b l ih =>
    intro found done possible
    rw [List.foldl_cons, List.any_cons]
    cases here : p b with
    | false =>
      rw [passes _ b here, ih found _ possible, settle_cons_none (flag_eq_none.mpr here),
        Bool.false_or, List.append_assoc]
      rfl
    | true =>
      rw [takes _ b here]
      have keyed : flag p b = some () := flag_eq_some.mpr here
      cases first with
      | false =>
        obtain rfl : found = false := Bool.eq_false_iff.mpr fun found => nomatch possible found
        rw [Bool.false_and, if_neg Bool.false_ne_true, ih false done nofun]
        refine congrArg (Prod.mk false) (congrArg (done ++ ·) ?_)
        change settle (flag p) (fun _ => none) [] l = settle (flag p) (fun _ => none) [] (b :: l)
        rw [settle_cons_new keyed List.not_mem_nil, settle_of_drop fun _ _ _ => rfl,
          settle_of_drop fun _ _ _ => rfl]
        rfl
      | true =>
        cases found with
        | false =>
          rw [Bool.not_false, Bool.and_self, if_pos rfl, ih true _ fun _ => rfl, List.append_assoc]
          exact congrArg (Prod.mk true) (congrArg (done ++ ·)
            (settle_cons_new keyed List.not_mem_nil).symm)
        | true =>
          rw [Bool.not_true, Bool.and_false, if_neg Bool.false_ne_true, ih true done possible]
          exact congrArg (Prod.mk true) (congrArg (done ++ ·)
            (settle_cons_seen keyed List.mem_cons_self).symm)

end Flags

end Fava.Lib
