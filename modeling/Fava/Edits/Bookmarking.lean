import Fava.Edits.Bookmarks
import Fava.Lib.First
import Fava.Lib.Settle
import Fava.Lib.Text
import Fava.Write.Bytes

namespace Fava.Edits.Bookmarks

open Std Fava.Lib Fava.Nostr Fava.Write

variable {N : Library} {source source' tags : List Tag} {tag row : Tag} {target target' : Target}
  {change change' : Change}

/-- Identifiers and keys are read back from the text they are written as, which has no colon,
and no kind is both replaceable and addressable. -/
structure ReadsBack (N : Library) : Prop where
  id : ∀ bytes id, N.idFromSlice bytes = some id → N.idFromHex (N.idToHex id) = some id
  key : ∀ bytes key, N.keyFromSlice bytes = some key → N.keyFromHex (N.keyToHex key) = some key
  plain : ∀ key, ':' ∉ (N.keyToHex key).toList
  apart : ∀ kind, N.isAddressable kind = true → N.isReplaceable kind = false

/-- What may be bookmarked: an event, or a coordinate that can be one. -/
inductive Target.Valid (N : Library) : Target → Prop
  | event {id : EventId} {bytes : List UInt8} (read : N.idFromSlice bytes = some id) : Valid N (.event id)
  | coordinate {author : PublicKey} {kind : Kind} {identifier : Option String} {bytes : List UInt8}
    (read : N.keyFromSlice bytes = some author) (word : kind < 2 ^ 16)
    (valid : validateTargetCoordinate N (.replaceable author kind identifier) = .ok ()) :
    Valid N (.coordinate (.replaceable author kind identifier))

section Retained

/-- A tag is kept instead of the one that was to be kept. -/
def supersedes (tag current : Tag) : Bool :=
  current.length < tag.length || (tag.length = current.length && !(compare current tag).isLE)

theorem supersedes_iff : supersedes tag row = true ↔
    row.length < tag.length ∨ (tag.length = row.length ∧ compare row tag = .gt) := by
  simp only [supersedes, Bool.or_eq_true, Bool.and_eq_true, decide_eq_true_eq, Bool.not_eq_true',
    Ordering.isLE_eq_false]

theorem supersedes_irrefl (tag : Tag) : supersedes tag tag = false := by
  simp [supersedes]

theorem supersedes_trans (a b c : Tag) (first : supersedes a b = true) (second : supersedes b c = true) :
    supersedes a c = true := by
  rw [supersedes_iff] at first second ⊢
  obtain longer | ⟨same, greater⟩ := first <;> obtain longer' | ⟨same', greater'⟩ := second
  · exact .inl (by omega)
  · exact .inl (by omega)
  · exact .inl (by omega)
  · exact .inr ⟨same.trans same', TransCmp.gt_trans greater' greater⟩

/-- Of two different tags one is kept. -/
theorem eq_of_not_supersedes (first : supersedes tag row = false) (second : supersedes row tag = false) :
    tag = row := by
  rw [← Bool.not_eq_true, supersedes_iff, not_or, not_and] at first second
  have same : tag.length = row.length := by omega
  have below := first.2 same
  have above := second.2 same.symm
  cases compared : compare tag row with
  | eq => exact LawfulEqOrd.eq_of_compare compared
  | gt => exact absurd compared above
  | lt => exact absurd (OrientedCmp.gt_of_lt compared) below

theorem canonicalTag_eq : canonicalTag row tag = keepGreater supersedes tag (some row) := by
  unfold canonicalTag keepGreater
  dsimp only
  by_cases above : supersedes tag row = true
  · rw [if_pos above]
    rw [supersedes_iff] at above
    obtain longer | ⟨same, greater⟩ := above
    · rw [if_neg (by omega), if_neg (by omega)]
    · rw [if_neg (by omega), if_neg (by simp [greater])]
  · rw [if_neg above]
    rw [supersedes_iff, not_or, not_and] at above
    split
    · rfl
    · rw [if_pos ⟨by omega, Ordering.isLE_iff_ne_gt.mpr (above.2 (by omega))⟩]

theorem retainedTag_eq : retainedTag N source target =
    (source.filter (tagTargets N · target)).foldl (fun kept tag => some (keepGreater supersedes tag kept))
      none := by
  unfold retainedTag
  congr
  funext kept tag
  cases kept with
  | none => rfl
  | some row => exact congrArg some canonicalTag_eq

theorem retainedTag_eq_none : retainedTag N source target = none ↔
    source.filter (tagTargets N · target) = [] := by
  rw [retainedTag_eq]
  exact foldl_keepGreater_eq_none

theorem mem_of_retainedTag (retained : retainedTag N source target = some tag) :
    tag ∈ source.filter (tagTargets N · target) := by
  rw [retainedTag_eq] at retained
  exact mem_of_foldl_keepGreater retained

theorem retainedTag_of_single (single : source.filter (tagTargets N · target) = [tag]) :
    retainedTag N source target = some tag := by
  rw [retainedTag_eq, single]
  rfl

/-- Which of the duplicates is kept is a matter of what they are, not of their order. -/
theorem retainedTag_perm (reordered :
    (source.filter (tagTargets N · target)).Perm (source'.filter (tagTargets N · target))) :
    retainedTag N source target = retainedTag N source' target := by
  cases kept : retainedTag N source target with
  | none =>
    rw [retainedTag_eq_none] at kept
    rw [kept] at reordered
    exact (retainedTag_eq_none.mpr reordered.symm.eq_nil).symm
  | some tag =>
    cases kept' : retainedTag N source' target with
    | none =>
      rw [retainedTag_eq_none] at kept'
      rw [kept'] at reordered
      rw [retainedTag_eq_none.mpr reordered.eq_nil] at kept
      cases kept
    | some row =>
      have here := reordered.mem_iff.mp (mem_of_retainedTag kept)
      have there := reordered.mem_iff.mpr (mem_of_retainedTag kept')
      rw [retainedTag_eq] at kept kept'
      have above := foldl_keepGreater_greatest supersedes_irrefl supersedes_trans kept row there
      have below := foldl_keepGreater_greatest supersedes_irrefl supersedes_trans kept' tag here
      exact congrArg some (eq_of_not_supersedes below above)

end Retained

section Naming

theorem targetTag_names (reads : ReadsBack N) (valid : target.Valid N)
    (built : targetTag N target = .ok tag) : tagTargets N tag target = true := by
  cases valid with
  | event read =>
    cases built
    simp only [tagTargets, List.head?_cons, List.getElem?_cons_succ, List.getElem?_cons_zero,
      Option.bind_some, reads.id _ _ read, decide_true, Bool.and_self]
  | coordinate _ _ _ =>
    cases built
    simp only [tagTargets, List.head?_cons, List.getElem?_cons_succ, List.getElem?_cons_zero,
      decide_true, Bool.and_self]

theorem split_at_colon {before before' after after' : List Char} (plain : ':' ∉ before)
    (plain' : ':' ∉ before') (same : before ++ ':' :: after = before' ++ ':' :: after') :
    before = before' ∧ after = after' := by
  induction before generalizing before' with
  | nil =>
    cases before' with
    | nil => exact ⟨rfl, (List.cons.inj same).2⟩
    | cons c before' => exact absurd ((List.cons.inj same).1 ▸ List.mem_cons_self) plain'
  | cons c before ih =>
    cases before' with
    | nil => exact absurd ((List.cons.inj same).1 ▸ List.mem_cons_self) plain
    | cons c' before' =>
      rw [List.mem_cons, not_or] at plain plain'
      obtain ⟨rfl, rest⟩ := List.cons.inj same
      obtain ⟨rfl, rfl⟩ := ih plain.2 plain'.2 rest
      exact ⟨rfl, rfl⟩

theorem kind_plain (kind : Kind) : ':' ∉ (toString kind).toList := by
  change ':' ∉ (String.ofList (Nat.toDigits 10 kind)).toList
  rw [String.toList_ofList]
  intro listed
  have digit := Nat.isDigit_of_mem_toDigits (by decide) (by decide) listed
  revert digit
  decide

/-- Two valid coordinates of one text are the same. -/
theorem coordinateText_inj {author author' : PublicKey} {kind kind' : Kind}
    {identifier identifier' : Option String} (reads : ReadsBack N)
    (valid : (Target.coordinate (.replaceable author kind identifier)).Valid N)
    (valid' : (Target.coordinate (.replaceable author' kind' identifier')).Valid N)
    (same : coordinateText N (.replaceable author kind identifier) =
      coordinateText N (.replaceable author' kind' identifier')) :
    EventCoordinate.replaceable author kind identifier = .replaceable author' kind' identifier' := by
  cases valid with | coordinate read _ valid =>
  cases valid' with | coordinate read' _ valid' =>
  have text := congrArg String.toList same
  simp only [coordinateText, String.toList_append, List.append_assoc] at text
  obtain ⟨kinds, rest⟩ := split_at_colon (kind_plain kind) (kind_plain kind') text
  obtain ⟨keys, last⟩ := split_at_colon (reads.plain author) (reads.plain author') rest
  obtain rfl : kind = kind' := toString_inj (String.toList_injective kinds)
  obtain rfl : author = author' := by
    have back := reads.key _ _ read
    rw [String.toList_injective keys, reads.key _ _ read'] at back
    exact (Option.some.inj back).symm
  have texts : identifier.getD "" = identifier'.getD "" := String.toList_injective last
  have kindOf {identifier : Option String}
      (valid : validateTargetCoordinate N (.replaceable author kind identifier) = .ok ()) :
      N.isAddressable kind = identifier.isSome := by
    cases addressable : N.isAddressable kind <;> cases identifier <;>
      simp_all [validateTargetCoordinate, reads.apart]
  have both := (kindOf valid).symm.trans (kindOf valid')
  cases identifier <;> cases identifier'
  · rfl
  · cases both
  · cases both
  · exact congrArg (EventCoordinate.replaceable author kind ∘ some) texts

/-- No tag names two targets. -/
theorem tagTargets_apart (reads : ReadsBack N) (valid : target.Valid N) (valid' : target'.Valid N)
    (other : target ≠ target') (names : tagTargets N tag target = true) :
    tagTargets N tag target' = false := by
  rw [← Bool.not_eq_true]
  intro names'
  cases target with
  | event id =>
    simp only [tagTargets, Bool.and_eq_true, decide_eq_true_eq] at names
    cases target' with
    | event id' =>
      simp only [tagTargets, Bool.and_eq_true, decide_eq_true_eq] at names'
      exact other (congrArg Target.event (Option.some.inj (names.2.symm.trans names'.2)))
    | coordinate coordinate =>
      simp only [tagTargets, Bool.and_eq_true, decide_eq_true_eq, names.1] at names'
      exact absurd names'.1 (by decide)
  | coordinate coordinate =>
    simp only [tagTargets, Bool.and_eq_true, decide_eq_true_eq] at names
    cases target' with
    | event id' =>
      simp only [tagTargets, Bool.and_eq_true, decide_eq_true_eq, names.1] at names'
      exact absurd names'.1 (by decide)
    | coordinate coordinate' =>
      simp only [tagTargets, Bool.and_eq_true, decide_eq_true_eq] at names'
      have same := Option.some.inj (names.2.symm.trans names'.2)
      apply other
      cases valid with | coordinate read word valid =>
      cases valid' with | coordinate read' word' valid' =>
      exact congrArg Target.coordinate
        (coordinateText_inj reads (.coordinate read word valid) (.coordinate read' word' valid') same)

end Naming

section Passes

/-- What the first tag that names the target becomes. -/
def revision (N : Library) (source : List Tag) (change : Change) (_ : Tag) : Option Tag :=
  if change.operation = .add then retainedTag N source change.target else none

/-- The tags that a change keeps. -/
def kept (N : Library) (source : List Tag) (change : Change) : List Tag :=
  settle (flag (tagTargets N · change.target)) (revision N source change) [] source

/-- The tag that a change adds where none names its target. -/
def appended (N : Library) (source : List Tag) (change : Change) : List Tag :=
  if change.operation = .add ∧ source.any (tagTargets N · change.target) = false then
    (targetTag N change.target).toOption.toList
  else []

/-- The loop of `apply`: the first tag that names the target is what is retained of it. -/
theorem apply_loop : source.foldl (fun (found, tags) tag =>
    if tagTargets N tag change.target then
      if change.operation = .add ∧ found = false then
        (true, tags ++ (retainedTag N source change.target).toList)
      else (found, tags)
    else (found, tags ++ [tag])) (false, []) =
    (decide (change.operation = .add) && source.any (tagTargets N · change.target),
      settle (flag (tagTargets N · change.target)) (if decide (change.operation = .add) then
        fun _ => retainedTag N source change.target else fun _ => none) [] source) :=
  foldl_settle (fun s tag other => by simp [other]) (fun s tag here => by simp [here])

theorem apply_eq : apply N source change = .ok (kept N source change ++ appended N source change) := by
  have same : (if decide (change.operation = .add) = true then
      fun _ => retainedTag N source change.target else fun _ => none) = revision N source change := by
    funext tag
    unfold revision
    by_cases adds : change.operation = .add <;> simp [adds]
  unfold apply
  dsimp only
  rw [apply_loop, same]
  obtain ⟨tag, built⟩ := targetTag_ok (N := N) change.target
  unfold appended
  rw [built]
  by_cases fresh : change.operation = .add ∧ source.any (tagTargets N · change.target) = false
  · rw [if_pos fresh, if_pos ⟨fresh.1, by rw [fresh.2, Bool.and_false]⟩]
    rfl
  · rw [if_neg fresh, List.append_nil, if_neg]
    · rfl
    · rintro ⟨adds, absent⟩
      exact fresh ⟨adds, by simpa [adds] using absent⟩

theorem revision_keepsKey : KeepsKey (flag (tagTargets N · change.target)) (revision N source change) := by
  intro tag row u _ revised
  unfold revision at revised
  split at revised
  · exact flag_eq_some.mpr (List.mem_filter.mp (mem_of_retainedTag revised)).2
  · cases revised

theorem any_names : source.any (tagTargets N · target) = false ↔
    source.filter (tagTargets N · target) = [] := by
  rw [List.any_eq_false, List.filter_eq_nil_iff]

theorem appended_names (reads : ReadsBack N) (valid : change.target.Valid N)
    (listed : tag ∈ appended N source change) : tagTargets N tag change.target = true := by
  unfold appended at listed
  split at listed
  · obtain ⟨row, built⟩ := targetTag_ok (N := N) change.target
    rw [built] at listed
    obtain rfl : tag = row := List.mem_singleton.mp listed
    exact targetTag_names reads valid built
  · cases listed

theorem filter_appended (reads : ReadsBack N) (valid : change.target.Valid N) :
    (appended N source change).filter (tagTargets N · change.target) = appended N source change :=
  List.filter_eq_self.mpr fun _ listed => appended_names reads valid listed

/-- Of the tags that name the target, what a change keeps. -/
theorem filter_kept : (kept N source change).filter (tagTargets N · change.target) =
    if change.operation = .add then (retainedTag N source change.target).toList else [] := by
  have named : (kept N source change).filter (keyedBy (flag (tagTargets N · change.target)) ()) =
      ((source.find? (keyedBy (flag (tagTargets N · change.target)) ())).bind
        (revision N source change)).toList :=
    (filter_settle_key revision_keepsKey).trans (if_neg List.not_mem_nil)
  rw [keyedBy_flag] at named
  rw [named]
  unfold revision
  split
  · cases first : source.find? (tagTargets N · change.target) with
    | some tag => rfl
    | none =>
      rw [retainedTag_eq_none.mpr]
      · rfl
      · exact List.filter_eq_nil_iff.mpr (List.find?_eq_none.mp first)
  · cases source.find? (tagTargets N · change.target) <;> rfl

theorem filter_apply_named (reads : ReadsBack N) (valid : change.target.Valid N)
    (h : apply N source change = .ok tags) : tags.filter (tagTargets N · change.target) =
      (if change.operation = .add then (retainedTag N source change.target).toList else []) ++
        appended N source change := by
  rw [apply_eq] at h
  cases h
  rw [List.filter_append, filter_kept, filter_appended reads valid]

/-- What is left of a target does not depend on the order of its tags. -/
theorem filter_apply_perm (reads : ReadsBack N) (valid : change.target.Valid N) {tags' : List Tag}
    (reordered : (source.filter (tagTargets N · change.target)).Perm
      (source'.filter (tagTargets N · change.target)))
    (h : apply N source change = .ok tags) (h' : apply N source' change = .ok tags') :
    tags'.filter (tagTargets N · change.target) = tags.filter (tagTargets N · change.target) := by
  have absent : source'.any (tagTargets N · change.target) = false ↔
      source.any (tagTargets N · change.target) = false := by
    rw [any_names, any_names]
    constructor
    · intro none
      exact (none ▸ reordered).eq_nil
    · intro none
      exact (none ▸ reordered).symm.eq_nil
  have added : appended N source' change = appended N source change := by
    unfold appended
    exact if_congr (and_congr_right' absent) rfl rfl
  rw [filter_apply_named reads valid h, filter_apply_named reads valid h', retainedTag_perm reordered, added]

/-- A change leaves the tags alone that do not name its target. -/
theorem filter_apply_away {p : Tag → Bool} (reads : ReadsBack N) (valid : change.target.Valid N)
    (away : ∀ tag, tagTargets N tag change.target = true → p tag = false)
    (h : apply N source change = .ok tags) : tags.filter p = source.filter p := by
  rw [apply_eq] at h
  cases h
  have others : (kept N source change).filter p = source.filter p :=
    filter_settle revision_keepsKey fun tag _ keyed => away tag (flag_eq_some.mp keyed)
  have none : (appended N source change).filter p = [] := by
    refine List.filter_eq_nil_iff.mpr fun tag listed => ?_
    rw [away tag (appended_names reads valid listed)]
    exact Bool.false_ne_true
  rw [List.filter_append, others, none, List.append_nil]

theorem filter_apply_remove (removes : change.operation = .remove)
    (h : apply N source change = .ok tags) : tags.filter (tagTargets N · change.target) = [] := by
  have adds : change.operation ≠ .add := by
    rw [removes]
    nofun
  rw [apply_eq] at h
  cases h
  have none : appended N source change = [] := if_neg fun fresh => adds fresh.1
  rw [none, List.append_nil, filter_kept, if_neg adds]

/-- An addition leaves one tag of its target: the one to be kept, or a new one. -/
theorem filter_apply_add (reads : ReadsBack N) (valid : change.target.Valid N)
    (adds : change.operation = .add) (h : apply N source change = .ok tags) :
    ∃ tag, tags.filter (tagTargets N · change.target) = [tag] ∧
      ∀ row, retainedTag N source change.target = some row → tag = row := by
  rw [filter_apply_named reads valid h, if_pos adds]
  cases retained : retainedTag N source change.target with
  | some tag =>
    have present : source.any (tagTargets N · change.target) ≠ false := by
      rw [Ne, any_names, ← retainedTag_eq_none, retained]
      nofun
    have none : appended N source change = [] := if_neg fun fresh => present fresh.2
    refine ⟨tag, ?_, fun row same => Option.some.inj same⟩
    rw [none]
    rfl
  | none =>
    obtain ⟨tag, built⟩ := targetTag_ok (N := N) change.target
    have one : appended N source change = [tag] := by
      unfold appended
      rw [if_pos ⟨adds, any_names.mpr (retainedTag_eq_none.mp retained)⟩, built]
      rfl
    refine ⟨tag, ?_, nofun⟩
    rw [one]
    rfl

/-- A list with one tag of the target stays as it is when the target is added. -/
theorem apply_of_single (adds : change.operation = .add)
    (single : tags.filter (tagTargets N · change.target) = [tag]) : apply N tags change = .ok tags := by
  have retained := retainedTag_of_single single
  have same : kept N tags change = tags := by
    refine settle_fixed (fun row listed u keyed => ⟨List.not_mem_nil, ?_⟩) ?_
    · have named : row ∈ tags.filter (tagTargets N · change.target) :=
        List.mem_filter.mpr ⟨listed, flag_eq_some.mp keyed⟩
      rw [single, List.mem_singleton] at named
      unfold revision
      rw [if_pos adds, retained, named]
    · rw [filterMap_flag, single]
      exact List.nodup_singleton ()
  have none : appended N tags change = [] := by
    refine if_neg fun fresh => ?_
    rw [any_names, single] at fresh
    cases fresh.2
  rw [apply_eq, same, none, List.append_nil]

theorem apply_of_absent (removes : change.operation = .remove)
    (absent : tags.filter (tagTargets N · change.target) = []) : apply N tags change = .ok tags := by
  have same : kept N tags change = tags := by
    refine settle_of_none fun tag listed => flag_eq_none.mpr ?_
    exact Bool.eq_false_iff.mpr (List.filter_eq_nil_iff.mp absent tag listed)
  have none : appended N tags change = [] := by
    refine if_neg fun fresh => ?_
    rw [removes] at fresh
    cases fresh.1
  rw [apply_eq, same, none, List.append_nil]

theorem apply_again (reads : ReadsBack N) (valid : change.target.Valid N)
    (h : apply N source change = .ok tags) : apply N tags change = .ok tags := by
  cases operation : change.operation with
  | add =>
    obtain ⟨tag, single, -⟩ := filter_apply_add reads valid operation h
    exact apply_of_single operation single
  | remove => exact apply_of_absent operation (filter_apply_remove operation h)

end Passes

section Commuting

/-- What a change does to a list that agrees with its source on its own target. -/
theorem apply_after (reads : ReadsBack N) (valid : change.target.Valid N) (valid' : change'.target.Valid N)
    (other : change.target ≠ change'.target) (h : apply N source change = .ok tags) :
    apply N tags change' = .ok (settle (flag (tagTargets N · change'.target)) (revision N source change') []
      (kept N source change) ++ appended N source change ++ appended N source change') := by
  have named : tags.filter (tagTargets N · change'.target) = source.filter (tagTargets N · change'.target) :=
    filter_apply_away reads valid (fun tag => tagTargets_apart reads valid valid' other) h
  have revised : revision N tags change' = revision N source change' := by
    funext tag
    unfold revision retainedTag
    rw [named]
  have added : appended N tags change' = appended N source change' := by
    unfold appended
    simp only [any_names, named]
  rw [apply_eq] at h
  cases h
  have alone : settle (flag (tagTargets N · change'.target)) (revision N source change')
      ((kept N source change).filterMap (flag (tagTargets N · change'.target)) ++ [])
      (appended N source change) = appended N source change := by
    refine settle_of_none fun tag listed => flag_eq_none.mpr ?_
    exact tagTargets_apart reads valid valid' other (appended_names reads valid listed)
  rw [apply_eq, added, kept, revised, settle_append, alone]

/-- Changes to different targets can be made in either order: only what they add at the end is
in another order. -/
theorem apply_comm (reads : ReadsBack N) (valid : change.target.Valid N) (valid' : change'.target.Valid N)
    (other : change.target ≠ change'.target) :
    ∃ once once' base, apply N source change = .ok once ∧ apply N source change' = .ok once' ∧
      apply N once change' = .ok (base ++ appended N source change ++ appended N source change') ∧
      apply N once' change = .ok (base ++ appended N source change' ++ appended N source change) := by
  have either : ∀ tag, flag (tagTargets N · change'.target) tag = none ∨
      flag (tagTargets N · change.target) tag = none := by
    intro tag
    rw [flag_eq_none, flag_eq_none]
    cases names : tagTargets N tag change.target with
    | false => exact .inr rfl
    | true => exact .inl (tagTargets_apart reads valid valid' other names)
  refine ⟨_, _, settle (flag (tagTargets N · change.target)) (revision N source change) []
    (kept N source change'), apply_eq, apply_eq, ?_, ?_⟩
  · rw [apply_after reads valid valid' other apply_eq]
    congr 3
    exact (settle_comm revision_keepsKey revision_keepsKey either).symm
  · exact apply_after reads valid' valid (Ne.symm other) apply_eq

end Commuting

/-- What a change makes of a list: an addition leaves one tag of its target and a removal none;
the other tags stay as they are; the order of the duplicates does not matter; making a change
again does nothing; and changes to different targets commute. -/
theorem bookmark_edits_lawful (reads : ReadsBack N) (valid : change.target.Valid N) :
    ∃ tags, apply N source change = .ok tags ∧
      (change.operation = .add → ∃ tag, tags.filter (tagTargets N · change.target) = [tag] ∧
        ∀ row, retainedTag N source change.target = some row → tag = row) ∧
      (change.operation = .remove → tags.filter (tagTargets N · change.target) = []) ∧
      tags.filter (!tagTargets N · change.target) = source.filter (!tagTargets N · change.target) ∧
      (∀ source' tags', (source.filter (tagTargets N · change.target)).Perm
          (source'.filter (tagTargets N · change.target)) → apply N source' change = .ok tags' →
        tags'.filter (tagTargets N · change.target) = tags.filter (tagTargets N · change.target)) ∧
      apply N tags change = .ok tags ∧
      ∀ change', change'.target.Valid N → change.target ≠ change'.target →
        ∃ once once' base, apply N source change = .ok once ∧ apply N source change' = .ok once' ∧
          apply N once change' = .ok (base ++ appended N source change ++ appended N source change') ∧
          apply N once' change = .ok (base ++ appended N source change' ++ appended N source change) := by
  refine ⟨_, apply_eq, fun adds => filter_apply_add reads valid adds apply_eq,
    fun removes => filter_apply_remove removes apply_eq, ?_, ?_,
    apply_again reads valid apply_eq, fun change' valid' other => apply_comm reads valid valid' other⟩
  · exact filter_apply_away reads valid (fun tag names => by rw [names]; rfl) apply_eq
  · exact fun source' tags' reordered h => filter_apply_perm reads valid reordered apply_eq h

section Samples

theorem plain_apart {n : Nat} (addressable : plainLibrary.isAddressable n = true) :
    plainLibrary.isReplaceable n = false := by
  have high : (30000 : Nat) ≤ n := ((plainLibrary.isAddressable_iff n).mp addressable).1
  change (n = 0 || n = 3 || n = 41 || (10000 ≤ n && n < 20000)) = false
  simp only [Bool.or_eq_false_iff, Bool.and_eq_false_iff, decide_eq_false_iff_not]
  omega

theorem plainLibrary_readsBack : ReadsBack plainLibrary where
  id _ _ := plain_key
  key _ _ := plain_key
  plain key := by
    change ':' ∉ (String.ofList (toHex 64 key)).toList
    rw [String.toList_ofList]
    exact toHex_plain
  apart kind := plain_apart (n := kind)

/-- A list that names an event twice, around another tag. -/
def doubled : List Tag :=
  [["e", plainLibrary.idToHex 5], ["t", "nostr"], ["e", plainLibrary.idToHex 5, "wss://a.example/"]]

theorem doubled_settled : ∃ tags, apply plainLibrary doubled ⟨.add, .event 5⟩ = .ok tags ∧
    tags.filter (!tagTargets plainLibrary · (.event 5)) = doubled.filter (!tagTargets plainLibrary · (.event 5)) ∧
    apply plainLibrary tags ⟨.add, .event 5⟩ = .ok tags := by
  have read : plainLibrary.idFromSlice (List.replicate 31 0 ++ [5]) = some 5 := rfl
  have valid : (Change.mk .add (.event 5)).target.Valid plainLibrary := .event read
  obtain ⟨tags, applied, -, -, others, -, again, -⟩ := bookmark_edits_lawful plainLibrary_readsBack valid
  exact ⟨tags, applied, others, again⟩

end Samples

end Fava.Edits.Bookmarks
