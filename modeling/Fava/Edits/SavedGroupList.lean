import Fava.Edits.SavedGroupCodec
import Fava.Lib.Settle

namespace Fava.Edits.SavedGroups

open Fava.Lib Fava.Nostr Fava.Write

/-- One `group` entry of a saved list. -/
structure SavedSimpleGroup where
  id : String
  relay : String
  displayName : Option String
deriving DecidableEq

inductive SavedGroupListDecodeError
  | wrongEventKind (expected actual : Kind)
  | missingTagValue (tagIndex valueIndex : Nat)

/-- A saved list, as its reader has it: the entries and local failures, in their order. -/
structure SavedGroupList where
  author : PublicKey
  simpleGroups : List (Except SavedGroupListDecodeError SavedSimpleGroup)
  relays : List (Except SavedGroupListDecodeError String)

def required (values : Tag) (tagIndex valueIndex : Nat) : Except SavedGroupListDecodeError String :=
  demand values[valueIndex]? (.missingTagValue tagIndex valueIndex)

def parseGroup (values : Tag) (tagIndex : Nat) : Except SavedGroupListDecodeError SavedSimpleGroup := do
  let id ← required values tagIndex 1
  let relay ← required values tagIndex 2
  pure ⟨id, relay, values[3]?⟩

def parseRelay (values : Tag) (tagIndex : Nat) : Except SavedGroupListDecodeError String :=
  required values tagIndex 1

namespace SavedGroupList

def readTag (list : SavedGroupList) (tag : Tag × Nat) : SavedGroupList :=
  match tag.1.head? with
  | some "group" => { list with simpleGroups := list.simpleGroups ++ [parseGroup tag.1 tag.2] }
  | some "r" => { list with relays := list.relays ++ [parseRelay tag.1 tag.2] }
  | _ => list

def fromEvent (event : EventValue) : Except SavedGroupListDecodeError SavedGroupList :=
  if event.kind ≠ savedKind then .error (.wrongEventKind savedKind event.kind)
  else .ok (event.tags.zipIdx.foldl readTag ⟨event.author, [], []⟩)

variable (N : Library)

/-- The entries of one group on one relay, however the relay is spelt. -/
def entries (list : SavedGroupList) (id : String) (relay : RelayUrl) : List SavedSimpleGroup :=
  (list.simpleGroups.filterMap Except.toOption).filter fun entry =>
    entry.id = id && N.parseRelay entry.relay = some relay

def relayEntries (list : SavedGroupList) (relay : RelayUrl) : List String :=
  (list.relays.filterMap Except.toOption).filter fun raw => N.parseRelay raw = some relay

end SavedGroupList

variable {N : Library} {tag : Tag} {source tags : List Tag} {change : Change} {id : String}
  {relay : RelayUrl} {event : EventValue} {list : SavedGroupList} {name : String}

section Reading

/-- The entry that a tag is read as, if it is. -/
def entryOf (tag : Tag) : Option SavedSimpleGroup :=
  if tag.head? = some "group" then (parseGroup tag 0).toOption else none

def relayOf (tag : Tag) : Option String :=
  if tag.head? = some "r" then (parseRelay tag 0).toOption else none

theorem parseGroup_toOption (tagIndex : Nat) :
    (parseGroup tag tagIndex).toOption = (parseGroup tag 0).toOption := by
  unfold parseGroup required demand
  cases tag[1]? with
  | none => rfl
  | some id => cases tag[2]? <;> rfl

theorem parseRelay_toOption (tagIndex : Nat) :
    (parseRelay tag tagIndex).toOption = (parseRelay tag 0).toOption := by
  unfold parseRelay required demand
  cases tag[1]? <;> rfl

theorem filterMap_toOption {ε α : Type} {x : Except ε α} :
    [x].filterMap Except.toOption = x.toOption.toList := by
  cases x <;> rfl

theorem readTag_entries (list : SavedGroupList) (tag : Tag) (index : Nat) :
    (SavedGroupList.readTag list (tag, index)).simpleGroups.filterMap Except.toOption =
        list.simpleGroups.filterMap Except.toOption ++ (entryOf tag).toList ∧
      (SavedGroupList.readTag list (tag, index)).relays.filterMap Except.toOption =
        list.relays.filterMap Except.toOption ++ (relayOf tag).toList := by
  unfold SavedGroupList.readTag
  dsimp only
  split
  · rename_i group
    have entry : entryOf tag = (parseGroup tag 0).toOption := if_pos group
    have relay : relayOf tag = none := if_neg (by rw [group]; decide)
    rw [entry, relay, List.filterMap_append, filterMap_toOption, parseGroup_toOption]
    exact ⟨rfl, (List.append_nil _).symm⟩
  · rename_i r
    have entry : entryOf tag = none := if_neg (by rw [r]; decide)
    have relay : relayOf tag = (parseRelay tag 0).toOption := if_pos r
    rw [entry, relay, List.filterMap_append, filterMap_toOption, parseRelay_toOption]
    exact ⟨(List.append_nil _).symm, rfl⟩
  · rename_i group r
    rw [show entryOf tag = none from if_neg group, show relayOf tag = none from if_neg r]
    exact ⟨(List.append_nil _).symm, (List.append_nil _).symm⟩

/-- The reader's entries are those of the tags, one after the other. -/
theorem foldl_readTag {start : Nat} :
    ((tags.zipIdx start).foldl SavedGroupList.readTag list).simpleGroups.filterMap Except.toOption =
        list.simpleGroups.filterMap Except.toOption ++ tags.filterMap entryOf ∧
      ((tags.zipIdx start).foldl SavedGroupList.readTag list).relays.filterMap Except.toOption =
        list.relays.filterMap Except.toOption ++ tags.filterMap relayOf := by
  induction tags generalizing list start with
  | nil => simp
  | cons tag tags ih =>
    obtain ⟨entries, relays⟩ := readTag_entries list tag start
    rw [List.zipIdx_cons, List.foldl_cons, ih.1, ih.2, entries, relays, List.append_assoc, List.append_assoc,
      List.filterMap_cons, List.filterMap_cons]
    constructor
    · cases entryOf tag <;> rfl
    · cases relayOf tag <;> rfl

theorem entryOf_cons {head group raw : String} {rest : List String} :
    entryOf (head :: group :: raw :: rest) = if head = "group" then some ⟨group, raw, rest.head?⟩ else none := by
  unfold entryOf
  simp only [List.head?_cons, Option.some.injEq]
  split
  · cases rest <;> rfl
  · rfl

theorem simpleGroupTarget_cons {head group raw : String} {rest : List String} :
    simpleGroupTarget N (head :: group :: raw :: rest) id =
      if head = "group" ∧ group = id then N.parseRelay raw else none := by
  have long : (head :: group :: raw :: rest).length ≥ 3 := Nat.le_add_left 3 rest.length
  unfold simpleGroupTarget
  simp only [long, true_and, List.head?_cons, Option.some.injEq, List.getElem?_cons_succ,
    List.getElem?_cons_zero, Option.bind_some]

theorem short_tag (short : tag.length < 3) : entryOf tag = none ∧ simpleGroupTarget N tag id = none := by
  have target : simpleGroupTarget N tag id = none := if_neg fun h => absurd h.1 (Nat.not_le.mpr short)
  refine ⟨?_, target⟩
  unfold entryOf parseGroup required demand
  rw [List.getElem?_eq_none (Nat.le_of_lt_succ short)]
  split
  · cases tag[1]? <;> rfl
  · rfl

/-- A tag is read as an entry of a group on a relay exactly if an edit takes it for one. -/
theorem entryOf_filter (tag : Tag) :
    (entryOf tag).filter (fun entry => entry.id = id && N.parseRelay entry.relay = some relay) =
      if simpleGroupTarget N tag id = some relay then entryOf tag else none := by
  by_cases short : tag.length < 3
  · obtain ⟨entry, target⟩ := @short_tag N tag id short
    rw [entry, target]
    rfl
  · match tag, short with
    | [], short | [_], short | [_, _], short => exact absurd (by simp) short
    | head :: group :: raw :: rest, _ =>
      rw [entryOf_cons, simpleGroupTarget_cons]
      by_cases grouped : head = "group"
      · rw [if_pos grouped, Option.filter_some]
        by_cases named : group = id
        · simp [grouped, named]
        · simp [grouped, named]
      · have other : ¬(head = "group" ∧ group = id) := fun h => grouped h.1
        rw [if_neg grouped, if_neg other]
        rfl

/-- The reader has as many entries of a group on a relay as there are tags that an edit takes for
one. -/
theorem entries_eq (read : SavedGroupList.fromEvent event = .ok list) : list.entries N id relay =
    (event.tags.filter (simpleGroupTarget N · id = some relay)).filterMap entryOf := by
  unfold SavedGroupList.fromEvent at read
  split at read
  · cases read
  · cases read
    unfold SavedGroupList.entries
    rw [foldl_readTag.1, List.filterMap_nil, List.nil_append, List.filter_filterMap, List.filterMap_filter]
    congr
    funext tag
    rw [entryOf_filter]
    simp only [decide_eq_true_eq]

theorem relayOf_filter (tag : Tag) : (relayOf tag).filter (fun raw => N.parseRelay raw = some relay) =
    if relayTarget N tag = some relay then relayOf tag else none := by
  unfold relayOf parseRelay required demand
  match tag with
  | [] | [_] => simp [relayTarget, Except.toOption]
  | head :: raw :: rest =>
    have target : relayTarget N (head :: raw :: rest) = if head = "r" then N.parseRelay raw else none := by
      simp [relayTarget]
    rw [target]
    by_cases listed : head = "r"
    · simp [listed, Except.toOption, Option.filter_some]
    · simp [listed]

theorem relayEntries_eq (read : SavedGroupList.fromEvent event = .ok list) : list.relayEntries N relay =
    (event.tags.filter (relayTarget N · = some relay)).filterMap relayOf := by
  unfold SavedGroupList.fromEvent at read
  split at read
  · cases read
  · cases read
    unfold SavedGroupList.relayEntries
    rw [foldl_readTag.2, List.filterMap_nil, List.nil_append, List.filter_filterMap, List.filterMap_filter]
    congr
    funext tag
    rw [relayOf_filter]
    simp only [decide_eq_true_eq]

theorem entry_of_simpleGroupTarget (targets : simpleGroupTarget N tag id = some relay) :
    ∃ head group raw rest, tag = head :: group :: raw :: rest ∧ entryOf tag = some ⟨group, raw, rest.head?⟩ := by
  match tag, targets with
  | [], targets | [_], targets | [_, _], targets => exact absurd targets (by simp [simpleGroupTarget])
  | head :: group :: raw :: rest, targets =>
    rw [simpleGroupTarget_cons] at targets
    split at targets
    · rename_i h
      exact ⟨head, group, raw, rest, rfl, entryOf_cons.trans (if_pos h.1)⟩
    · cases targets

theorem relayOf_of_relayTarget (targets : relayTarget N tag = some relay) : ∃ raw, relayOf tag = some raw := by
  unfold relayTarget at targets
  split at targets
  · rename_i h
    obtain ⟨raw, here, -⟩ := Option.bind_eq_some_iff.mp targets
    refine ⟨raw, (if_pos h.2).trans ?_⟩
    unfold parseRelay required demand
    rw [here]
    rfl
  · cases targets

end Reading

section Loops

/-- The selected relay that a tag is an entry of. -/
def Change.target (N : Library) (change : Change) (tag : Tag) : Option RelayUrl :=
  match change.operation with
  | .saveSimpleGroup | .removeSimpleGroup | .renameSimpleGroup =>
    (simpleGroupTarget N tag change.id).filter (· ∈ change.relays)
  | .saveRelay | .removeRelay => (relayTarget N tag).filter (· ∈ change.relays)

def renamed (tag : Tag) (name : String) : Tag :=
  if tag.length = 3 then tag ++ [name] else tag.set 3 name

/-- What the first entry of a selected relay becomes. -/
def Change.revised (change : Change) (tag : Tag) : Option Tag :=
  match change.operation with
  | .saveSimpleGroup | .saveRelay => some tag
  | .renameSimpleGroup => change.displayName.map (renamed tag)
  | .removeSimpleGroup | .removeRelay => none

/-- The relays that are to have an entry. -/
def Change.wanted (change : Change) : List RelayUrl :=
  match change.operation with
  | .saveSimpleGroup | .renameSimpleGroup | .saveRelay => change.relays
  | .removeSimpleGroup | .removeRelay => []

def Change.entry (change : Change) (relay : RelayUrl) : Tag :=
  match change.operation with
  | .saveSimpleGroup | .removeSimpleGroup | .renameSimpleGroup =>
    ["group", change.id, relay] ++ change.displayName.toList
  | .saveRelay | .removeRelay => ["r", relay]

theorem Change.Made.complete (made : change.Made N) : change.Complete := by
  cases made with
  | save | remove => exact ⟨nofun, fun relays => by simp at relays⟩
  | rename group name => exact ⟨fun _ => ⟨name, rfl⟩, fun relays => by simp at relays⟩
  | saveRelay | removeRelay => exact ⟨nofun, fun _ => ⟨_, rfl⟩⟩

theorem target_of_group (group : change.operation ≠ .saveRelay ∧ change.operation ≠ .removeRelay) :
    change.target N tag = (simpleGroupTarget N tag change.id).filter (· ∈ change.relays) := by
  unfold Change.target
  split
  · rfl
  · rfl
  · rfl
  · rename_i saves
    exact (group.1 saves).elim
  · rename_i removes
    exact (group.2 removes).elim

theorem length_of_simpleGroupTarget (targets : simpleGroupTarget N tag id = some relay) : 3 ≤ tag.length := by
  unfold simpleGroupTarget at targets
  split at targets
  · rename_i h
    exact h.1
  · cases targets

theorem renamedTag_eq (long : 3 ≤ tag.length) : renamedTag tag name = .ok (renamed tag name) := by
  refine parse_ok fun none => ?_
  have length := congrArg List.length none
  split at length
  · rw [List.length_append, List.length_singleton] at length
    exact absurd length (Nat.succ_ne_zero _)
  · rw [List.length_set, List.length_nil] at length
    omega

theorem revisedEntry_eq (complete : change.Complete)
    (group : change.operation ≠ .saveRelay ∧ change.operation ≠ .removeRelay) (long : 3 ≤ tag.length) :
    revisedEntry change tag = .ok (change.revised tag).toList := by
  unfold revisedEntry Change.revised
  split
  · rename_i saves
    rw [saves]
    rfl
  · rename_i removes
    rw [removes]
    rfl
  · rename_i renames
    obtain ⟨name, named⟩ := complete.named renames
    rw [renames, named]
    refine bind_eq_ok.mpr ⟨name, rfl, ?_⟩
    exact bind_eq_ok.mpr ⟨_, renamedTag_eq long, rfl⟩
  · rename_i saves
    exact (group.1 saves).elim
  · rename_i removes
    exact (group.2 removes).elim

theorem applyEntry_eq {found : List RelayUrl} {done : List Tag} (complete : change.Complete)
    (group : change.operation ≠ .saveRelay ∧ change.operation ≠ .removeRelay) :
    applyEntry N change (found, done) tag =
      match change.target N tag with
      | none => .ok (found, done ++ [tag])
      | some relay =>
        if relay ∈ found then .ok (found, done)
        else .ok (relay :: found, done ++ (change.revised tag).toList) := by
  unfold applyEntry
  dsimp only
  rw [← target_of_group group]
  cases targets : change.target N tag with
  | none => rfl
  | some relay =>
    rw [target_of_group group, Option.filter_eq_some_iff] at targets
    dsimp only
    rw [revisedEntry_eq complete group (length_of_simpleGroupTarget targets.1)]
    rfl

/-- The loop settles the entries of the selected relays, and ends with the relays that it found. -/
theorem foldlM_applyEntry {found : List RelayUrl} {done : List Tag} (complete : change.Complete)
    (group : change.operation ≠ .saveRelay ∧ change.operation ≠ .removeRelay) :
    ∃ found', source.foldlM (applyEntry N change) (found, done) =
        .ok (found', done ++ settle (change.target N) change.revised found source) ∧
      ∀ relay, relay ∈ found' ↔ relay ∈ source.filterMap (change.target N) ∨ relay ∈ found := by
  induction source generalizing found done with
  | nil =>
    refine ⟨found, ?_, fun relay => (or_iff_right List.not_mem_nil).symm⟩
    exact congrArg (fun done => Except.ok (found, done)) (List.append_nil done).symm
  | cons tag source ih =>
    rw [List.foldlM_cons, applyEntry_eq complete group]
    cases targets : change.target N tag with
    | none =>
      obtain ⟨found', looped, same⟩ := @ih found (done ++ [tag])
      rw [List.append_assoc] at looped
      rw [settle_cons_none targets, List.filterMap_cons_none targets]
      exact ⟨found', looped, same⟩
    | some relay =>
      dsimp only
      rw [List.filterMap_cons_some targets]
      by_cases before : relay ∈ found
      · obtain ⟨found', looped, same⟩ := @ih found done
        rw [if_pos before, settle_cons_seen targets before]
        refine ⟨found', looped, fun other => ?_⟩
        rw [same, List.mem_cons]
        constructor
        · exact Or.imp_left .inr
        · rintro ((rfl | later) | here)
          · exact .inr before
          · exact .inl later
          · exact .inr here
      · obtain ⟨found', looped, same⟩ := @ih (relay :: found) (done ++ (change.revised tag).toList)
        rw [List.append_assoc] at looped
        rw [if_neg before, settle_cons_new targets before]
        refine ⟨found', looped, fun other => ?_⟩
        rw [same, List.mem_cons, List.mem_cons]
        exact or_left_comm.trans or_assoc.symm

theorem appendMissing_eq {name : Option String} {relays found : List RelayUrl} :
    appendMissing id name relays (found, tags) =
      .ok (tags ++ (missing found relays).map fun relay => ["group", id, relay] ++ name.toList) := by
  suffices looped : ∃ found', relays.foldlM (fun (state : List RelayUrl × List Tag) relay =>
      if relay ∈ state.1 then Except.ok state
      else do
        let tag ← simpleGroupTag id relay name
        pure (relay :: state.1, state.2 ++ [tag])) (found, tags) =
      .ok (found', tags ++ (missing found relays).map fun relay => ["group", id, relay] ++ name.toList) by
    obtain ⟨found', looped⟩ := looped
    exact bind_eq_ok.mpr ⟨_, looped, rfl⟩
  induction relays generalizing found tags with
  | nil => exact ⟨found, congrArg (fun tags => Except.ok (found, tags)) (List.append_nil tags).symm⟩
  | cons relay relays ih =>
    rw [List.foldlM_cons]
    unfold missing
    by_cases before : relay ∈ found
    · rw [if_pos before, if_pos before]
      exact ih
    · have built : simpleGroupTag id relay name = .ok (["group", id, relay] ++ name.toList) :=
        parse_ok (by simp)
      rw [if_neg before, if_neg before, built, List.map_cons, List.append_cons]
      exact ih

theorem applySimpleGroup_eq (complete : change.Complete)
    (group : change.operation ≠ .saveRelay ∧ change.operation ≠ .removeRelay) :
    applySimpleGroup N source change =
      .ok (filled (change.target N) change.revised change.entry change.wanted source) := by
  obtain ⟨found, looped, same⟩ := @foldlM_applyEntry N source change [] [] complete group
  have fresh {relays : List RelayUrl} :
      missing found relays = missing (source.filterMap (change.target N)) relays :=
    missing_congr fun relay => (same relay).trans (or_iff_left List.not_mem_nil)
  refine bind_eq_ok.mpr ⟨_, looped, ?_⟩
  dsimp only
  unfold filled
  split
  · rename_i saves
    rw [appendMissing_eq, fresh, Change.wanted, saves]
    unfold Change.entry
    simp only [saves, List.nil_append]
  · rename_i renames
    obtain ⟨name, named⟩ := complete.named renames
    rw [named]
    refine bind_eq_ok.mpr ⟨name, rfl, ?_⟩
    rw [appendMissing_eq, fresh, Change.wanted, renames]
    unfold Change.entry
    simp only [renames, named, List.nil_append]
  · rename_i removes
    rw [Change.wanted, removes]
    exact congrArg Except.ok (List.append_nil _).symm
  · rename_i saves
    exact (group.1 saves).elim
  · rename_i removes
    exact (group.2 removes).elim

theorem relayTarget_filter : (relayTarget N tag).filter (· ∈ [relay]) =
    (flag (relayTarget N · = some relay) tag).map fun _ => relay := by
  unfold flag
  cases target : relayTarget N tag with
  | none => simp [target]
  | some other =>
    by_cases same : other = relay
    · subst same
      simp [target]
    · simp [target, same]

/-- The loop of `applyRelay`: the first tag that names the relay is kept when it is saved. -/
theorem applyRelay_loop {save : Bool} : source.foldl (fun (found, tags) tag =>
    if relayTarget N tag = some relay then
      if save && !found then (true, tags ++ [tag]) else (found, tags)
    else (found, tags ++ [tag])) (false, []) =
    (save && source.any (relayTarget N · = some relay),
      settle (flag (relayTarget N · = some relay)) (if save then some else fun _ => none) [] source) := by
  refine foldl_settle (fun s tag other => ?_) (fun s tag here => ?_)
  · simp [of_decide_eq_false other]
  · simp [of_decide_eq_true here]

theorem applyRelay_eq {save : Bool} : applyRelay N source relay save =
    .ok (filled (fun tag => (relayTarget N tag).filter (· ∈ [relay])) (if save then some else fun _ => none)
      (fun relay => ["r", relay]) (if save then [relay] else []) source) := by
  have settled : settle (fun tag => (relayTarget N tag).filter (· ∈ [relay]))
      (if save then some else fun _ => none) (([] : List Unit).map fun _ => relay) source =
      settle (flag (relayTarget N · = some relay)) (if save then some else fun _ => none) [] source :=
    settle_rekey (fun _ _ _ => rfl) fun tag => relayTarget_filter
  have here : relay ∈ source.filterMap (fun tag => (relayTarget N tag).filter (· ∈ [relay])) ↔
      source.any (relayTarget N · = some relay) = true := by
    rw [List.mem_filterMap, List.any_eq_true]
    refine exists_congr fun tag => and_congr_right' ?_
    rw [Option.filter_eq_some_iff, decide_eq_true_iff, decide_eq_true_iff]
    exact and_iff_left List.mem_cons_self
  unfold applyRelay filled
  rw [applyRelay_loop, ← settled]
  cases save with
  | false => exact congrArg Except.ok (List.append_nil _).symm
  | true =>
    rw [if_pos (rfl : true = true), if_pos (rfl : true = true), missing_singleton]
    by_cases present : source.any (relayTarget N · = some relay) = true
    · rw [if_pos (here.mpr present), present]
      exact congrArg Except.ok (List.append_nil _).symm
    · rw [if_neg (mt here.mp present), Bool.eq_false_iff.mpr present]
      rfl

theorem apply_eq (made : change.Made N) : apply N source change =
    .ok (filled (change.target N) change.revised change.entry change.wanted source) := by
  have complete := made.complete
  cases made with
  | save | remove | rename => exact applySimpleGroup_eq complete ⟨nofun, nofun⟩
  | saveRelay => exact applyRelay_eq
  | removeRelay =>
    change applyRelay N source _ false = _
    exact applyRelay_eq

end Loops

section Agreement

theorem renamed_cons {head group raw : String} {rest : List String} :
    renamed (head :: group :: raw :: rest) name = head :: group :: raw :: name :: rest.tail := by
  cases rest with
  | nil => rfl
  | cons old rest => exact if_neg (by simp)

theorem renamed_renamed (tag : Tag) (long : 3 ≤ tag.length) :
    simpleGroupTarget N (renamed tag name) id = simpleGroupTarget N tag id ∧
      renamed (renamed tag name) name = renamed tag name := by
  match tag, long with
  | head :: group :: raw :: rest, _ =>
    rw [renamed_cons, simpleGroupTarget_cons, simpleGroupTarget_cons, renamed_cons, List.tail_cons]
    exact ⟨rfl, rfl⟩

/-- What an entry is revised to is an entry of the same relay that needs no revision. -/
theorem target_of_revised {tag' : Tag} (targets : change.target N tag = some relay)
    (revised : change.revised tag = some tag') :
    change.target N tag' = some relay ∧ change.revised tag' = some tag' := by
  have kept (same : change.revised = some) : change.target N tag' = some relay ∧ change.revised tag' = some tag' := by
    rw [same] at revised
    cases revised
    exact ⟨targets, congrFun same tag⟩
  cases operation : change.operation with
  | saveSimpleGroup | saveRelay =>
    apply kept
    funext tag
    rw [Change.revised, operation]
  | removeSimpleGroup | removeRelay =>
    rw [Change.revised, operation] at revised
    cases revised
  | renameSimpleGroup =>
    have group : change.operation ≠ .saveRelay ∧ change.operation ≠ .removeRelay := by
      rw [operation]
      exact ⟨nofun, nofun⟩
    have renames (tag : Tag) : change.revised tag = change.displayName.map (renamed tag) := by
      rw [Change.revised, operation]
    rw [renames, Option.map_eq_some_iff] at revised
    obtain ⟨name, named, rfl⟩ := revised
    rw [target_of_group group] at targets ⊢
    have long := length_of_simpleGroupTarget (Option.filter_eq_some_iff.mp targets).1
    obtain ⟨same, again⟩ := @renamed_renamed N change.id name tag long
    rw [same, renames, named, Option.map_some, again]
    exact ⟨targets, rfl⟩

theorem Change.Made.fills (made : change.Made N) :
    Fills (change.target N) change.revised change.entry change.wanted where
  keeps _ _ _ targets revised := (target_of_revised targets revised).1
  again _ _ _ targets revised := (target_of_revised targets revised).2
  wants tag relay _ wanted := by
    cases made with
    | save | rename | saveRelay => exact ⟨_, rfl⟩
    | remove | removeRelay => cases wanted
  makes relay wanted := by
    cases made with
    | save group name parsed =>
      refine ⟨?_, rfl⟩
      change (simpleGroupTarget N ("group" :: group.id :: relay :: name.toList) group.id).filter _ = _
      rw [simpleGroupTarget_cons, if_pos ⟨rfl, rfl⟩, parsed relay wanted]
      exact Option.filter_eq_some_iff.mpr ⟨rfl, decide_eq_true wanted⟩
    | rename group name parsed =>
      constructor
      · change (simpleGroupTarget N ["group", group.id, relay, name] group.id).filter _ = _
        rw [simpleGroupTarget_cons, if_pos ⟨rfl, rfl⟩, parsed relay wanted]
        exact Option.filter_eq_some_iff.mpr ⟨rfl, decide_eq_true wanted⟩
      · exact congrArg some renamed_cons
    | saveRelay parsed =>
      obtain rfl := List.mem_singleton.mp wanted
      refine ⟨?_, rfl⟩
      change (N.parseRelay relay).filter _ = _
      rw [parsed]
      exact Option.filter_eq_some_iff.mpr ⟨rfl, decide_eq_true wanted⟩
    | remove | removeRelay => cases wanted

/-- What the reader is to find of a relay that was edited. -/
def Change.Shown (N : Library) (change : Change) (list : SavedGroupList) (relay : RelayUrl) : Prop :=
  match change.operation with
  | .saveSimpleGroup => ∃ entry, list.entries N change.id relay = [entry]
  | .removeSimpleGroup => list.entries N change.id relay = []
  | .renameSimpleGroup =>
    ∃ entry, list.entries N change.id relay = [entry] ∧ entry.displayName = change.displayName
  | .saveRelay => ∃ raw, list.relayEntries N relay = [raw]
  | .removeRelay => list.relayEntries N relay = []

theorem fromEvent_ok (kind : event.kind = savedKind) : ∃ list, SavedGroupList.fromEvent event = .ok list :=
  ⟨_, if_neg (not_not.mpr kind)⟩

theorem target_of_relay (row : change.operation = .saveRelay ∨ change.operation = .removeRelay) :
    change.target N tag = (relayTarget N tag).filter (· ∈ change.relays) := by
  unfold Change.target
  obtain saves | removes := row
  · rw [saves]
  · rw [removes]

theorem entries_of_keyed (group : change.operation ≠ .saveRelay ∧ change.operation ≠ .removeRelay)
    (selected : relay ∈ change.relays) (read : SavedGroupList.fromEvent event = .ok list) :
    list.entries N change.id relay =
      (event.tags.filter (keyedBy (change.target N) relay)).filterMap entryOf := by
  rw [entries_eq read]
  congr
  funext tag
  unfold keyedBy
  rw [target_of_group group]
  refine decide_eq_decide.mpr ?_
  rw [Option.filter_eq_some_iff]
  exact (and_iff_left (decide_eq_true selected)).symm

theorem relayEntries_of_keyed (row : change.operation = .saveRelay ∨ change.operation = .removeRelay)
    (selected : relay ∈ change.relays) (read : SavedGroupList.fromEvent event = .ok list) :
    list.relayEntries N relay =
      (event.tags.filter (keyedBy (change.target N) relay)).filterMap relayOf := by
  rw [relayEntries_eq read]
  congr
  funext tag
  unfold keyedBy
  rw [target_of_relay row]
  refine decide_eq_decide.mpr ?_
  rw [Option.filter_eq_some_iff]
  exact (and_iff_left (decide_eq_true selected)).symm

theorem filter_apply_wanted (made : change.Made N) (h : apply N source change = .ok tags)
    (wanted : relay ∈ change.wanted) :
    ∃ tag, change.target N tag = some relay ∧ change.revised tag = some tag ∧
      tags.filter (keyedBy (change.target N) relay) = [tag] := by
  rw [apply_eq made] at h
  cases h
  exact filter_filled made.fills wanted

theorem filter_apply_dropped (made : change.Made N) (h : apply N source change = .ok tags)
    (removes : change.operation = .removeSimpleGroup ∨ change.operation = .removeRelay) :
    tags.filter (keyedBy (change.target N) relay) = [] := by
  have unwanted : change.wanted = [] := by
    obtain removes | removes := removes <;> rw [Change.wanted, removes]
  have drops (tag : Tag) : change.revised tag = none := by
    obtain removes | removes := removes <;> rw [Change.revised, removes]
  rw [apply_eq made, unwanted] at h
  cases h
  exact filter_filled_dropped fun tag _ _ => drops tag

/-- One entry is read of a relay that is to have one, and it needs no revision. -/
theorem entries_of_wanted (made : change.Made N) (h : apply N source change = .ok event.tags)
    (group : change.operation ≠ .saveRelay ∧ change.operation ≠ .removeRelay)
    (read : SavedGroupList.fromEvent event = .ok list) (selected : relay ∈ change.relays)
    (wanted : relay ∈ change.wanted) : ∃ head group raw rest,
      list.entries N change.id relay = [⟨group, raw, rest.head?⟩] ∧
        change.revised (head :: group :: raw :: rest) = some (head :: group :: raw :: rest) := by
  obtain ⟨tag, targets, revised, one⟩ := filter_apply_wanted made h wanted
  rw [target_of_group group, Option.filter_eq_some_iff] at targets
  obtain ⟨head, id, raw, rest, rfl, entry⟩ := entry_of_simpleGroupTarget targets.1
  refine ⟨head, id, raw, rest, ?_, revised⟩
  rw [entries_of_keyed group selected read, one, List.filterMap_cons_some entry]
  rfl

theorem shown_of_apply (made : change.Made N) (h : apply N source change = .ok event.tags)
    (read : SavedGroupList.fromEvent event = .ok list) (selected : relay ∈ change.relays) :
    change.Shown N list relay := by
  unfold Change.Shown
  cases operation : change.operation with
  | saveSimpleGroup =>
    have wanted : relay ∈ change.wanted := by
      rw [Change.wanted, operation]
      exact selected
    obtain ⟨_, _, _, _, one, -⟩ := entries_of_wanted made h (by simp [operation]) read selected wanted
    exact ⟨_, one⟩
  | renameSimpleGroup =>
    have wanted : relay ∈ change.wanted := by
      rw [Change.wanted, operation]
      exact selected
    obtain ⟨head, group, raw, rest, one, revised⟩ :=
      entries_of_wanted made h (by simp [operation]) read selected wanted
    refine ⟨_, one, ?_⟩
    rw [Change.revised, operation] at revised
    obtain ⟨name, named, same⟩ := Option.map_eq_some_iff.mp revised
    -- a tag that a new name does not change has that name
    rw [renamed_cons] at same
    rw [named, ← (List.cons.inj (List.cons.inj (List.cons.inj same).2).2).2]
    rfl
  | removeSimpleGroup =>
    dsimp only
    rw [entries_of_keyed (by simp [operation]) selected read, filter_apply_dropped made h (.inl operation)]
    rfl
  | saveRelay =>
    have wanted : relay ∈ change.wanted := by
      rw [Change.wanted, operation]
      exact selected
    obtain ⟨tag, targets, -, one⟩ := filter_apply_wanted made h wanted
    rw [target_of_relay (.inl operation), Option.filter_eq_some_iff] at targets
    obtain ⟨raw, listed⟩ := relayOf_of_relayTarget targets.1
    refine ⟨raw, ?_⟩
    rw [relayEntries_of_keyed (.inl operation) selected read, one, List.filterMap_cons_some listed]
    rfl
  | removeRelay =>
    dsimp only
    rw [relayEntries_of_keyed (.inr operation) selected read, filter_apply_dropped made h (.inr operation)]
    rfl

/-- What is not an entry of a selected relay is left alone. -/
theorem filter_apply_others (made : change.Made N) (h : apply N source change = .ok tags) :
    tags.filter (change.target N · |>.isNone) = source.filter (change.target N · |>.isNone) := by
  rw [apply_eq made] at h
  cases h
  refine filter_filled_away made.fills fun tag relay targets => ?_
  rw [targets]
  rfl

theorem apply_again (made : change.Made N) (h : apply N source change = .ok tags) :
    apply N tags change = .ok tags := by
  rw [apply_eq made] at h ⊢
  cases h
  exact congrArg Except.ok (filled_filled made.fills)

/-- An edit never fails, changes nothing when it is done again, leaves the other tags as they are,
and is seen by the reader. -/
theorem edits_agree_with_reader (made : change.Made N) (source : List Tag) :
    ∃ tags, apply N source change = .ok tags ∧ apply N tags change = .ok tags ∧
      tags.filter (change.target N · |>.isNone) = source.filter (change.target N · |>.isNone) ∧
      ∀ event : EventValue, event.kind = savedKind → event.tags = tags →
        ∃ list, SavedGroupList.fromEvent event = .ok list ∧
          ∀ relay ∈ change.relays, change.Shown N list relay := by
  have h : apply N source change = _ := apply_eq made
  refine ⟨_, h, apply_again made h, filter_apply_others made h, fun event kind same => ?_⟩
  obtain ⟨list, read⟩ := fromEvent_ok kind
  exact ⟨list, read, fun relay selected => shown_of_apply made (same ▸ h) read selected⟩

def sampleGroup : SimpleGroup := ⟨"g", [sampleRelay], by decide, by decide, by decide⟩

theorem two_entries_renamed : ∃ tags,
    apply plainLibrary [["r", "wss://b.example/"], ["group", "g", sampleRelay],
        ["group", "g", sampleRelay, "old"], ["group", "g"]] ⟨.renameSimpleGroup, "g", [sampleRelay], some "new"⟩ =
      .ok tags ∧
      apply plainLibrary tags ⟨.renameSimpleGroup, "g", [sampleRelay], some "new"⟩ = .ok tags := by
  have parsed : plainLibrary.parseRelay sampleRelay = some sampleRelay := by decide +kernel
  have made : (Change.mk .renameSimpleGroup "g" [sampleRelay] (some "new")).Made plainLibrary := by
    refine .rename sampleGroup "new" fun relay listed => ?_
    obtain rfl := List.mem_singleton.mp listed
    exact parsed
  obtain ⟨tags, once, again, -⟩ := edits_agree_with_reader made
    [["r", "wss://b.example/"], ["group", "g", sampleRelay], ["group", "g", sampleRelay, "old"], ["group", "g"]]
  exact ⟨tags, once, again⟩

end Agreement

end Fava.Edits.SavedGroups
