import Fava.Edits.ContactList
import Fava.Write.Bytes

namespace Fava.Edits.Nip02

open Std Fava.Lib Fava.Nostr Fava.Write

variable {N : Library} {tag row : Tag} {tags tags' : List Tag} {change : Change} {key : PublicKey}
  {edit : EventEdit} {relay : RelayUrl} {petname : Option String}

section Transformation

variable (N)

/-- The loop of an edit: whether a row of the target was kept, and the tags so far. -/
def keepTag (change : Change) (kept : Bool × List Tag) (tag : Tag) : Bool × List Tag :=
  if tagTargets N tag change.target then
    if !change.operation.isRemove && !kept.1 then (true, kept.2 ++ [tag]) else kept
  else (kept.1, kept.2 ++ [tag])

variable {N}

theorem apply_eq (tags : List Tag) (change : Change) : apply N tags change =
    if !change.operation.isRemove && !(tags.foldl (keepTag N change) (false, [])).1 then do
      let row ← canonicalRow N change
      pure ((tags.foldl (keepTag N change) (false, [])).2 ++ [row])
    else .ok (tags.foldl (keepTag N change) (false, [])).2 := rfl

/-- Once a row of the target was kept, or when none is to be, all its rows go. -/
theorem foldl_keepTag_done {kept : Bool} {before : List Tag}
    (done : (!change.operation.isRemove && !kept) = false) :
    tags.foldl (keepTag N change) (kept, before) =
      (kept, before ++ tags.filter (!tagTargets N · change.target)) := by
  induction tags generalizing before with
  | nil => simp
  | cons tag tags ih =>
    rw [List.foldl_cons]
    by_cases targets : tagTargets N tag change.target = true
    · rw [keepTag, if_pos targets, if_neg (by simp [done]), ih, List.filter_cons_of_neg (by simp [targets])]
    · rw [keepTag, if_neg targets, ih, List.filter_cons_of_pos (by simpa using targets),
        List.append_assoc]
      rfl

theorem foldl_keepTag_absent {kept : Bool} {before : List Tag}
    (absent : ∀ tag ∈ tags, tagTargets N tag change.target = false) :
    tags.foldl (keepTag N change) (kept, before) = (kept, before ++ tags) := by
  induction tags generalizing before with
  | nil => simp
  | cons tag tags ih =>
    rw [List.forall_mem_cons] at absent
    rw [List.foldl_cons, keepTag, if_neg (by simp [absent.1]), ih absent.2, List.append_assoc]
    rfl

theorem apply_remove (remove : change.operation.isRemove = true) :
    apply N tags change = .ok (tags.filter (!tagTargets N · change.target)) := by
  rw [apply_eq, foldl_keepTag_done (by simp [remove])]
  simp [remove]

theorem apply_absent (follow : change.operation.isRemove = false)
    (absent : ∀ tag ∈ tags, tagTargets N tag change.target = false)
    (built : canonicalRow N change = .ok row) : apply N tags change = .ok (tags ++ [row]) := by
  rw [apply_eq, foldl_keepTag_absent absent, built]
  simp [follow]

/-- A follow keeps the first row of its target, and every row of another. -/
theorem apply_present {before after : List Tag} (follow : change.operation.isRemove = false)
    (absent : ∀ tag ∈ before, tagTargets N tag change.target = false)
    (targets : tagTargets N row change.target = true) :
    apply N (before ++ row :: after) change =
      .ok (before ++ row :: after.filter (!tagTargets N · change.target)) := by
  have loop : (before ++ row :: after).foldl (keepTag N change) (false, []) =
      (true, before ++ row :: after.filter (!tagTargets N · change.target)) := by
    rw [List.foldl_append, foldl_keepTag_absent absent, List.foldl_cons, keepTag, if_pos targets,
      if_pos (by simp [follow]), foldl_keepTag_done (by simp)]
    simp
  rw [apply_eq, loop]
  simp

end Transformation

/-- Keys and relays are read back from the text they are written as. -/
structure ReadsBack (N : Library) : Prop where
  key : ∀ bytes key, N.keyFromSlice bytes = some key → N.keyFromHex (N.keyToHex key) = some key
  relay : ∀ text relay, N.parseRelay text = some relay → (N.parseRelay relay).isSome = true

section Rows

theorem decodeRelay_eq_ok {text : String} (h : decodeRelay N text = .ok (some relay)) :
    N.parseRelay text = some relay := by
  unfold decodeRelay at h
  split at h
  · cases h
  · split at h
    · cases h
    · rename_i parsed
      cases h
      exact parsed

theorem decodeMetadata_relay {bytes : List UInt8} {operation : Operation}
    (h : decodeMetadata N bytes = .ok operation) :
    ∃ hint petname, operation = .addWithMetadata hint petname ∧
      ∀ relay, hint = some relay → ∃ text, N.parseRelay text = some relay := by
  obtain ⟨⟨relayBytes, remaining⟩, -, h⟩ := bind_eq_ok.mp h
  dsimp only at h
  split at h
  · cases h
  · obtain ⟨hint, hinted, h⟩ := bind_eq_ok.mp h
    obtain ⟨petname, -, h⟩ := bind_eq_ok.mp h
    cases h
    exact ⟨hint, petname, rfl, fun relay same => ⟨_, decodeRelay_eq_ok (same ▸ hinted)⟩⟩

theorem decodeOperation_relay {code : UInt8} {bytes : List UInt8}
    (h : decodeOperation N code bytes = .ok (.addWithMetadata (some relay) petname)) :
    ∃ text, N.parseRelay text = some relay := by
  unfold decodeOperation at h
  split at h
  · cases h
  · split at h
    · cases h
    · split at h
      · obtain ⟨hint, petname, same, parsed⟩ := decodeMetadata_relay h
        injection same with same
        exact parsed relay same.symm
      · cases h

/-- An edit's target was read from its bytes, and its hint from text. -/
theorem decodeEdit_spec (h : decodeEdit N edit = .ok change) :
    (∃ bytes, N.keyFromSlice bytes = some change.target) ∧
      ∀ relay petname, change.operation = .addWithMetadata (some relay) petname →
        ∃ text, N.parseRelay text = some relay := by
  obtain ⟨_, -, h⟩ := bind_eq_ok.mp h
  unfold decode at h
  split at h
  · cases h
  · split at h
    · cases h
    · rename_i target named
      obtain ⟨operation, decoded, h⟩ := bind_eq_ok.mp h
      cases h
      refine ⟨⟨_, named⟩, fun relay petname same => ?_⟩
      obtain rfl : operation = .addWithMetadata (some relay) petname := same
      exact decodeOperation_relay decoded

theorem parseHint_ok (hint : ∀ raw, tag[2]? = some raw → raw = "" ∨ (N.parseRelay raw).isSome = true) :
    ∃ relay, parseHint N 0 tag = .ok relay := by
  unfold parseHint
  split
  · exact ⟨none, rfl⟩
  · exact ⟨none, rfl⟩
  · rename_i raw named found
    obtain empty | parses := hint raw found
    · exact absurd empty named
    · obtain ⟨relay, parsed⟩ := Option.isSome_iff_exists.mp parses
      exact ⟨some relay, demand_bind_eq_ok.mpr ⟨relay, parsed, rfl⟩⟩

/-- The columns of a canonical row after its key: an empty hint stands before a
petname without one. -/
theorem canonicalRow_eq (built : canonicalRow N change = .ok row) :
    ∃ columns, row = "p" :: N.keyToHex change.target :: columns ∧ columns.length ≤ 2 ∧
      ∀ raw, columns[0]? = some raw → raw = "" ∨
        ∃ petname, change.operation = .addWithMetadata (some raw) petname := by
  obtain ⟨operation, target⟩ := change
  cases operation with
  | add | remove =>
    cases built
    exact ⟨[], rfl, by simp, by simp⟩
  | addWithMetadata relay petname =>
    cases relay with
    | none =>
      cases petname with
      | none =>
        cases built
        exact ⟨[], rfl, by simp, by simp⟩
      | some petname =>
        cases built
        exact ⟨["", petname], rfl, by simp, by simp⟩
    | some relay =>
      cases petname with
      | none =>
        cases built
        exact ⟨[relay], rfl, by simp, by simp⟩
      | some petname =>
        cases built
        exact ⟨[relay, petname], rfl, by simp, by simp⟩

/-- The row that a follow adds names its target, and the reader accepts it. -/
theorem canonicalRow_read (reads : ReadsBack N) (decoded : decodeEdit N edit = .ok change)
    (built : canonicalRow N change = .ok row) :
    tagTargets N row change.target = true ∧ readable N row = true := by
  obtain ⟨⟨bytes, target⟩, hints⟩ := decodeEdit_spec decoded
  have hex := reads.key bytes change.target target
  obtain ⟨columns, rfl, short, hint⟩ := canonicalRow_eq built
  have hinted : ∃ relay, parseHint N 0 ("p" :: N.keyToHex change.target :: columns) = .ok relay := by
    refine parseHint_ok fun raw found => (hint raw found).imp_right fun ⟨petname, carried⟩ => ?_
    obtain ⟨text, parsed⟩ := hints raw petname carried
    exact reads.relay text raw parsed
  obtain ⟨relay, hinted⟩ := hinted
  refine ⟨tagTargets_iff.mpr ⟨rfl, _, rfl, hex⟩, readable_iff.mpr ⟨_, _, relay, rfl, hex, hinted, ?_⟩⟩
  exact Nat.add_le_add_right short 2

end Rows

section Reading

variable (N)

/-- Some row that names the key is readable. -/
def Followed (tags : List Tag) (key : PublicKey) : Prop :=
  ∃ tag ∈ tags, tagTargets N tag key = true ∧ readable N tag = true

/-- The first row that names the key, if any does, is readable. -/
def firstReadable (tags : List Tag) (key : PublicKey) : Bool :=
  (tags.find? (tagTargets N · key)).all (readable N)

variable {N}

/-- A row names one key. -/
theorem tagTargets_unique {other : PublicKey} (first : tagTargets N tag key = true)
    (second : tagTargets N tag other = true) : key = other := by
  obtain ⟨-, raw, named, parsed⟩ := tagTargets_iff.mp first
  obtain ⟨-, raw', named', parsed'⟩ := tagTargets_iff.mp second
  obtain rfl : raw = raw' := Option.some.inj (named.symm.trans named')
  exact Option.some.inj (parsed.symm.trans parsed')

/-- Other keys are followed as before when the rows of others are kept. -/
theorem followed_other {target : PublicKey} (other : key ≠ target)
    (same : tags'.filter (!tagTargets N · target) = tags.filter (!tagTargets N · target)) :
    Followed N tags' key ↔ Followed N tags key := by
  have within : ∀ {tags : List Tag} {tag : Tag}, tagTargets N tag key = true →
      (tag ∈ tags.filter (!tagTargets N · target) ↔ tag ∈ tags) := by
    intro tags tag names
    rw [List.mem_filter, and_iff_left_iff_imp]
    intro _
    by_contra named
    exact other (tagTargets_unique names (by simpa using named))
  constructor
  · rintro ⟨tag, inside, names, reads⟩
    exact ⟨tag, (within names).mp (same ▸ (within names).mpr inside), names, reads⟩
  · rintro ⟨tag, inside, names, reads⟩
    exact ⟨tag, (within names).mp (same ▸ (within names).mpr inside), names, reads⟩

/-- What a follow makes of the tags: one row of the target, which was the first or
is new and readable, among all the rows of others. -/
theorem apply_follow (reads : ReadsBack N) (decoded : decodeEdit N edit = .ok change)
    (follow : change.operation.isRemove = false) (applied : apply N tags change = .ok tags') :
    ∃ before row after, tags' = before ++ row :: after ∧
      (∀ tag ∈ before, tagTargets N tag change.target = false) ∧
      (∀ tag ∈ after, tagTargets N tag change.target = false) ∧
      tagTargets N row change.target = true ∧
      tags'.filter (!tagTargets N · change.target) = tags.filter (!tagTargets N · change.target) ∧
      (readable N row = true ↔ firstReadable N tags change.target = true) := by
  cases found : tags.find? (tagTargets N · change.target) with
  | none =>
    have absent : ∀ tag ∈ tags, tagTargets N tag change.target = false := fun tag inside =>
      Bool.not_eq_true _ ▸ List.find?_eq_none.mp found tag inside
    obtain ⟨row, built⟩ := canonicalRow_ok (N := N) change
    obtain ⟨targets, readable⟩ := canonicalRow_read reads decoded built
    rw [apply_absent follow absent built] at applied
    cases applied
    refine ⟨tags, row, [], rfl, absent, by simp, targets, ?_, by simp [readable, firstReadable, found]⟩
    rw [List.filter_append, List.filter_cons_of_neg (by simp [targets]), List.filter_nil,
      List.append_nil]
  | some row =>
    obtain ⟨targets, before, after, rfl, absent⟩ := List.find?_eq_some_iff_append.mp found
    have absent : ∀ tag ∈ before, tagTargets N tag change.target = false := fun tag inside => by
      simpa using absent tag inside
    rw [apply_present follow absent targets] at applied
    cases applied
    refine ⟨before, row, after.filter (!tagTargets N · change.target), rfl, absent, ?_, targets, ?_,
      by rw [firstReadable, found]; rfl⟩
    · intro tag inside
      simpa using (List.mem_filter.mp inside).2
    · rw [List.filter_append, List.filter_append, List.filter_cons_of_neg (by simp [targets]),
        List.filter_cons_of_neg (by simp [targets]), List.filter_filter]
      simp only [Bool.and_self]

/-- What an unfollow makes of the tags: no row of the target. -/
theorem followed_remove (remove : change.operation.isRemove = true)
    (applied : apply N tags change = .ok tags') :
    tags'.filter (!tagTargets N · change.target) = tags.filter (!tagTargets N · change.target) ∧
      ¬ Followed N tags' change.target := by
  rw [apply_remove remove] at applied
  cases applied
  refine ⟨by rw [List.filter_filter]; simp only [Bool.and_self], ?_⟩
  rintro ⟨tag, inside, names, -⟩
  have unnamed := (List.mem_filter.mp inside).2
  rw [names] at unnamed
  cases unnamed

theorem followed_follow (reads : ReadsBack N) (decoded : decodeEdit N edit = .ok change)
    (follow : change.operation.isRemove = false) (applied : apply N tags change = .ok tags') :
    Followed N tags' change.target ↔ firstReadable N tags change.target = true := by
  obtain ⟨before, row, after, rfl, absent, gone, targets, -, first⟩ :=
    apply_follow reads decoded follow applied
  rw [← first]
  constructor
  · rintro ⟨tag, inside, names, readable⟩
    obtain inside | rfl | inside := (List.mem_append.mp inside).imp_right List.mem_cons.mp
    · rw [absent tag inside] at names
      cases names
    · exact readable
    · rw [gone tag inside] at names
      cases names
  · exact fun readable => ⟨row, by simp, targets, readable⟩

theorem apply_others (reads : ReadsBack N) (decoded : decodeEdit N edit = .ok change)
    (applied : apply N tags change = .ok tags') :
    tags'.filter (!tagTargets N · change.target) = tags.filter (!tagTargets N · change.target) := by
  cases operation : change.operation.isRemove with
  | true => exact (followed_remove operation applied).1
  | false =>
    obtain ⟨_, _, _, -, -, -, -, others, -⟩ := apply_follow reads decoded operation applied
    exact others

/-- An edit made again changes nothing. -/
theorem apply_again (reads : ReadsBack N) (decoded : decodeEdit N edit = .ok change)
    (applied : apply N tags change = .ok tags') : apply N tags' change = .ok tags' := by
  cases operation : change.operation.isRemove with
  | true =>
    rw [apply_remove operation] at applied
    cases applied
    rw [apply_remove operation, List.filter_filter]
    simp only [Bool.and_self]
  | false =>
    obtain ⟨before, row, after, rfl, absent, gone, targets, -, -⟩ :=
      apply_follow reads decoded operation applied
    have rest : after.filter (!tagTargets N · change.target) = after :=
      List.filter_eq_self.mpr fun tag inside => by simp [gone tag inside]
    rw [apply_present operation absent targets, rest]

end Reading

section Agreement

variable {source value : EventValue} {before after : ContactList} {createdAt : Timestamp}
  {author : PublicKey} {event again : UnsignedEvent}

theorem verify_of_validateEvent (valid : validateEvent N source = .ok ()) :
    source.verify N = .ok () := by
  cases source with
  | unsigned event =>
    obtain ⟨_, -, valid⟩ := bind_eq_ok.mp valid
    obtain ⟨-, valid⟩ := require_bind_eq_ok.mp valid
    exact mapError_eq_ok.mpr (mapError_eq_ok.mp valid)
  | signed event =>
    obtain ⟨_, -, valid⟩ := bind_eq_ok.mp valid
    exact mapError_eq_ok.mpr (mapError_eq_ok.mp valid)

/-- The applier builds the edited tags with the content of its source. -/
theorem applier_apply (decoded : decodeEdit N edit = .ok change)
    (qualified : qualifiedSource N author (some source) createdAt = .ok (source.content, source.tags))
    (applied : apply N source.tags change = .ok tags) :
    (applier N).apply edit author (some source) createdAt =
      buildEvent N author contactList createdAt tags source.content := by
  have unfolded : (applier N).apply edit author (some source) createdAt = (do
      let event ← buildEvent N author contactList createdAt tags source.content
      (N.verifyId event).mapError .invalidEvent
      pure event) := by
    simp only [applier, decoded, qualified, applied, bind, Except.bind]
  rw [unfolded]
  cases built : buildEvent N author contactList createdAt tags source.content with
  | error error => rfl
  | ok event =>
    have verified := verifyId_of_buildEvent built
    simp only [bind, Except.bind, verified, Except.mapError]
    rfl

theorem qualifiedSource_of_ok {content : String}
    (h : qualifiedSource N author (some value) createdAt = .ok (content, tags)) :
    content = value.content ∧ tags = value.tags := by
  obtain ⟨_, -, h⟩ := bind_eq_ok.mp h
  obtain ⟨_, -, h⟩ := bind_eq_ok.mp h
  split at h
  · cases h
  · split at h
    · cases h
    · cases h
      exact ⟨rfl, rfl⟩

/-- Whatever source an edit is applied to, its tags are edited and its content stays. -/
theorem applier_apply_eq_ok (decoded : decodeEdit N edit = .ok change)
    (h : (applier N).apply edit author (some value) createdAt = .ok event) :
    apply N value.tags change = .ok event.tags ∧ event.content = value.content ∧
      buildEvent N author contactList createdAt event.tags event.content = .ok event := by
  obtain ⟨decodes, decoded', h⟩ := bind_eq_ok.mp h
  obtain rfl := Except.ok.inj (decoded.symm.trans decoded')
  obtain ⟨⟨content, sourceTags⟩, qualified, h⟩ := bind_eq_ok.mp h
  obtain ⟨rfl, rfl⟩ := qualifiedSource_of_ok qualified
  obtain ⟨tags, applied, h⟩ := bind_eq_ok.mp h
  obtain ⟨built, isBuilt, h⟩ := bind_eq_ok.mp h
  obtain ⟨_, -, h⟩ := bind_eq_ok.mp h
  obtain rfl := Except.ok.inj h
  have shape := buildEvent_eq_ok isBuilt
  have content : built.content = value.content := congrArg UnsignedEvent.content shape
  have edited : built.tags = tags := congrArg UnsignedEvent.tags shape
  rw [content, edited]
  exact ⟨applied, rfl, isBuilt⟩

/-- The reader accepts what is built as a contact list. -/
theorem fromEvent_of_buildEvent {content : String}
    (built : buildEvent N author contactList createdAt tags content = .ok event) :
    ∃ list, fromEvent N (.unsigned event) = .ok list := by
  have verified := verifyId_of_buildEvent built
  have rebuilt := built
  obtain rfl := buildEvent_eq_ok built
  refine ⟨_, fromEvent_eq_ok.mpr ⟨rfl, ?_, rfl, rfl⟩⟩
  have bound : validateUnsignedBound N
      ⟨some (N.computeId author createdAt contactList tags content), author, createdAt, contactList,
        tags, content⟩ = .ok () :=
    bind_eq_ok.mpr ⟨_, mapError_eq_ok.mpr rebuilt, rfl⟩
  exact bind_eq_ok.mpr ⟨(), bound, require_bind_eq_ok.mpr ⟨rfl, mapError_eq_ok.mpr verified⟩⟩

variable (N)

/-- What an edit does to the follows: it adds its target, or takes it away; and a
follow whose target's first row is unreadable keeps that row, so takes it away. -/
structure Edited (change : Change) (tags : List Tag) (before after : ContactList) : Prop where
  removed : change.operation.isRemove = true → ∀ key : PublicKey,
    key ∈ after.followed ↔ key ∈ before.followed ∧ key ≠ change.target
  added : change.operation.isRemove = false → firstReadable N tags change.target = true →
    ∀ key : PublicKey, key ∈ after.followed ↔ key ∈ before.followed ∨ key = change.target
  kept : change.operation.isRemove = false → firstReadable N tags change.target = false →
    ∀ key : PublicKey, key ∈ after.followed ↔ key ∈ before.followed ∧ key ≠ change.target

variable {N}

theorem apply_edited (reads : ReadsBack N) (decoded : decodeEdit N edit = .ok change)
    (applied : apply N source.tags change = .ok value.tags) (read : fromEvent N source = .ok before)
    (reread : fromEvent N value = .ok after) : Edited N change source.tags before after := by
  have others : ∀ key : PublicKey, key ≠ change.target →
      (key ∈ after.followed ↔ key ∈ before.followed) := fun key other => by
    rw [mem_followed read, mem_followed reread]
    exact followed_other other (apply_others reads decoded applied)
  have without : change.target ∉ after.followed → ∀ key : PublicKey,
      key ∈ after.followed ↔ key ∈ before.followed ∧ key ≠ change.target := by
    intro gone key
    by_cases same : key = change.target
    · exact iff_of_false (same ▸ gone) fun h => h.2 same
    · rw [others key same, and_iff_left same]
  refine ⟨fun remove => without ?_, fun follow first key => ?_, fun follow unreadable => without ?_⟩
  · rw [mem_followed reread]
    exact (followed_remove remove applied).2
  · by_cases same : key = change.target
    · subst same
      refine iff_of_true ?_ (.inr rfl)
      exact (mem_followed reread).mpr ((followed_follow reads decoded follow applied).mpr first)
    · rw [others key same, or_iff_left same]
  · rw [mem_followed reread]
    intro followed
    rw [(followed_follow reads decoded follow applied).mp followed] at unreadable
    cases unreadable

/-- Edits and the reader agree: an edit of a list that can be read and fits is
refused only for its own size, and read back it has the follows of the edit. -/
theorem edits_agree (reads : ReadsBack N) (decoded : decodeEdit N edit = .ok change)
    (read : fromEvent N source = .ok before) (fits : validateValueSource source = .ok ())
    (succeeds : source.createdAt < createdAt) :
    ∃ tags, apply N source.tags change = .ok tags ∧ apply N tags change = .ok tags ∧
      tags.filter (!tagTargets N · change.target) =
        source.tags.filter (!tagTargets N · change.target) ∧
      (applier N).apply edit source.author (some source) createdAt =
        buildEvent N source.author contactList createdAt tags source.content ∧
      ∀ event, (applier N).apply edit source.author (some source) createdAt = .ok event →
        event.tags = tags ∧ event.content = source.content ∧
        (∃ after, fromEvent N (.unsigned event) = .ok after ∧
          Edited N change source.tags before after) ∧
        ∀ (value : EventValue) (author : PublicKey) (later : Timestamp) (again : UnsignedEvent),
          value.tags = event.tags → value.content = event.content →
          (applier N).apply edit author (some value) later = .ok again →
            again.tags = event.tags ∧ again.content = event.content := by
  obtain ⟨kind, valid, -, -⟩ := fromEvent_eq_ok.mp read
  obtain ⟨tags, applied⟩ := apply_ok (N := N) source.tags change
  have qualified : qualifiedSource N source.author (some source) createdAt =
      .ok (source.content, source.tags) := qualifiedSource_eq_ok fun s same => by
    cases same
    exact ⟨fits, verify_of_validateEvent valid, rfl, kind, succeeds⟩
  refine ⟨tags, applied, apply_again reads decoded applied, apply_others reads decoded applied,
    applier_apply decoded qualified applied, fun event yielded => ?_⟩
  obtain ⟨edited, content, built⟩ := applier_apply_eq_ok decoded yielded
  obtain rfl := Except.ok.inj (applied.symm.trans edited)
  obtain ⟨after, reread⟩ := fromEvent_of_buildEvent built
  have edits : apply N source.tags change = .ok (EventValue.unsigned event).tags := applied
  refine ⟨rfl, content, ⟨after, reread, apply_edited reads decoded edits read reread⟩, ?_⟩
  intro value author later again sameTags sameContent repeated
  obtain ⟨twice, kept, -⟩ := applier_apply_eq_ok decoded repeated
  rw [sameTags, apply_again reads decoded applied] at twice
  exact ⟨(Except.ok.inj twice).symm, kept.trans sameContent⟩

end Agreement

section Plain

theorem plain_relay {text : String}
    (parsed : (if text.startsWith "wss://" then some text else none) = some relay) :
    (plainLibrary.parseRelay relay).isSome = true := by
  split at parsed
  · rename_i secure
    cases parsed
    exact Option.isSome_iff_exists.mpr ⟨relay, if_pos secure⟩
  · cases parsed

theorem plainLibrary_readsBack : ReadsBack plainLibrary :=
  ⟨fun _ _ => plain_key, fun _ _ => plain_relay⟩

end Plain

/-- One author's contact list, unsigned. -/
def listed (tags : List Tag) : UnsignedEvent :=
  ⟨some (plainLibrary.computeId 7 10 contactList tags ""), 7, 10, contactList, tags, ""⟩

def followEdit : EventEdit := ⟨contactList, none, 1 :: (List.replicate 31 0 ++ [5])⟩

/-- One more follow beside one that there is. -/
theorem edits_agree_of_follow : ∃ (event : UnsignedEvent) (after : ContactList),
    (applier plainLibrary).apply followEdit 7
        (some (.unsigned (listed [["t", "nostr"], ["p", plainLibrary.keyToHex 9]]))) 11 = .ok event ∧
      fromEvent plainLibrary (.unsigned event) = .ok after ∧
      ∀ key : PublicKey, key ∈ after.followed ↔ key = 9 ∨ key = 5 := by
  obtain ⟨before, read, followed⟩ : ∃ before, fromEvent plainLibrary
      (.unsigned (listed [["t", "nostr"], ["p", plainLibrary.keyToHex 9]])) = .ok before ∧
      before.followed = [9] := ⟨_, rfl, by decide +kernel⟩
  have decoded : decodeEdit plainLibrary followEdit = .ok ⟨.add, 5⟩ := rfl
  have first : firstReadable plainLibrary [["t", "nostr"], ["p", plainLibrary.keyToHex 9]] 5 = true := by
    decide +kernel
  have earlier : (10 : Timestamp) < 11 := by decide
  obtain ⟨tags, -, -, -, -, yields⟩ :=
    edits_agree plainLibrary_readsBack decoded read rfl earlier
  obtain ⟨event, yielded⟩ : ∃ event, (applier plainLibrary).apply followEdit 7
      (some (.unsigned (listed [["t", "nostr"], ["p", plainLibrary.keyToHex 9]]))) 11 = .ok event :=
    ⟨_, rfl⟩
  obtain ⟨-, -, ⟨after, reread, edited⟩, -⟩ := yields event yielded
  refine ⟨event, after, yielded, reread, fun key => ?_⟩
  rw [edited.added rfl first key, followed, List.mem_singleton]

/-- A row with a column too many is kept and the readable row after it goes: who
was followed is followed no more. -/
theorem follow_unfollows : ∃ (before after : ContactList) (event : UnsignedEvent),
    decodeEdit plainLibrary followEdit = .ok ⟨.add, 5⟩ ∧
      fromEvent plainLibrary (.unsigned (listed
        [["p", plainLibrary.keyToHex 5, "", "", "x"], ["p", plainLibrary.keyToHex 5]])) = .ok before ∧
      (applier plainLibrary).apply followEdit 7 (some (.unsigned (listed
        [["p", plainLibrary.keyToHex 5, "", "", "x"], ["p", plainLibrary.keyToHex 5]]))) 11 = .ok event ∧
      fromEvent plainLibrary (.unsigned event) = .ok after ∧
      before.followed = [5] ∧ after.followed = [] := by
  refine ⟨_, _, _, rfl, rfl, rfl, rfl, ?_, ?_⟩ <;> decide +kernel

end Fava.Edits.Nip02
