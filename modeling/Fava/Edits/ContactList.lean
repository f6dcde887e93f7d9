import Fava.Edits.Nip02

namespace Fava.Edits.Nip02

open Std Fava.Lib Fava.Nostr Fava.Write

/-- One valid first-occurrence `p` row. -/
structure Follow where
  sourceIndex : Nat
  pubkey : PublicKey
  relay : Option RelayUrl
  petname : Option String
deriving DecidableEq

/-- Why a `p` row is not a follow, with its index and its columns. -/
inductive ContactListRowEvidence
  | missingTarget (sourceIndex : Nat) (rawRow : Tag)
  | invalidPublicKey (sourceIndex : Nat) (rawRow : Tag)
  | invalidRelayHint (sourceIndex : Nat) (rawRow : Tag)
  | duplicateTarget (sourceIndex : Nat) (rawRow : Tag) (pubkey : PublicKey)
  | uninterpretedExtraColumns (sourceIndex : Nat) (rawRow : Tag)

structure ContactList where
  author : PublicKey
  follows : List Follow
  evidence : List ContactListRowEvidence

inductive ContactListError
  | wrongKind (kind : Kind)
  | missingEventId
  | invalidEvent (reason : String)
  | tooManyTags (actual maximum : Nat)
  | tooLarge (bytes maximum : Nat)
  | encoding (reason : String)
  | duplicateRelay (relay : RelayUrl)
  | invalidRoute (reason : String)

/-- A build is refused for its tags or its size only, which this maps as
`map_build_error` does. -/
def mapWriteError : WriteIntentError → ContactListError
  | .tooManyTags actual maximum => .tooManyTags actual maximum
  | .tooLarge bytes maximum => .tooLarge bytes maximum
  | .encoding reason => .encoding reason
  | .duplicateExplicitRelay relay => .duplicateRelay relay
  | .emptyExplicitRelays => .invalidRoute WriteIntentError.emptyExplicitRelays.text
  | .tooManyExplicitRelays actual maximum =>
    .invalidRoute (WriteIntentError.tooManyExplicitRelays actual maximum).text
  | .invalidEvent reason => .invalidEvent reason
  | .expired => .invalidEvent WriteIntentError.expired.text

variable (N : Library)

def validateUnsignedBound (event : UnsignedEvent) : Except ContactListError Unit := do
  let _ ← (buildEvent N event.pubkey event.kind event.createdAt event.tags event.content).mapError
    mapWriteError
  pure ()

def validateEvent : EventValue → Except ContactListError Unit
  | .unsigned event => do
    validateUnsignedBound N event
    require event.id.isSome .missingEventId
    (N.verifyId event).mapError .invalidEvent
  | .signed event => do
    (validateValueSource (.signed event)).mapError mapWriteError
    (N.verify event).mapError .invalidEvent

/-- An empty relay hint is none. -/
def parseHint (sourceIndex : Nat) (values : Tag) : Except ContactListRowEvidence (Option RelayUrl) :=
  match values[2]? with
  | none | some "" => .ok none
  | some rawRelay => do
    let relay ← demand (N.parseRelay rawRelay) (.invalidRelayHint sourceIndex values)
    pure (some relay)

def parseRow (sourceIndex : Nat) (values : Tag) (seen : BTreeSet PublicKey) :
    Except ContactListRowEvidence Follow := do
  let rawPubkey ← demand values[1]? (.missingTarget sourceIndex values)
  let pubkey ← demand (N.keyFromHex rawPubkey) (.invalidPublicKey sourceIndex values)
  let relay ← parseHint N sourceIndex values
  let petname := values[3]?
  require (values.length ≤ 4) (.uninterpretedExtraColumns sourceIndex values)
  require (pubkey ∉ seen) (.duplicateTarget sourceIndex values pubkey)
  pure ⟨sourceIndex, pubkey, relay, petname⟩

/-- What has been read of the rows so far. -/
structure Rows where
  follows : List Follow
  evidence : List ContactListRowEvidence
  seen : BTreeSet PublicKey

def Rows.empty : Rows := ⟨[], [], ∅⟩

def readRow (rows : Rows) (row : Tag × Nat) : Rows :=
  if row.1.head? ≠ some "p" then rows
  else
    match parseRow N row.2 row.1 rows.seen with
    | .ok follow => { rows with
        follows := rows.follows ++ [follow]
        seen := rows.seen.insert follow.pubkey }
    | .error evidence => { rows with evidence := rows.evidence ++ [evidence] }

def readRows (tags : List Tag) : Rows := tags.zipIdx.foldl (readRow N) .empty

def fromEvent (event : EventValue) : Except ContactListError ContactList := do
  require (event.kind = contactList) (.wrongKind event.kind)
  validateEvent N event
  let _ ← demand event.id .missingEventId
  let rows := readRows N event.tags
  pure ⟨event.author, rows.follows, rows.evidence⟩

def ContactList.followed (list : ContactList) : List PublicKey := list.follows.map Follow.pubkey

/-- A row that the reader accepts where it stands alone. -/
def readable (tag : Tag) : Bool := (parseRow N 0 tag ∅).isOk

variable {N} {tag : Tag} {tags : List Tag} {key : PublicKey} {rows : Rows} {follow : Follow}
  {index : Nat} {seen : BTreeSet PublicKey} {event : EventValue} {list : ContactList}

theorem parseHint_index (other : Nat) (relay : Option RelayUrl)
    (h : parseHint N index tag = .ok relay) : parseHint N other tag = .ok relay := by
  unfold parseHint at h ⊢
  split at h
  · exact h
  · exact h
  · obtain ⟨parsed, found, h⟩ := demand_bind_eq_ok.mp h
    exact demand_bind_eq_ok.mpr ⟨parsed, found, h⟩

theorem parseRow_eq_ok : parseRow N index tag seen = .ok follow ↔
    ∃ rawPubkey relay, tag[1]? = some rawPubkey ∧ N.keyFromHex rawPubkey = some follow.pubkey ∧
      parseHint N index tag = .ok relay ∧ tag.length ≤ 4 ∧ follow.pubkey ∉ seen ∧
      follow = ⟨index, follow.pubkey, relay, tag[3]?⟩ := by
  constructor
  · intro h
    obtain ⟨rawPubkey, named, h⟩ := demand_bind_eq_ok.mp h
    obtain ⟨pubkey, parsed, h⟩ := demand_bind_eq_ok.mp h
    obtain ⟨relay, hinted, h⟩ := bind_eq_ok.mp h
    obtain ⟨short, h⟩ := require_bind_eq_ok.mp h
    obtain ⟨fresh, h⟩ := require_bind_eq_ok.mp h
    cases h
    exact ⟨rawPubkey, relay, named, parsed, hinted, short, fresh, rfl⟩
  · rintro ⟨rawPubkey, relay, named, parsed, hinted, short, fresh, same⟩
    refine demand_bind_eq_ok.mpr ⟨rawPubkey, named, demand_bind_eq_ok.mpr ⟨_, parsed, ?_⟩⟩
    refine bind_eq_ok.mpr ⟨relay, hinted, require_bind_eq_ok.mpr ⟨short, ?_⟩⟩
    exact require_bind_eq_ok.mpr ⟨fresh, congrArg Except.ok same.symm⟩

theorem readable_iff : readable N tag = true ↔ ∃ rawPubkey pubkey relay, tag[1]? = some rawPubkey ∧
    N.keyFromHex rawPubkey = some pubkey ∧ parseHint N 0 tag = .ok relay ∧ tag.length ≤ 4 := by
  rw [readable, isOk_iff]
  constructor
  · rintro ⟨follow, parsed⟩
    obtain ⟨rawPubkey, relay, named, key, hinted, short, -⟩ := parseRow_eq_ok.mp parsed
    exact ⟨rawPubkey, follow.pubkey, relay, named, key, hinted, short⟩
  · rintro ⟨rawPubkey, pubkey, relay, named, key, hinted, short⟩
    exact ⟨⟨0, pubkey, relay, tag[3]?⟩, parseRow_eq_ok.mpr
      ⟨rawPubkey, relay, named, key, hinted, short, ExtTreeSet.not_mem_empty, rfl⟩⟩

theorem tagTargets_iff : tagTargets N tag key = true ↔
    tag.head? = some "p" ∧ ∃ raw, tag[1]? = some raw ∧ N.keyFromHex raw = some key := by
  rw [tagTargets, Bool.and_eq_true, decide_eq_true_eq, decide_eq_true_eq, Option.bind_eq_some_iff]

/-- A row is a follow of the key it names if it is readable and the key has not
been seen. -/
theorem parseRow_iff (p : tag.head? = some "p") :
    (∃ follow, parseRow N index tag seen = .ok follow ∧ follow.pubkey = key) ↔
      tagTargets N tag key = true ∧ readable N tag = true ∧ key ∉ seen := by
  rw [tagTargets_iff, readable_iff]
  constructor
  · rintro ⟨follow, parsed, rfl⟩
    obtain ⟨raw, relay, named, key, hinted, short, fresh, -⟩ := parseRow_eq_ok.mp parsed
    exact ⟨⟨p, raw, named, key⟩,
      ⟨raw, follow.pubkey, relay, named, key, parseHint_index 0 relay hinted, short⟩, fresh⟩
  · rintro ⟨⟨-, raw, named, key⟩, ⟨_, _, relay, -, -, hinted, short⟩, fresh⟩
    exact ⟨⟨index, _, relay, tag[3]?⟩, parseRow_eq_ok.mpr
      ⟨raw, relay, named, key, parseHint_index index relay hinted, short, fresh, rfl⟩, rfl⟩

/-- The keys that have been seen are those of the follows. -/
def Rows.Counts (rows : Rows) : Prop :=
  ∀ key : PublicKey, key ∈ rows.seen ↔ key ∈ rows.follows.map Follow.pubkey

/-- One more row makes a key followed if it names the key and is readable. -/
theorem readRow_followed (counts : rows.Counts) (row : Tag × Nat) : (readRow N rows row).Counts ∧
    ∀ key : PublicKey, key ∈ (readRow N rows row).follows.map Follow.pubkey ↔
      key ∈ rows.follows.map Follow.pubkey ∨
        tagTargets N row.1 key = true ∧ readable N row.1 = true := by
  unfold readRow
  split
  · rename_i other
    refine ⟨counts, fun key => ⟨.inl, fun h => h.resolve_right fun named => ?_⟩⟩
    exact other (tagTargets_iff.mp named.1).1
  · rename_i p
    have p : row.1.head? = some "p" := Decidable.not_not.mp p
    have parses : ∀ key : PublicKey,
        (∃ follow, parseRow N row.2 row.1 rows.seen = .ok follow ∧ follow.pubkey = key) ↔
          tagTargets N row.1 key = true ∧ readable N row.1 = true ∧ key ∉ rows.seen :=
      fun _ => parseRow_iff p
    split
    · rename_i follow parsed
      have own := (parses follow.pubkey).mp ⟨follow, parsed, rfl⟩
      refine ⟨fun key => ?_, fun key => ?_⟩
      · rw [BTreeSet.mem_insert, counts key, List.map_append, List.mem_append, or_comm]
        simp
      · rw [List.map_append, List.mem_append, List.map_singleton, List.mem_singleton]
        refine or_congr_right ⟨fun same => same ▸ ⟨own.1, own.2.1⟩, fun named => ?_⟩
        obtain ⟨raw, found, parsed⟩ := (tagTargets_iff.mp named.1).2
        obtain ⟨raw', found', parsed'⟩ := (tagTargets_iff.mp own.1).2
        rw [found] at found'
        obtain rfl := Option.some.inj found'
        exact Option.some.inj (parsed.symm.trans parsed')
    · rename_i evidence refused
      refine ⟨counts, fun key => ⟨.inl, fun h => h.elim id fun named => ?_⟩⟩
      by_contra unfollowed
      have fresh : key ∉ rows.seen := fun seen => unfollowed ((counts key).mp seen)
      obtain ⟨follow, parsed, -⟩ := (parses key).mpr ⟨named.1, named.2, fresh⟩
      rw [refused] at parsed
      cases parsed

theorem foldl_readRow_followed (numbered : List (Tag × Nat)) (counts : rows.Counts) :
    key ∈ (numbered.foldl (readRow N) rows).follows.map Follow.pubkey ↔
      key ∈ rows.follows.map Follow.pubkey ∨
        ∃ row ∈ numbered, tagTargets N row.1 key = true ∧ readable N row.1 = true := by
  induction numbered generalizing rows with
  | nil => simp
  | cons row numbered ih =>
    obtain ⟨next, followed⟩ := readRow_followed (N := N) counts row
    rw [List.foldl_cons, ih next, followed key, List.exists_mem_cons_iff, or_assoc]

/-- A key is followed if some row that names it is readable, whatever other rows
stand before or after it. -/
theorem mem_readRows : key ∈ (readRows N tags).follows.map Follow.pubkey ↔
    ∃ tag ∈ tags, tagTargets N tag key = true ∧ readable N tag = true := by
  have start : Rows.empty.Counts := fun key =>
    iff_of_false ExtTreeSet.not_mem_empty List.not_mem_nil
  rw [readRows, foldl_readRow_followed _ start]
  constructor
  · rintro (none | ⟨row, inside, named⟩)
    · exact absurd none List.not_mem_nil
    · exact ⟨row.1, List.fst_mem_of_mem_zipIdx inside, named⟩
  · rintro ⟨tag, inside, named⟩
    obtain ⟨index, bound, rfl⟩ := List.mem_iff_getElem.mp inside
    exact .inr ⟨(tags[index], index), List.mk_mem_zipIdx_iff_getElem?.mpr
      (List.getElem?_eq_getElem bound), named⟩

theorem fromEvent_eq_ok : fromEvent N event = .ok list ↔ event.kind = contactList ∧
    validateEvent N event = .ok () ∧ event.id.isSome ∧
      list = ⟨event.author, (readRows N event.tags).follows, (readRows N event.tags).evidence⟩ := by
  constructor
  · intro h
    obtain ⟨kind, h⟩ := require_bind_eq_ok.mp h
    obtain ⟨_, valid, h⟩ := bind_eq_ok.mp h
    obtain ⟨id, identified, h⟩ := demand_bind_eq_ok.mp h
    exact ⟨kind, valid, by rw [identified]; rfl, (Except.ok.inj h).symm⟩
  · rintro ⟨kind, valid, identified, rfl⟩
    obtain ⟨id, identified⟩ := Option.isSome_iff_exists.mp identified
    exact require_bind_eq_ok.mpr ⟨kind, bind_eq_ok.mpr ⟨(), valid,
      demand_bind_eq_ok.mpr ⟨id, identified, rfl⟩⟩⟩

theorem mem_followed (read : fromEvent N event = .ok list) : key ∈ list.followed ↔
    ∃ tag ∈ event.tags, tagTargets N tag key = true ∧ readable N tag = true := by
  obtain ⟨-, -, -, rfl⟩ := fromEvent_eq_ok.mp read
  exact mem_readRows

end Fava.Edits.Nip02
