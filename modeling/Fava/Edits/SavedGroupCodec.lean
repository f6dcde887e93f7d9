import Fava.Edits.FollowCodec
import Fava.Edits.SavedGroups

namespace Fava.Edits.SavedGroups

open Fava.Lib Fava.Nostr Fava.Write

variable {N : Library} {bytes more : List UInt8} {change change' : Change} {text id : String}
  {relay : RelayUrl} {relays seen : List RelayUrl} {name : Option String}

inductive SimpleGroupConstructionError
  | emptyId
  | emptyRelays

/-- A group on some relays, each of them once. -/
structure SimpleGroup where
  id : String
  relays : List RelayUrl
  named : id ≠ ""
  hosted : relays ≠ []
  distinct : relays.Nodup

/-- Every relay where it comes first. -/
def normalize (relays : List RelayUrl) : List RelayUrl :=
  relays.foldl (fun kept relay => if relay ∈ kept then kept else kept ++ [relay]) []

theorem normalize_from {kept : List RelayUrl} (nodup : kept.Nodup) (start : relays ≠ [] ∨ kept ≠ []) :
    (relays.foldl (fun kept relay => if relay ∈ kept then kept else kept ++ [relay]) kept).Nodup ∧
      relays.foldl (fun kept relay => if relay ∈ kept then kept else kept ++ [relay]) kept ≠ [] := by
  induction relays generalizing kept with
  | nil => exact ⟨nodup, start.resolve_left (not_not.mpr rfl)⟩
  | cons relay relays ih =>
    rw [List.foldl_cons]
    split
    · rename_i before
      exact ih nodup (.inr (List.ne_nil_of_mem before))
    · rename_i new
      refine ih ?_ (.inr (by simp))
      exact List.nodup_append.mpr ⟨nodup, List.nodup_singleton relay, fun a here b there =>
        fun same => new (List.mem_singleton.mp there ▸ same ▸ here)⟩

def SimpleGroup.new (id : String) (relays : List RelayUrl) :
    Except SimpleGroupConstructionError SimpleGroup :=
  if named : id = "" then .error .emptyId
  else if hosted : relays = [] then .error .emptyRelays
  else
    .ok
      { id
        relays := normalize relays
        named
        hosted := (normalize_from List.nodup_nil (.inl hosted)).2
        distinct := (normalize_from List.nodup_nil (.inl hosted)).1 }

section Encoding

def Operation.code : Operation → UInt8
  | .saveSimpleGroup => 1
  | .removeSimpleGroup => 2
  | .renameSimpleGroup => 3
  | .saveRelay => 4
  | .removeRelay => 5

def encodeText (value : String) : Except WriteIntentError (List UInt8) :=
  if value.utf8ByteSize < 2 ^ 32 then .ok (lengthPrefixed (toUtf8 value))
  else .error (codecRefusal "edit text is too long")

def encodeOptional : Option String → Except WriteIntentError (List UInt8)
  | none => .ok [0]
  | some value => do
    let text ← encodeText value
    pure (1 :: text)

def encodeSimpleGroup (id : String) (relays : List RelayUrl) : Except WriteIntentError (List UInt8) := do
  let name ← encodeText id
  require (relays.length < 2 ^ 16) (codecRefusal "too many simple group relays")
  let hosts ← relays.mapM encodeText
  pure (name ++ (toBigEndian 2 relays.length ++ hosts.flatten))

def encode (change : Change) : Except WriteIntentError (List UInt8) :=
  match change.operation with
  | .saveSimpleGroup => do
    let group ← encodeSimpleGroup change.id change.relays
    let name ← encodeOptional change.displayName
    pure (change.operation.code :: (group ++ name))
  | .removeSimpleGroup => do
    let group ← encodeSimpleGroup change.id change.relays
    pure (change.operation.code :: group)
  | .renameSimpleGroup => do
    let group ← encodeSimpleGroup change.id change.relays
    let name ← demand change.displayName missingName
    let name ← encodeText name
    pure (change.operation.code :: (group ++ name))
  | .saveRelay | .removeRelay => do
    let relay ← demand change.relays.head? (codecRefusal "missing saved-list relay")
    let relay ← encodeText relay
    pure (change.operation.code :: relay)

end Encoding

/-- The changes that the public functions make. -/
inductive Change.Made (N : Library) : Change → Prop
  | save (group : SimpleGroup) (name : Option String)
    (parsed : ∀ relay ∈ group.relays, N.parseRelay relay = some relay) :
    Made N ⟨.saveSimpleGroup, group.id, group.relays, name⟩
  | remove (group : SimpleGroup) (parsed : ∀ relay ∈ group.relays, N.parseRelay relay = some relay) :
    Made N ⟨.removeSimpleGroup, group.id, group.relays, none⟩
  | rename (group : SimpleGroup) (name : String)
    (parsed : ∀ relay ∈ group.relays, N.parseRelay relay = some relay) :
    Made N ⟨.renameSimpleGroup, group.id, group.relays, some name⟩
  | saveRelay {relay : RelayUrl} (parsed : N.parseRelay relay = some relay) :
    Made N ⟨.saveRelay, "", [relay], none⟩
  | removeRelay {relay : RelayUrl} (parsed : N.parseRelay relay = some relay) :
    Made N ⟨.removeRelay, "", [relay], none⟩

section Reading

theorem takeText_eq_ok {rest : List UInt8} :
    takeText bytes = .ok (text, rest) ↔ Framed bytes (toUtf8 text) rest := by
  unfold takeText
  split
  · rename_i short
    exact iff_of_false nofun fun framed => absurd framed.header (Nat.not_le.mpr short)
  · rename_i header
    dsimp only
    split
    · rename_i short
      exact iff_of_false nofun fun framed => absurd framed.body (Nat.not_le.mpr short)
    · rename_i body
      cases read : fromUtf8 ((bytes.drop 4).take (ofBigEndian (bytes.take 4))) with
      | none =>
        refine iff_of_false nofun fun framed => ?_
        rw [framed.value, fromUtf8_iff.mpr rfl] at read
        cases read
      | some found =>
        constructor
        · intro made
          cases made
          exact ⟨Nat.le_of_not_lt header, Nat.le_of_not_lt body, (fromUtf8_iff.mp read).symm, rfl⟩
        · rintro ⟨-, -, value, rfl⟩
          rw [value, fromUtf8_iff.mpr rfl] at read
          cases read
          rfl

theorem extends_takeByte : Extends takeByte := by
  intro input byte rest more read
  cases input with
  | nil => cases read
  | cons first input =>
    cases read
    rfl

theorem extends_takeText : Extends takeText := by
  intro input text rest more read
  exact takeText_eq_ok.mpr (takeText_eq_ok.mp read).append

theorem reads_takeText {front : List UInt8} (encoded : encodeText text = .ok front) :
    Reads takeText front text := by
  intro more
  unfold encodeText at encoded
  split at encoded
  · rename_i short
    cases encoded
    exact takeText_eq_ok.mpr (framed_lengthPrefixed short)
  · cases encoded

theorem takeOptionalText_eq : takeOptionalText = Reader.andThen takeByte fun flag =>
    if flag = 0 then fun input => .ok (none, input)
    else if flag = 1 then Reader.andThen takeText fun text input => .ok (some text, input)
    else fun _ => .error (codecRefusal "invalid saved-list optional text flag") := by
  funext input
  unfold takeOptionalText Reader.andThen
  congr
  funext ⟨flag, rest⟩
  dsimp only
  split
  · rfl
  · split <;> rfl

theorem extends_takeOptionalText : Extends takeOptionalText := by
  rw [takeOptionalText_eq]
  refine extends_takeByte.andThen fun flag => ?_
  split
  · exact extends_ok
  · split
    · exact extends_takeText.andThen fun text => extends_ok
    · exact extends_error

theorem reads_takeByte {byte : UInt8} : Reads takeByte [byte] byte := fun _ => rfl

theorem reads_takeOptionalText {front : List UInt8} (encoded : encodeOptional name = .ok front) :
    Reads takeOptionalText front name := by
  rw [takeOptionalText_eq]
  cases name with
  | none =>
    cases encoded
    exact reads_takeByte.last reads_ok
  | some name =>
    obtain ⟨text, written, made⟩ := bind_eq_ok.mp encoded
    cases made
    change Reads _ ([1] ++ text) (some name)
    refine reads_takeByte.andThen ?_
    rw [if_neg (by decide), if_pos rfl]
    exact (reads_takeText written).last reads_ok

theorem takeRelay_eq : takeRelay N = Reader.andThen takeText fun text =>
    match N.parseRelay text with
    | none => fun _ => .error (codecRefusal "invalid saved-list relay")
    | some relay => fun input => .ok (relay, input) := by
  funext input
  unfold takeRelay Reader.andThen
  congr
  funext ⟨text, rest⟩
  dsimp only
  cases N.parseRelay text <;> rfl

theorem extends_takeRelay : Extends (takeRelay N) := by
  rw [takeRelay_eq]
  refine extends_takeText.andThen fun text => ?_
  split
  · exact extends_error
  · exact extends_ok

theorem reads_takeRelay {front : List UInt8} (parsed : N.parseRelay relay = some relay)
    (encoded : encodeText relay = .ok front) : Reads (takeRelay N) front relay := by
  rw [takeRelay_eq]
  refine (reads_takeText encoded).last ?_
  rw [parsed]
  exact reads_ok

theorem takeRelays_succ {count : Nat} : takeRelays N (count + 1) seen =
    Reader.andThen (takeRelay N) fun relay =>
      if relay ∈ seen then fun _ => .error (codecRefusal "duplicate saved-list simple-group relay")
      else takeRelays N count (seen ++ [relay]) := by
  funext input
  rw [takeRelays]
  unfold Reader.andThen
  congr
  funext ⟨relay, rest⟩
  dsimp only
  split <;> rfl

theorem extends_takeRelays {count : Nat} : Extends (takeRelays N count seen) := by
  induction count generalizing seen with
  | zero => exact extends_ok
  | succ count ih =>
    rw [takeRelays_succ]
    refine extends_takeRelay.andThen fun relay => ?_
    split
    · exact extends_error
    · exact ih

/-- Relays that are new and differ are read back one by one. -/
theorem reads_takeRelays {fronts : List (List UInt8)}
    (parsed : ∀ relay ∈ relays, N.parseRelay relay = some relay) (distinct : (seen ++ relays).Nodup)
    (encoded : relays.mapM encodeText = .ok fronts) :
    Reads (takeRelays N relays.length seen) fronts.flatten (seen ++ relays) := by
  induction relays generalizing seen fronts with
  | nil =>
    cases encoded
    rw [List.append_nil]
    exact reads_ok
  | cons relay relays ih =>
    rw [List.forall_mem_cons] at parsed
    obtain ⟨front, rest, first, later, rfl⟩ := mapM_cons_eq_ok.mp encoded
    have new : relay ∉ seen := by
      intro before
      exact (List.nodup_append.mp distinct).2.2 relay before relay List.mem_cons_self rfl
    have again : seen ++ relay :: relays = (seen ++ [relay]) ++ relays := by
      rw [List.append_assoc]
      rfl
    rw [List.length_cons, takeRelays_succ, List.flatten_cons]
    refine (reads_takeRelay parsed.1 first).andThen ?_
    rw [if_neg new, again]
    exact ih parsed.2 (again ▸ distinct) later

/-- The number of relays, which is not none. -/
def takeCount : Take Nat := fun input =>
  if input.length < 2 then .error (codecRefusal "truncated saved-list relay count")
  else
    let count := ofBigEndian (input.take 2)
    if count = 0 then .error (codecRefusal "invalid saved-list relay count")
    else .ok (count, input.drop 2)

theorem extends_takeCount : Extends takeCount := by
  intro input count rest more read
  unfold takeCount at read ⊢
  split at read
  · cases read
  · rename_i header
    dsimp only at read ⊢
    have first : (input ++ more).take 2 = input.take 2 := List.take_append_of_le_length (by omega)
    split at read
    · cases read
    · rename_i some
      cases read
      rw [if_neg (by rw [List.length_append]; omega), first, if_neg some,
        List.drop_append_of_le_length (by omega)]

theorem reads_takeCount {count : Nat} (some : count ≠ 0) (small : count < 2 ^ 16) :
    Reads takeCount (toBigEndian 2 count) count := by
  intro more
  have two : (toBigEndian 2 count).length = 2 := length_toBigEndian
  have number : ofBigEndian ((toBigEndian 2 count ++ more).take 2) = count := by
    rw [List.take_left' two]
    exact ofBigEndian_toBigEndian small
  unfold takeCount
  dsimp only
  rw [if_neg (by rw [List.length_append, two]; omega), number, if_neg some, List.drop_left' two]

theorem takeSimpleGroup_eq : takeSimpleGroup N = Reader.andThen takeText fun id =>
    Reader.andThen takeCount fun count =>
      Reader.andThen (takeRelays N count []) fun relays input => .ok ((id, relays), input) := by
  funext input
  unfold takeSimpleGroup Reader.andThen
  congr
  funext ⟨id, rest⟩
  dsimp only
  unfold takeCount
  split
  · rfl
  · dsimp only
    split <;> rfl

theorem extends_takeSimpleGroup : Extends (takeSimpleGroup N) := by
  rw [takeSimpleGroup_eq]
  exact extends_takeText.andThen fun id => extends_takeCount.andThen fun count =>
    extends_takeRelays.andThen fun relays => extends_ok

theorem reads_takeSimpleGroup {group : SimpleGroup} {front : List UInt8}
    (parsed : ∀ relay ∈ group.relays, N.parseRelay relay = some relay)
    (encoded : encodeSimpleGroup group.id group.relays = .ok front) :
    Reads (takeSimpleGroup N) front (group.id, group.relays) := by
  obtain ⟨name, named, encoded⟩ := bind_eq_ok.mp encoded
  obtain ⟨small, encoded⟩ := require_bind_eq_ok.mp encoded
  obtain ⟨hosts, written, made⟩ := bind_eq_ok.mp encoded
  cases made
  have some : group.relays.length ≠ 0 := fun none => group.hosted (List.length_eq_zero_iff.mp none)
  have listed : Reads (takeRelays N group.relays.length []) hosts.flatten group.relays :=
    reads_takeRelays parsed group.distinct written
  rw [takeSimpleGroup_eq]
  exact (reads_takeText named).andThen ((reads_takeCount some small).andThen (listed.last reads_ok))

theorem takeChange_eq : takeChange N = Reader.andThen takeByte fun operation =>
    if operation = 1 then
      Reader.andThen (takeSimpleGroup N) fun group => Reader.andThen takeOptionalText fun name input =>
        .ok (⟨.saveSimpleGroup, group.1, group.2, name⟩, input)
    else if operation = 2 then
      Reader.andThen (takeSimpleGroup N) fun group input =>
        .ok (⟨.removeSimpleGroup, group.1, group.2, none⟩, input)
    else if operation = 3 then
      Reader.andThen (takeSimpleGroup N) fun group => Reader.andThen takeText fun name input =>
        .ok (⟨.renameSimpleGroup, group.1, group.2, some name⟩, input)
    else if operation = 4 ∨ operation = 5 then
      Reader.andThen (takeRelay N) fun relay input =>
        .ok (⟨if operation = 4 then .saveRelay else .removeRelay, "", [relay], none⟩, input)
    else fun _ => .error (codecRefusal "unknown saved-list edit operation") := by
  funext input
  unfold takeChange Reader.andThen
  congr
  funext ⟨operation, rest⟩
  dsimp only
  split
  · rfl
  · split
    · rfl
    · split
      · rfl
      · split <;> rfl

theorem extends_takeChange : Extends (takeChange N) := by
  rw [takeChange_eq]
  refine extends_takeByte.andThen fun operation => ?_
  split
  · exact extends_takeSimpleGroup.andThen fun group => extends_takeOptionalText.andThen fun name => extends_ok
  · split
    · exact extends_takeSimpleGroup.andThen fun group => extends_ok
    · split
      · exact extends_takeSimpleGroup.andThen fun group => extends_takeText.andThen fun name => extends_ok
      · split
        · exact extends_takeRelay.andThen fun relay => extends_ok
        · exact extends_error

theorem reads_takeChange (made : change.Made N) (encoded : encode change = .ok bytes) :
    Reads (takeChange N) bytes change := by
  rw [takeChange_eq]
  cases made with
  | save group name parsed =>
    obtain ⟨front, grouped, encoded⟩ := bind_eq_ok.mp encoded
    obtain ⟨text, named, made⟩ := bind_eq_ok.mp encoded
    cases made
    change Reads _ ([1] ++ (front ++ text)) _
    refine reads_takeByte.andThen ?_
    rw [if_pos rfl]
    exact (reads_takeSimpleGroup parsed grouped).andThen ((reads_takeOptionalText named).last reads_ok)
  | remove group parsed =>
    obtain ⟨front, grouped, made⟩ := bind_eq_ok.mp encoded
    cases made
    change Reads _ ([2] ++ front) _
    refine reads_takeByte.andThen ?_
    rw [if_neg (by decide), if_pos rfl]
    exact (reads_takeSimpleGroup parsed grouped).last reads_ok
  | rename group name parsed =>
    obtain ⟨front, grouped, encoded⟩ := bind_eq_ok.mp encoded
    obtain ⟨name', same, encoded⟩ := demand_bind_eq_ok.mp encoded
    obtain ⟨text, named, made⟩ := bind_eq_ok.mp encoded
    cases same
    cases made
    change Reads _ ([3] ++ (front ++ text)) _
    refine reads_takeByte.andThen ?_
    rw [if_neg (by decide), if_neg (by decide), if_pos rfl]
    exact (reads_takeSimpleGroup parsed grouped).andThen ((reads_takeText named).last reads_ok)
  | saveRelay parsed =>
    obtain ⟨relay, same, encoded⟩ := demand_bind_eq_ok.mp encoded
    obtain ⟨text, named, made⟩ := bind_eq_ok.mp encoded
    cases same
    cases made
    change Reads _ ([4] ++ text) _
    refine reads_takeByte.andThen ?_
    rw [if_neg (by decide), if_neg (by decide), if_neg (by decide), if_pos (by decide)]
    exact (reads_takeRelay parsed named).last reads_ok
  | removeRelay parsed =>
    obtain ⟨relay, same, encoded⟩ := demand_bind_eq_ok.mp encoded
    obtain ⟨text, named, made⟩ := bind_eq_ok.mp encoded
    cases same
    cases made
    change Reads _ ([5] ++ text) _
    refine reads_takeByte.andThen ?_
    rw [if_neg (by decide), if_neg (by decide), if_neg (by decide), if_pos (by decide)]
    exact (reads_takeRelay parsed named).last reads_ok

end Reading

section RoundTrip

theorem decodeEdit_eq_ok_iff : decodeEdit N ⟨savedKind, none, bytes⟩ = .ok change ↔
    takeChange N bytes = .ok (change, []) := by
  unfold decodeEdit
  rw [if_neg (by simp), bind_eq_ok]
  constructor
  · rintro ⟨⟨decoded, rest⟩, taken, h⟩
    dsimp only at h
    split at h
    · rename_i ends
      cases h
      exact ends ▸ taken
    · cases h
  · intro taken
    exact ⟨(change, []), taken, if_pos rfl⟩

theorem decodeEdit_encode (made : change.Made N) (encoded : encode change = .ok bytes) :
    decodeEdit N ⟨savedKind, none, bytes⟩ = .ok change := by
  have read := reads_takeChange made encoded []
  rw [List.append_nil] at read
  exact decodeEdit_eq_ok_iff.mpr read

/-- Of two edits that are decoded, none is the beginning of the other. -/
theorem decodeEdit_prefixFree (short : decodeEdit N ⟨savedKind, none, bytes⟩ = .ok change)
    (long : decodeEdit N ⟨savedKind, none, bytes ++ more⟩ = .ok change') : more = [] :=
  extends_takeChange.eq_nil (decodeEdit_eq_ok_iff.mp short) (decodeEdit_eq_ok_iff.mp long)

/-- There are few enough relays, and no text is too long. -/
structure Change.Fits (change : Change) : Prop where
  relays : change.relays.length < 2 ^ 16
  id : change.id.utf8ByteSize < 2 ^ 32
  hosts : ∀ relay ∈ change.relays, String.utf8ByteSize relay < 2 ^ 32
  name : ∀ name, change.displayName = some name → name.utf8ByteSize < 2 ^ 32

theorem encodeText_isOk : (∃ front, encodeText text = .ok front) ↔ text.utf8ByteSize < 2 ^ 32 := by
  unfold encodeText
  split
  · rename_i short
    exact iff_of_true ⟨_, rfl⟩ short
  · rename_i long
    exact iff_of_false nofun long

theorem encodeSimpleGroup_isOk : (∃ front, encodeSimpleGroup id relays = .ok front) ↔
    relays.length < 2 ^ 16 ∧ id.utf8ByteSize < 2 ^ 32 ∧
      ∀ relay ∈ relays, String.utf8ByteSize relay < 2 ^ 32 := by
  have each : (∀ relay ∈ relays, ∃ front, encodeText relay = .ok front) ↔
      ∀ relay ∈ relays, String.utf8ByteSize relay < 2 ^ 32 :=
    forall₂_congr fun relay _ => encodeText_isOk
  rw [← encodeText_isOk, ← each, ← mapM_ok_iff]
  constructor
  · rintro ⟨front, encoded⟩
    obtain ⟨name, named, encoded⟩ := bind_eq_ok.mp encoded
    obtain ⟨small, encoded⟩ := require_bind_eq_ok.mp encoded
    obtain ⟨hosts, written, -⟩ := bind_eq_ok.mp encoded
    exact ⟨small, ⟨name, named⟩, hosts, written⟩
  · rintro ⟨small, ⟨name, named⟩, hosts, written⟩
    exact ⟨_, bind_eq_ok.mpr ⟨name, named, require_bind_eq_ok.mpr ⟨small, bind_eq_ok.mpr ⟨hosts, written, rfl⟩⟩⟩⟩

theorem encodeOptional_isOk : (∃ front, encodeOptional name = .ok front) ↔
    ∀ text, name = some text → text.utf8ByteSize < 2 ^ 32 := by
  cases name with
  | none => exact iff_of_true ⟨_, rfl⟩ nofun
  | some text =>
    constructor
    · rintro ⟨front, encoded⟩ other same
      cases same
      obtain ⟨front, written, -⟩ := bind_eq_ok.mp encoded
      exact encodeText_isOk.mp ⟨front, written⟩
    · intro short
      obtain ⟨front, written⟩ := encodeText_isOk.mpr (short text rfl)
      exact ⟨_, bind_eq_ok.mpr ⟨front, written, rfl⟩⟩

theorem encode_relay_isOk {operation : Operation} (relays : operation = .saveRelay ∨ operation = .removeRelay) :
    (∃ bytes, encode ⟨operation, "", [relay], none⟩ = .ok bytes) ↔
      Change.Fits ⟨operation, "", [relay], none⟩ := by
  have one : (∃ bytes, encode ⟨operation, "", [relay], none⟩ = .ok bytes) ↔
      ∃ front, encodeText relay = .ok front := by
    have same : encode ⟨operation, "", [relay], none⟩ =
        (encodeText relay >>= fun front => .ok (operation.code :: front)) := by
      obtain rfl | rfl := relays <;> rfl
    rw [same]
    constructor
    · rintro ⟨bytes, encoded⟩
      obtain ⟨front, written, -⟩ := bind_eq_ok.mp encoded
      exact ⟨front, written⟩
    · rintro ⟨front, written⟩
      exact ⟨_, bind_eq_ok.mpr ⟨front, written, rfl⟩⟩
  rw [one, encodeText_isOk]
  constructor
  · intro short
    refine ⟨Nat.one_lt_two_pow (by decide), Nat.two_pow_pos 32, fun other listed => ?_, nofun⟩
    exact List.mem_singleton.mp listed ▸ short
  · exact fun fits => fits.hosts relay List.mem_cons_self

/-- A change is encoded unless it has too many relays or too long a text. -/
theorem encode_isOk (made : change.Made N) : (∃ bytes, encode change = .ok bytes) ↔ change.Fits := by
  cases made with
  | save group name parsed =>
    constructor
    · rintro ⟨bytes, encoded⟩
      obtain ⟨front, grouped, encoded⟩ := bind_eq_ok.mp encoded
      obtain ⟨text, named, -⟩ := bind_eq_ok.mp encoded
      obtain ⟨few, short, hosts⟩ := encodeSimpleGroup_isOk.mp ⟨front, grouped⟩
      exact ⟨few, short, hosts, encodeOptional_isOk.mp ⟨text, named⟩⟩
    · rintro ⟨few, short, hosts, names⟩
      obtain ⟨front, grouped⟩ := encodeSimpleGroup_isOk.mpr ⟨few, short, hosts⟩
      obtain ⟨text, named⟩ := encodeOptional_isOk.mpr names
      exact ⟨_, bind_eq_ok.mpr ⟨front, grouped, bind_eq_ok.mpr ⟨text, named, rfl⟩⟩⟩
  | remove group parsed =>
    constructor
    · rintro ⟨bytes, encoded⟩
      obtain ⟨front, grouped, -⟩ := bind_eq_ok.mp encoded
      obtain ⟨few, short, hosts⟩ := encodeSimpleGroup_isOk.mp ⟨front, grouped⟩
      exact ⟨few, short, hosts, nofun⟩
    · rintro ⟨few, short, hosts, -⟩
      obtain ⟨front, grouped⟩ := encodeSimpleGroup_isOk.mpr ⟨few, short, hosts⟩
      exact ⟨_, bind_eq_ok.mpr ⟨front, grouped, rfl⟩⟩
  | rename group name parsed =>
    constructor
    · rintro ⟨bytes, encoded⟩
      obtain ⟨front, grouped, encoded⟩ := bind_eq_ok.mp encoded
      obtain ⟨_, same, encoded⟩ := demand_bind_eq_ok.mp encoded
      cases same
      obtain ⟨text, named, -⟩ := bind_eq_ok.mp encoded
      obtain ⟨few, short, hosts⟩ := encodeSimpleGroup_isOk.mp ⟨front, grouped⟩
      refine ⟨few, short, hosts, fun other again => ?_⟩
      cases again
      exact encodeText_isOk.mp ⟨text, named⟩
    · rintro ⟨few, short, hosts, names⟩
      obtain ⟨front, grouped⟩ := encodeSimpleGroup_isOk.mpr ⟨few, short, hosts⟩
      obtain ⟨text, named⟩ := encodeText_isOk.mpr (names name rfl)
      exact ⟨_, bind_eq_ok.mpr ⟨front, grouped, demand_bind_eq_ok.mpr ⟨name, rfl,
        bind_eq_ok.mpr ⟨text, named, rfl⟩⟩⟩⟩
  | saveRelay parsed => exact encode_relay_isOk (.inl rfl)
  | removeRelay parsed => exact encode_relay_isOk (.inr rfl)

/-- The edits of contact lists and of saved groups are read back from their bytes, and from no
fewer and no more. -/
theorem codecs_round_trip (B : ByteForms N) (empty : N.parseRelay "" = none) :
    (∀ change : Nip02.Change, change.Typed N →
      ((∃ bytes, Nip02.encode B change = .ok bytes) ↔
        ∀ relay petname, change.operation = .addWithMetadata relay petname →
          ∃ n, Nip02.metadataEncodedLen relay petname = .ok n) ∧
      ∀ bytes, Nip02.encode B change = .ok bytes → Nip02.decode N bytes = .ok change ∧
        (∀ relay petname, change.operation = .addWithMetadata relay petname →
          Nip02.metadataEncodedLen relay petname = .ok bytes.length) ∧
        Delimited (Nip02.decode N) bytes) ∧
    ∀ change : Change, change.Made N → ((∃ bytes, encode change = .ok bytes) ↔ change.Fits) ∧
      ∀ bytes, encode change = .ok bytes → decodeEdit N ⟨savedKind, none, bytes⟩ = .ok change ∧
        Delimited (fun bytes => decodeEdit N ⟨savedKind, none, bytes⟩) bytes := by
  refine ⟨fun change typed => ⟨Nip02.encode_isOk B, fun bytes encoded => ?_⟩,
    fun change made => ⟨encode_isOk made, fun bytes encoded => ?_⟩⟩
  · have decoded := Nip02.decode_encode B empty typed encoded
    refine ⟨decoded, fun relay petname carries => Nip02.length_encode B encoded carries, ?_⟩
    exact delimited_of_prefixFree (fun _ _ _ _ => Nip02.decode_prefixFree) decoded
  · have decoded := decodeEdit_encode made encoded
    exact ⟨decoded, delimited_of_prefixFree (fun _ _ _ _ => decodeEdit_prefixFree) decoded⟩

end RoundTrip

section Samples

def sampleRelay : RelayUrl := "wss://a.example/"

/-- A follow with an empty petname, and a relay that is saved. -/
theorem sample_round_trip : (∃ bytes,
      Nip02.encode plainForms ⟨.addWithMetadata (some sampleRelay) (some ""), 5⟩ = .ok bytes ∧
        Nip02.decode plainLibrary bytes = .ok ⟨.addWithMetadata (some sampleRelay) (some ""), 5⟩) ∧
    ∃ bytes, encode ⟨.saveRelay, "", [sampleRelay], none⟩ = .ok bytes ∧
      decodeEdit plainLibrary ⟨savedKind, none, bytes⟩ = .ok ⟨.saveRelay, "", [sampleRelay], none⟩ := by
  have empty : plainLibrary.parseRelay "" = none := by decide
  have parsed : plainLibrary.parseRelay sampleRelay = some sampleRelay := by decide +kernel
  have typed : (Nip02.Change.mk (.addWithMetadata (some sampleRelay) (some "")) 5).Typed plainLibrary := by
    refine ⟨⟨List.replicate 31 0 ++ [5], rfl⟩, fun relay petname same => ?_⟩
    cases same
    exact parsed
  obtain ⟨follow, saved⟩ := codecs_round_trip plainForms empty
  obtain ⟨bytes, encoded⟩ : ∃ bytes,
      Nip02.encode plainForms ⟨.addWithMetadata (some sampleRelay) (some ""), 5⟩ = .ok bytes := by
    refine (follow _ typed).1.mpr fun relay petname same => ?_
    cases same
    exact ⟨58, rfl⟩
  obtain ⟨bytes', encoded'⟩ : ∃ bytes, encode ⟨.saveRelay, "", [sampleRelay], none⟩ = .ok bytes :=
    ⟨_, rfl⟩
  exact ⟨⟨bytes, encoded, ((follow _ typed).2 bytes encoded).1⟩, bytes', encoded',
    ((saved _ (.saveRelay parsed)).2 bytes' encoded').1⟩

end Samples

end Fava.Edits.SavedGroups
