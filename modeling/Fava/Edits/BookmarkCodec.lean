import Fava.Edits.Bookmarking

namespace Fava.Edits.Bookmarks

open Fava.Lib Fava.Nostr Fava.Write

variable {N : Library} {bytes : List UInt8} {change : Change} {target : Target}
  {coordinate : EventCoordinate}

def Operation.code : Operation → UInt8
  | .add => 1
  | .remove => 2

theorem Operation.code_eq_one {operation : Operation} : operation.code = 1 ↔ operation = .add := by
  cases operation <;> decide

theorem Operation.code_eq_two {operation : Operation} : operation.code = 2 ↔ operation = .remove := by
  cases operation <;> decide

section Encoding

variable (B : ByteForms N)

def encodeCoordinate : EventCoordinate → Except WriteIntentError (List UInt8)
  | .event _ => .error invalidCoordinate
  | .replaceable author kind identifier =>
    let identifierBytes := toUtf8 (identifier.getD "")
    if identifierBytes.length < 2 ^ 32 then
      .ok (toBigEndian 2 kind ++ (if identifier.isSome then 1 else 0) ::
        (B.keyToBytes author ++ (toBigEndian 4 identifierBytes.length ++ identifierBytes)))
    else .error (codecRefusal "identifier exceeds bookmark encoding capacity")

def encode (change : Change) : Except WriteIntentError (List UInt8) :=
  match change.target with
  | .event id => .ok (change.operation.code :: 1 :: B.idToBytes id)
  | .coordinate coordinate => do
    let bytes ← encodeCoordinate B coordinate
    pure (change.operation.code :: 2 :: bytes)

end Encoding

/-- The identifier's length can be written in four bytes. -/
def Target.Fits : Target → Prop
  | .coordinate (.replaceable _ _ (some identifier)) => identifier.utf8ByteSize < 2 ^ 32
  | _ => True

/-- A coordinate without an identifier ends where its length does. -/
def Tidy (bytes : List UInt8) : Prop := bytes.getD 1 0 = 2 → bytes.getD 4 0 = 0 → bytes.length = 41

section Layout

variable {kind author length : List UInt8}

/-- The parts that a coordinate is put together of, read back. -/
theorem parts_of_coordinate (flag : UInt8) (text : List UInt8) (two : kind.length = 2) (key : author.length = 32) 
    (four : length.length = 4) :
    let bytes := kind ++ flag :: (author ++ (length ++ text))
    bytes.length = 39 + text.length ∧ bytes.take 2 = kind ∧ bytes.getD 2 0 = flag ∧
      (bytes.take 35).drop 3 = author ∧ (bytes.take 39).drop 35 = length ∧ bytes.drop 39 = text := by
  obtain ⟨a, b, rfl⟩ := List.length_eq_two.mp two
  have rest : (length ++ text).take 4 = length := List.take_left' four
  have last : (length ++ text).drop 4 = text := List.drop_left' four
  have after : (author ++ (length ++ text)).drop 32 = length ++ text := List.drop_left' key
  refine ⟨?_, rfl, rfl, ?_, ?_, ?_⟩
  · simp only [List.length_append, List.length_cons, List.length_nil, key, four]
    omega
  · exact List.take_left' key
  · change ((author ++ (length ++ text)).take 36).drop 32 = length
    rw [List.drop_take, after]
    exact rest
  · change (author ++ (length ++ text)).drop 36 = text
    rw [show 36 = 32 + 4 from rfl, ← List.drop_drop, after, last]

/-- What is long enough for a coordinate is its parts put together. -/
theorem coordinate_of_parts (long : 39 ≤ bytes.length) : bytes = bytes.take 2 ++ bytes.getD 2 0 ::
    ((bytes.take 35).drop 3 ++ ((bytes.take 39).drop 35 ++ bytes.drop 39)) := by
  obtain ⟨a, b, flag, rest, rfl⟩ : ∃ a b flag rest, bytes = a :: b :: flag :: rest := by
    match bytes, long with
    | a :: b :: flag :: rest, _ => exact ⟨a, b, flag, rest, rfl⟩
  change _ = a :: b :: flag :: (rest.take 32 ++ ((rest.take 36).drop 32 ++ rest.drop 36))
  rw [List.drop_take, show 36 = 32 + 4 from rfl, ← List.drop_drop, Nat.add_sub_cancel_left,
    List.take_append_drop, List.take_append_drop]

end Layout

section Decoding

theorem decodeIdentifier_eq_ok {identifier : String} :
    decodeIdentifier bytes = .ok identifier ↔ toUtf8 identifier = bytes := by
  rw [← fromUtf8_iff]
  unfold decodeIdentifier
  split
  · rename_i refused
    rw [refused]
    exact iff_of_false nofun nofun
  · rename_i read
    rw [read, Except.ok.injEq, Option.some.injEq]

/-- What the bytes of a coordinate are read as. -/
theorem decodeCoordinate_eq_ok : decodeCoordinate N bytes = .ok coordinate ↔
    39 ≤ bytes.length ∧ (bytes.getD 2 0 = 0 ∨ bytes.getD 2 0 = 1) ∧
      bytes.length = 39 + ofBigEndian ((bytes.take 39).drop 35) ∧
      ∃ author identifier, N.keyFromSlice ((bytes.take 35).drop 3) = some author ∧
        toUtf8 identifier = bytes.drop 39 ∧
        coordinate = .replaceable author (ofBigEndian (bytes.take 2))
          (if bytes.getD 2 0 = 1 then some identifier else none) ∧
        validateTargetCoordinate N coordinate = .ok () := by
  unfold decodeCoordinate
  dsimp only
  by_cases long : bytes.length < 39
  · rw [if_pos long]
    exact iff_of_false nofun fun h => absurd h.1 (Nat.not_le.mpr long)
  · rw [if_neg long]
    by_cases flagged : bytes.getD 2 0 ≠ 0 ∧ bytes.getD 2 0 ≠ 1
    · rw [if_pos flagged]
      refine iff_of_false nofun fun h => ?_
      exact h.2.1.elim flagged.1 flagged.2
    · rw [if_neg flagged]
      have flag : bytes.getD 2 0 = 0 ∨ bytes.getD 2 0 = 1 := by
        rwa [not_and_or, not_not, not_not] at flagged
      cases key : N.keyFromSlice ((bytes.take 35).drop 3) with
      | none =>
        refine iff_of_false nofun fun h => ?_
        obtain ⟨-, -, -, author, -, read, -⟩ := h
        cases read
      | some author =>
        by_cases exact_ : bytes.length ≠ 39 + ofBigEndian ((bytes.take 39).drop 35)
        · dsimp only
          rw [if_pos exact_]
          exact iff_of_false nofun fun h => exact_ h.2.2.1
        · dsimp only
          rw [if_neg exact_]
          rw [not_not] at exact_
          simp only [bind_eq_ok, decodeIdentifier_eq_ok]
          constructor
          · rintro ⟨identifier, text, _, valid, made⟩
            cases made
            exact ⟨Nat.le_of_not_lt long, flag, exact_, author, identifier, rfl, text, rfl, valid⟩
          · rintro ⟨-, -, -, author', identifier, same, text, rfl, valid⟩
            cases same
            exact ⟨identifier, text, (), valid, rfl⟩

/-- A decoded change names what may be bookmarked. -/
theorem decodeCoordinate_valid (decoded : decodeCoordinate N bytes = .ok coordinate) :
    (Target.coordinate coordinate).Valid N := by
  obtain ⟨long, -, -, author, identifier, key, -, rfl, valid⟩ := decodeCoordinate_eq_ok.mp decoded
  refine .coordinate key ?_ valid
  have small := ofBigEndian_lt (bytes.take 2)
  rw [List.length_take, Nat.min_eq_left (by omega)] at small
  exact small

variable (B : ByteForms N)

theorem decodeCoordinate_encode {author : PublicKey} {kind : Kind} {identifier : Option String}
    {slice : List UInt8} (read : N.keyFromSlice slice = some author) (word : kind < 2 ^ 16)
    (valid : validateTargetCoordinate N (.replaceable author kind identifier) = .ok ())
    (encoded : encodeCoordinate B (.replaceable author kind identifier) = .ok bytes) :
    decodeCoordinate N bytes = .ok (.replaceable author kind identifier) := by
  unfold encodeCoordinate at encoded
  dsimp only at encoded
  split at encoded
  · rename_i short
    cases encoded
    have two : (toBigEndian 2 kind).length = 2 := length_toBigEndian
    have four : (toBigEndian 4 (toUtf8 (identifier.getD "")).length).length = 4 := length_toBigEndian
    obtain ⟨total, first, flag, key, number, last⟩ := parts_of_coordinate
      (if identifier.isSome then 1 else 0) (toUtf8 (identifier.getD "")) two (B.key_length author) four
    rw [decodeCoordinate_eq_ok, first, flag, key, number, last]
    have read_back : ofBigEndian (toBigEndian 4 (toUtf8 (identifier.getD "")).length) =
        (toUtf8 (identifier.getD "")).length := ofBigEndian_toBigEndian short
    refine ⟨by rw [total]; omega, ?_, by rw [total, read_back], author, identifier.getD "", ?_, rfl, ?_, valid⟩
    · cases identifier with
      | none => exact .inl rfl
      | some identifier => exact .inr rfl
    · rw [B.key_read _ _ read]
      exact read
    · rw [ofBigEndian_toBigEndian word]
      cases identifier <;> rfl
  · cases encoded

theorem encodeCoordinate_none {author : PublicKey} {kind : Kind} :
    encodeCoordinate B (.replaceable author kind none) =
      .ok (toBigEndian 2 kind ++ 0 :: (B.keyToBytes author ++ (toBigEndian 4 0 ++ []))) := rfl

theorem encodeCoordinate_some {author : PublicKey} {kind : Kind} {identifier : String}
    (short : (toUtf8 identifier).length < 2 ^ 32) :
    encodeCoordinate B (.replaceable author kind (some identifier)) =
      .ok (toBigEndian 2 kind ++ 1 ::
        (B.keyToBytes author ++ (toBigEndian 4 (toUtf8 identifier).length ++ toUtf8 identifier))) :=
  if_pos short

/-- Encoding a decoded coordinate gives its bytes back, unless a text was ignored. -/
theorem encodeCoordinate_decoded (decoded : decodeCoordinate N bytes = .ok coordinate) :
    encodeCoordinate B coordinate = .ok bytes ↔ (bytes.getD 2 0 = 0 → bytes.length = 39) := by
  obtain ⟨long, flag, size, author, identifier, key, text, rfl, -⟩ := decodeCoordinate_eq_ok.mp decoded
  have kind : toBigEndian 2 (ofBigEndian (bytes.take 2)) = bytes.take 2 := by
    have two : (bytes.take 2).length = 2 := List.length_take_of_le (by omega)
    have back := toBigEndian_ofBigEndian (bytes.take 2)
    rwa [two] at back
  have length : (bytes.drop 39).length = ofBigEndian ((bytes.take 39).drop 35) := by
    rw [List.length_drop]
    omega
  have four : ((bytes.take 39).drop 35).length = 4 := by
    rw [List.length_drop, List.length_take_of_le long]
  have number : toBigEndian 4 (bytes.drop 39).length = (bytes.take 39).drop 35 := by
    have back := toBigEndian_ofBigEndian ((bytes.take 39).drop 35)
    rwa [four, ← length] at back
  have short : (bytes.drop 39).length < 2 ^ 32 := by
    have small := ofBigEndian_lt ((bytes.take 39).drop 35)
    rwa [four, ← length] at small
  have whole := coordinate_of_parts long
  obtain absent | present := flag
  · rw [absent] at whole
    rw [if_neg (by rw [absent]; decide), encodeCoordinate_none, kind, B.key_read _ _ key, Except.ok.injEq]
    constructor
    · intro encoded _
      rw [← encoded]
      have two : (bytes.take 2).length = 2 := List.length_take_of_le (by omega)
      have slice : ((bytes.take 35).drop 3).length = 32 := by
        rw [List.length_drop, List.length_take_of_le (by omega)]
      exact (parts_of_coordinate 0 [] two slice length_toBigEndian).1
    · intro ends
      have none : bytes.drop 39 = [] := List.drop_eq_nil_of_le (Nat.le_of_eq (ends absent))
      rw [← number, none] at whole
      exact whole.symm
  · rw [present] at whole
    rw [if_pos present, encodeCoordinate_some B (text ▸ short), kind, B.key_read _ _ key, text, number]
    exact iff_of_true (congrArg Except.ok whole.symm) fun absent => nomatch present.symm.trans absent

end Decoding

section Bijection

variable (B : ByteForms N)

theorem decodeTarget_eq_ok {operation kind : UInt8} {slice : List UInt8} :
    decodeTarget N (operation :: kind :: slice) = .ok target ↔
      (kind = 1 ∧ slice.length = 32 ∧ ∃ id, N.idFromSlice slice = some id ∧ target = .event id) ∨
        (kind = 2 ∧ ∃ coordinate, decodeCoordinate N slice = .ok coordinate ∧
          target = .coordinate coordinate) := by
  have tag : (operation :: kind :: slice).getD 1 0 = kind := rfl
  have rest : (operation :: kind :: slice).drop 2 = slice := rfl
  have length : (operation :: kind :: slice).length = 34 ↔ slice.length = 32 := by
    rw [List.length_cons, List.length_cons]
    omega
  unfold decodeTarget
  dsimp only
  simp only [tag, rest, length]
  by_cases event : kind = 1
  · subst event
    by_cases size : slice.length = 32
    · rw [if_pos ⟨rfl, size⟩]
      cases read : N.idFromSlice slice with
      | none =>
        refine iff_of_false nofun ?_
        rintro (⟨-, -, id, found, -⟩ | ⟨two, -⟩)
        · cases found
        · cases two
      | some id =>
        constructor
        · intro made
          exact .inl ⟨rfl, size, id, rfl, (Except.ok.inj made).symm⟩
        · rintro (⟨-, -, id', found, rfl⟩ | ⟨two, -⟩)
          · cases found
            rfl
          · cases two
    · rw [if_neg fun h => size h.2, if_neg (by decide), if_pos rfl]
      refine iff_of_false nofun ?_
      rintro (⟨-, right, -⟩ | ⟨two, -⟩)
      · exact size right
      · cases two
  · rw [if_neg fun h => event h.1]
    by_cases coordinate : kind = 2
    · subst coordinate
      rw [if_pos rfl, bind_eq_ok]
      constructor
      · rintro ⟨coordinate, read, made⟩
        exact .inr ⟨rfl, coordinate, read, (Except.ok.inj made).symm⟩
      · rintro (⟨one, -⟩ | ⟨-, coordinate, read, rfl⟩)
        · exact absurd one event
        · exact ⟨coordinate, read, rfl⟩
    · rw [if_neg coordinate, if_neg event]
      refine iff_of_false nofun ?_
      rintro (⟨one, -⟩ | ⟨two, -⟩)
      · exact event one
      · exact coordinate two

theorem decode_eq_ok : decode N bytes = .ok change ↔ ∃ kind slice,
    bytes = change.operation.code :: kind :: slice ∧ decodeTarget N bytes = .ok change.target := by
  unfold decode
  by_cases short : bytes.length < 2
  · rw [if_pos short]
    refine iff_of_false nofun ?_
    rintro ⟨kind, slice, rfl, -⟩
    simp only [List.length_cons] at short
    omega
  · obtain ⟨operation, kind, slice, rfl⟩ : ∃ operation kind slice, bytes = operation :: kind :: slice := by
      match bytes, short with
      | [], short => exact absurd (by decide : ([] : List UInt8).length < 2) short
      | [byte], short => exact absurd Nat.one_lt_two short
      | operation :: kind :: slice, _ => exact ⟨operation, kind, slice, rfl⟩
    have head : ∀ change : Change, (∃ kind' slice', operation :: kind :: slice =
        change.operation.code :: kind' :: slice' ∧
          decodeTarget N (operation :: kind :: slice) = .ok change.target) ↔
        change.operation.code = operation ∧
          decodeTarget N (operation :: kind :: slice) = .ok change.target := by
      intro change
      constructor
      · rintro ⟨_, _, same, read⟩
        exact ⟨(List.cons.inj same).1.symm, read⟩
      · rintro ⟨code, read⟩
        exact ⟨kind, slice, by rw [code], read⟩
    obtain ⟨operates, target⟩ := change
    rw [if_neg short, head]
    by_cases add : (operation :: kind :: slice).headD 0 = 1
    · have first : operation = 1 := add
      subst first
      rw [if_pos add, Operation.code_eq_one]
      simp only [bind_eq_ok]
      constructor
      · rintro ⟨_, made, target, read, h⟩
        cases made
        cases h
        exact ⟨rfl, read⟩
      · rintro ⟨rfl, read⟩
        exact ⟨.add, rfl, target, read, rfl⟩
    · rw [if_neg add]
      by_cases remove : (operation :: kind :: slice).headD 0 = 2
      · have first : operation = 2 := remove
        subst first
        rw [if_pos remove, Operation.code_eq_two]
        simp only [bind_eq_ok]
        constructor
        · rintro ⟨_, made, target, read, h⟩
          cases made
          cases h
          exact ⟨rfl, read⟩
        · rintro ⟨rfl, read⟩
          exact ⟨.remove, rfl, target, read, rfl⟩
      · rw [if_neg remove]
        refine iff_of_false nofun ?_
        rintro ⟨code, -⟩
        cases operates with
        | add => exact add code.symm
        | remove => exact remove code.symm

/-- A decoded change names what may be bookmarked. -/
theorem decode_valid (decoded : decode N bytes = .ok change) : change.target.Valid N := by
  obtain ⟨kind, slice, rfl, read⟩ := decode_eq_ok.mp decoded
  obtain ⟨-, -, id, found, made⟩ | ⟨-, coordinate, found, made⟩ := decodeTarget_eq_ok.mp read
  · exact made ▸ .event found
  · exact made ▸ decodeCoordinate_valid found

variable (B : ByteForms N)

/-- What is encoded is decoded again. -/
theorem decode_encode (valid : change.target.Valid N) (encoded : encode B change = .ok bytes) :
    decode N bytes = .ok change := by
  obtain ⟨operation, target⟩ := change
  cases valid with
  | event read =>
    rename_i id slice
    cases encoded
    refine decode_eq_ok.mpr ⟨1, _, rfl, decodeTarget_eq_ok.mpr (.inl ⟨rfl, B.id_length id, id, ?_, rfl⟩)⟩
    rw [B.id_read _ _ read]
    exact read
  | coordinate read word valid =>
    obtain ⟨slice, written, made⟩ := bind_eq_ok.mp encoded
    cases made
    refine decode_eq_ok.mpr ⟨2, slice, rfl, decodeTarget_eq_ok.mpr (.inr ⟨rfl, _, ?_, rfl⟩)⟩
    exact decodeCoordinate_encode B read word valid written

/-- A valid change is encoded unless its identifier is too long. -/
theorem encode_isOk (valid : change.target.Valid N) :
    (∃ bytes, encode B change = .ok bytes) ↔ change.target.Fits := by
  obtain ⟨operation, target⟩ := change
  unfold encode
  cases valid with
  | event read => exact iff_of_true ⟨_, rfl⟩ trivial
  | coordinate read word valid =>
    rename_i identifier _
    cases identifier with
    | none => exact iff_of_true ⟨_, rfl⟩ trivial
    | some identifier =>
      change _ ↔ (toUtf8 identifier).length < 2 ^ 32
      constructor
      · rintro ⟨bytes, encoded⟩
        obtain ⟨slice, encoded, -⟩ := bind_eq_ok.mp encoded
        unfold encodeCoordinate at encoded
        dsimp only at encoded
        split at encoded
        · assumption
        · cases encoded
      · intro short
        exact ⟨_, bind_eq_ok.mpr ⟨_, encodeCoordinate_some B short, rfl⟩⟩

/-- Encoding a decoded change gives its bytes back exactly where no text was ignored. -/
theorem encode_decoded (decoded : decode N bytes = .ok change) :
    encode B change = .ok bytes ↔ Tidy bytes := by
  obtain ⟨operation, target⟩ := change
  obtain ⟨kind, slice, rfl, read⟩ := decode_eq_ok.mp decoded
  unfold encode Tidy
  obtain ⟨rfl, -, id, found, made⟩ | ⟨rfl, coordinate, found, made⟩ := decodeTarget_eq_ok.mp read
  · obtain rfl : target = .event id := made
    refine iff_of_true ?_ fun two => absurd two (show ¬(1 : UInt8) = 2 by decide)
    exact congrArg (fun slice => Except.ok (operation.code :: 1 :: slice)) (B.id_read _ _ found)
  · obtain rfl : target = .coordinate coordinate := made
    have length : (operation.code :: 2 :: slice).length = 41 ↔ slice.length = 39 := by
      rw [List.length_cons, List.length_cons]
      omega
    have flag : (operation.code :: 2 :: slice).getD 4 0 = slice.getD 2 0 := rfl
    have tag : (operation.code :: 2 :: slice).getD 1 0 = 2 := rfl
    rw [length, flag, ← encodeCoordinate_decoded B found]
    simp only [bind_eq_ok]
    constructor
    · rintro ⟨bytes, encoded, made⟩ _
      cases made
      exact encoded
    · intro encoded
      exact ⟨slice, encoded tag, rfl⟩

/-- The codec gives back every change that can be written, and every text it reads that leaves
nothing out. -/
theorem codec_bijective_iff :
    (∀ change, change.target.Valid N →
      ((∃ bytes, encode B change = .ok bytes ∧ decode N bytes = .ok change) ↔ change.target.Fits)) ∧
    ∀ bytes change, decode N bytes = .ok change → (encode B change = .ok bytes ↔ Tidy bytes) := by
  refine ⟨fun change valid => ?_, fun bytes change decoded => encode_decoded B decoded⟩
  rw [← encode_isOk B valid]
  constructor
  · rintro ⟨bytes, encoded, -⟩
    exact ⟨bytes, encoded⟩
  · rintro ⟨bytes, encoded⟩
    exact ⟨bytes, encoded, decode_encode B valid encoded⟩

end Bijection

section Samples

/-- The mute list of an author, as a coordinate without an identifier but with a text. -/
def muteList (text : List UInt8) : List UInt8 :=
  [1, 2, 39, 16, 0] ++ List.replicate 31 0 ++ [4, 0, 0, 0, UInt8.ofNat text.length] ++ text

/-- Two byte strings mean one edit, and only one of them is what the edit is encoded as. -/
theorem ignored_text : ∃ change, decode plainLibrary (muteList [120]) = .ok change ∧
    decode plainLibrary (muteList []) = .ok change ∧
    encode plainForms change = .ok (muteList []) ∧ encode plainForms change ≠ .ok (muteList [120]) := by
  have read : decode plainLibrary (muteList [120]) = .ok ⟨.add, .coordinate (.replaceable 4 10000 none)⟩ :=
    rfl
  refine ⟨_, read, rfl, rfl, fun written => ?_⟩
  have tidy := (encode_decoded plainForms read).mp written
  exact absurd (tidy rfl rfl) (by decide)

/-- A bookmark of that list comes back from its bytes. -/
theorem muteList_bijective : (∃ bytes,
      encode plainForms ⟨.add, .coordinate (.replaceable 4 10000 none)⟩ = .ok bytes ∧
        decode plainLibrary bytes = .ok ⟨.add, .coordinate (.replaceable 4 10000 none)⟩) ∧
    (encode plainForms ⟨.add, .coordinate (.replaceable 4 10000 none)⟩ = .ok (muteList []) ↔
      Tidy (muteList [])) := by
  have read : plainLibrary.keyFromSlice (List.replicate 31 0 ++ [4]) = some 4 := rfl
  have word : (10000 : Nat) < 2 ^ 16 := by decide
  exact ⟨((codec_bijective_iff plainForms).1 _ (.coordinate read word rfl)).mpr trivial,
    (codec_bijective_iff plainForms).2 (muteList []) _ rfl⟩

end Samples

end Fava.Edits.Bookmarks
