import Fava.Edits.Follows
import Fava.Lib.Reader

namespace Fava.Edits.Nip02

open Fava.Lib Fava.Nostr Fava.Write

variable {N : Library} {bytes more value rest : List UInt8} {change change' : Change}
  {relay : Option RelayUrl} {petname : Option String} {operation : Operation}

def maxEditBytes : Nat := 131072

def editTooLarge (bytes : Nat) : WriteIntentError := .tooLarge bytes maxEditBytes

def Operation.code : Operation → UInt8
  | .add => 1
  | .addWithMetadata _ _ => 3
  | .remove => 2

section Encoding

/-- A sum that fits a machine word. -/
def checkedAdd (a b : Nat) : Option Nat := if a + b < 2 ^ 64 then some (a + b) else none

/-- The length of a follow with metadata, unless it is past the bound of an edit. -/
def metadataEncodedLen (relay : Option RelayUrl) (petname : Option String) :
    Except WriteIntentError Nat := do
  let relayLen := (relay.map String.utf8ByteSize).getD 0
  let petnameLen := (petname.map String.utf8ByteSize).getD 0
  let encodedLen ← demand (do
      let len ← checkedAdd codecLen 4
      let len ← checkedAdd len relayLen
      let len ← checkedAdd len 1
      let len ← checkedAdd len (petname.isSome.toNat * 4)
      checkedAdd len petnameLen)
    (codecRefusal "NIP-02 edit size overflow")
  require (encodedLen ≤ maxEditBytes) (editTooLarge encodedLen)
  pure encodedLen

def petnameBytes : Option String → List UInt8
  | none => [0]
  | some petname => 1 :: lengthPrefixed (toUtf8 petname)

variable (B : ByteForms N)

def encode (change : Change) : Except WriteIntentError (List UInt8) :=
  match change.operation with
  | .addWithMetadata relay petname => do
    let _ ← metadataEncodedLen relay petname
    let relayText := relay.getD ""
    require (relayText.utf8ByteSize < 2 ^ 32) (editTooLarge relayText.utf8ByteSize)
    let petnameLen := (petname.map String.utf8ByteSize).getD 0
    require (petnameLen < 2 ^ 32) (editTooLarge petnameLen)
    pure (change.operation.code ::
      (B.keyToBytes change.target ++ (lengthPrefixed (toUtf8 relayText) ++ petnameBytes petname)))
  | .add | .remove => .ok (change.operation.code :: B.keyToBytes change.target)

end Encoding

section Reading

theorem takeLengthPrefixed_eq_ok : takeLengthPrefixed bytes = .ok (value, rest) ↔ Framed bytes value rest := by
  unfold takeLengthPrefixed
  split
  · rename_i short
    exact iff_of_false nofun fun framed => absurd framed.header (Nat.not_le.mpr short)
  · rename_i header
    dsimp only
    split
    · rename_i short
      exact iff_of_false nofun fun framed => absurd framed.body (Nat.not_le.mpr short)
    · rename_i body
      constructor
      · intro made
        cases made
        exact ⟨Nat.le_of_not_lt header, Nat.le_of_not_lt body, rfl, rfl⟩
      · rintro ⟨-, -, rfl, rfl⟩
        rfl

theorem extends_takeLengthPrefixed : Extends takeLengthPrefixed := by
  intro input value rest more read
  exact takeLengthPrefixed_eq_ok.mpr (takeLengthPrefixed_eq_ok.mp read).append

theorem decodePetname_eq_ok : decodePetname bytes = .ok petname ↔
    (bytes = [0] ∧ petname = none) ∨
      ∃ text remaining, bytes = 1 :: remaining ∧ takeLengthPrefixed remaining = .ok (toUtf8 text, []) ∧
        petname = some text := by
  cases bytes with
  | nil =>
    refine iff_of_false nofun ?_
    rintro (⟨nothing, -⟩ | ⟨text, remaining, nothing, -⟩)
    · cases nothing
    · cases nothing
  | cons presence remaining =>
    rw [decodePetname]
    by_cases absent : presence = 0 ∧ remaining = []
    · obtain ⟨rfl, rfl⟩ := absent
      rw [if_pos ⟨rfl, rfl⟩]
      constructor
      · intro made
        exact .inl ⟨rfl, (Except.ok.inj made).symm⟩
      · rintro (⟨-, rfl⟩ | ⟨text, remaining, other, -⟩)
        · rfl
        · cases other
    · rw [if_neg absent]
      by_cases present : presence = 1
      · subst present
        rw [if_pos rfl, bind_eq_ok]
        constructor
        · rintro ⟨⟨value, trailing⟩, taken, h⟩
          dsimp only at h
          by_cases ends : trailing = []
          · subst ends
            rw [if_neg (not_not.mpr rfl)] at h
            cases read : fromUtf8 value with
            | none =>
              rw [read] at h
              cases h
            | some text =>
              rw [read] at h
              cases h
              exact .inr ⟨text, remaining, rfl, (fromUtf8_iff.mp read).symm ▸ taken, rfl⟩
          · rw [if_pos ends] at h
            cases h
        · rintro (⟨other, -⟩ | ⟨text, _, same, taken, rfl⟩)
          · cases other
          · cases same
            refine ⟨_, taken, ?_⟩
            dsimp only
            rw [if_neg (not_not.mpr rfl), fromUtf8_iff.mpr rfl]
      · rw [if_neg present]
        refine iff_of_false nofun ?_
        rintro (⟨same, -⟩ | ⟨text, _, same, -⟩)
        · cases same
          exact absent ⟨rfl, rfl⟩
        · cases same
          exact present rfl

/-- Where a petname was read to the end of its bytes, there is none to be read with more of them. -/
theorem decodePetname_prefixFree {petname' : Option String} (short : decodePetname bytes = .ok petname)
    (long : decodePetname (bytes ++ more) = .ok petname') : more = [] := by
  obtain ⟨rfl, -⟩ | ⟨text, remaining, rfl, taken, -⟩ := decodePetname_eq_ok.mp short
  · obtain ⟨same, -⟩ | ⟨text, remaining, other, -⟩ := decodePetname_eq_ok.mp long
    · exact (List.cons.inj same).2
    · cases other
  · obtain ⟨other, -⟩ | ⟨text', remaining', same, taken', -⟩ := decodePetname_eq_ok.mp long
    · cases other
    · rw [← (List.cons.inj same).2] at taken'
      exact extends_takeLengthPrefixed.eq_nil taken taken'

theorem decodeMetadata_eq_ok : decodeMetadata N bytes = .ok operation ↔
    ∃ text rest relay petname, takeLengthPrefixed bytes = .ok (toUtf8 text, rest) ∧
      decodeRelay N text = .ok relay ∧ decodePetname rest = .ok petname ∧
      operation = .addWithMetadata relay petname := by
  unfold decodeMetadata
  rw [bind_eq_ok]
  constructor
  · rintro ⟨⟨value, rest⟩, taken, h⟩
    dsimp only at h
    cases read : fromUtf8 value with
    | none =>
      rw [read] at h
      cases h
    | some text =>
      rw [read] at h
      obtain ⟨relay, hinted, h⟩ := bind_eq_ok.mp h
      obtain ⟨petname, named, h⟩ := bind_eq_ok.mp h
      cases h
      exact ⟨text, rest, relay, petname, (fromUtf8_iff.mp read).symm ▸ taken, hinted, named, rfl⟩
  · rintro ⟨text, rest, relay, petname, taken, hinted, named, rfl⟩
    refine ⟨_, taken, ?_⟩
    dsimp only
    rw [fromUtf8_iff.mpr rfl]
    exact bind_eq_ok.mpr ⟨relay, hinted, bind_eq_ok.mpr ⟨petname, named, rfl⟩⟩

theorem decodeMetadata_prefixFree {operation' : Operation} (short : decodeMetadata N bytes = .ok operation)
    (long : decodeMetadata N (bytes ++ more) = .ok operation') : more = [] := by
  obtain ⟨text, rest, relay, petname, taken, -, named, -⟩ := decodeMetadata_eq_ok.mp short
  obtain ⟨text', rest', relay', petname', taken', -, named', -⟩ := decodeMetadata_eq_ok.mp long
  rw [extends_takeLengthPrefixed _ _ _ more taken, Except.ok.injEq, Prod.mk.injEq] at taken'
  rw [← taken'.2] at named'
  exact decodePetname_prefixFree named named'

theorem decode_eq_ok : decode N bytes = .ok change ↔ codecLen ≤ bytes.length ∧
    N.keyFromSlice ((bytes.take codecLen).drop 1) = some change.target ∧
      decodeOperation N (bytes.headD 0) bytes = .ok change.operation := by
  obtain ⟨operation, target⟩ := change
  unfold decode
  by_cases short : bytes.length < codecLen
  · rw [if_pos short]
    exact iff_of_false nofun fun h => absurd h.1 (Nat.not_le.mpr short)
  · rw [if_neg short]
    cases read : N.keyFromSlice ((bytes.take codecLen).drop 1) with
    | none => exact iff_of_false nofun fun h => nomatch h.2.1
    | some key =>
      dsimp only
      rw [bind_eq_ok]
      constructor
      · rintro ⟨operation, decoded, made⟩
        cases made
        exact ⟨Nat.le_of_not_lt short, rfl, decoded⟩
      · rintro ⟨-, same, decoded⟩
        cases same
        exact ⟨operation, decoded, rfl⟩

theorem decodeOperation_eq_ok {code : UInt8} : decodeOperation N code bytes = .ok operation ↔
    (code = 1 ∧ bytes.length = codecLen ∧ operation = .add) ∨
      (code = 2 ∧ bytes.length = codecLen ∧ operation = .remove) ∨
      (code = 3 ∧ decodeMetadata N (bytes.drop codecLen) = .ok operation) := by
  have codes : (1 : UInt8) ≠ 2 ∧ (1 : UInt8) ≠ 3 ∧ (2 : UInt8) ≠ 3 := by decide
  unfold decodeOperation
  by_cases add : code = 1 ∧ bytes.length = codecLen
  · rw [if_pos add, Except.ok.injEq]
    obtain ⟨rfl, length⟩ := add
    constructor
    · exact fun made => .inl ⟨rfl, length, made.symm⟩
    · rintro (⟨-, -, made⟩ | ⟨two, -⟩ | ⟨three, -⟩)
      · exact made.symm
      · exact absurd two codes.1
      · exact absurd three codes.2.1
  · rw [if_neg add]
    by_cases remove : code = 2 ∧ bytes.length = codecLen
    · rw [if_pos remove, Except.ok.injEq]
      obtain ⟨rfl, length⟩ := remove
      constructor
      · exact fun made => .inr (.inl ⟨rfl, length, made.symm⟩)
      · rintro (⟨one, -⟩ | ⟨-, -, made⟩ | ⟨three, -⟩)
        · exact absurd one.symm codes.1
        · exact made.symm
        · exact absurd three codes.2.2
    · rw [if_neg remove]
      by_cases metadata : code = 3
      · rw [if_pos metadata]
        constructor
        · exact fun decoded => .inr (.inr ⟨metadata, decoded⟩)
        · rintro (⟨one, length, -⟩ | ⟨two, length, -⟩ | ⟨-, decoded⟩)
          · exact absurd ⟨one, length⟩ add
          · exact absurd ⟨two, length⟩ remove
          · exact decoded
      · rw [if_neg metadata]
        refine iff_of_false nofun ?_
        rintro (⟨one, length, -⟩ | ⟨two, length, -⟩ | ⟨three, -⟩)
        · exact add ⟨one, length⟩
        · exact remove ⟨two, length⟩
        · exact metadata three

/-- Of two edits that are decoded, none is the beginning of the other. -/
theorem decode_prefixFree (short : decode N bytes = .ok change)
    (long : decode N (bytes ++ more) = .ok change') : more = [] := by
  obtain ⟨full, -, operation⟩ := decode_eq_ok.mp short
  obtain ⟨-, -, operation'⟩ := decode_eq_ok.mp long
  have head : (bytes ++ more).headD 0 = bytes.headD 0 := by
    cases bytes with
    | nil => exact absurd full (by decide)
    | cons byte bytes => rfl
  have ends (length : bytes.length = codecLen) (length' : (bytes ++ more).length = codecLen) : more = [] := by
    rw [List.length_append] at length'
    exact List.length_eq_zero_iff.mp (by omega)
  rw [head] at operation'
  obtain ⟨one, length, -⟩ | ⟨two, length, -⟩ | ⟨three, decoded⟩ := decodeOperation_eq_ok.mp operation
  · obtain ⟨-, length', -⟩ | ⟨two, -⟩ | ⟨three, -⟩ := decodeOperation_eq_ok.mp operation'
    · exact ends length length'
    · cases one.symm.trans two
    · cases one.symm.trans three
  · obtain ⟨one, -⟩ | ⟨-, length', -⟩ | ⟨three, -⟩ := decodeOperation_eq_ok.mp operation'
    · cases two.symm.trans one
    · exact ends length length'
    · cases two.symm.trans three
  · obtain ⟨one, -⟩ | ⟨two, -⟩ | ⟨-, decoded'⟩ := decodeOperation_eq_ok.mp operation'
    · cases three.symm.trans one
    · cases three.symm.trans two
    · rw [List.drop_append_of_le_length full] at decoded'
      exact decodeMetadata_prefixFree decoded decoded'

end Reading

section RoundTrip

variable (B : ByteForms N)

theorem checkedAdd_eq_some {a b c : Nat} : checkedAdd a b = some c ↔ c = a + b ∧ a + b < 2 ^ 64 := by
  unfold checkedAdd
  rw [Option.ite_none_right_eq_some, Option.some.injEq, and_comm, eq_comm (a := c)]

/-- The length that is computed for a follow with metadata. -/
theorem metadataEncodedLen_eq_ok {n : Nat} : metadataEncodedLen relay petname = .ok n ↔
    n = codecLen + 4 + (relay.map String.utf8ByteSize).getD 0 + 1 + petname.isSome.toNat * 4 +
      (petname.map String.utf8ByteSize).getD 0 ∧ n ≤ maxEditBytes := by
  unfold metadataEncodedLen
  simp only [demand_bind_eq_ok, require_bind_eq_ok]
  constructor
  · rintro ⟨encodedLen, summed, within, made⟩
    cases made
    simp only [Option.bind_eq_bind, Option.bind_eq_some_iff, checkedAdd_eq_some] at summed
    obtain ⟨_, ⟨rfl, -⟩, _, ⟨rfl, -⟩, _, ⟨rfl, -⟩, _, ⟨rfl, -⟩, rfl, -⟩ := summed
    exact ⟨rfl, within⟩
  · rintro ⟨rfl, within⟩
    have word : codecLen + 4 + (relay.map String.utf8ByteSize).getD 0 + 1 + petname.isSome.toNat * 4 +
        (petname.map String.utf8ByteSize).getD 0 < 2 ^ 64 := Nat.lt_of_le_of_lt within (by decide)
    refine ⟨_, ?_, within, rfl⟩
    simp only [Option.bind_eq_bind, Option.bind_eq_some_iff, checkedAdd_eq_some]
    exact ⟨_, ⟨rfl, by omega⟩, _, ⟨rfl, by omega⟩, _, ⟨rfl, by omega⟩, _, ⟨rfl, by omega⟩, rfl, by omega⟩

theorem length_petnameBytes : (petnameBytes petname).length =
    1 + petname.isSome.toNat * 4 + (petname.map String.utf8ByteSize).getD 0 := by
  cases petname with
  | none => rfl
  | some text =>
    rw [petnameBytes, List.length_cons, length_lengthPrefixed, length_toUtf8]
    simp only [Option.isSome_some, Bool.toNat_true, Option.map_some, Option.getD_some]
    omega

/-- What a follow with metadata is encoded as. -/
theorem encode_metadata_eq_ok {target : PublicKey} :
    encode B ⟨.addWithMetadata relay petname, target⟩ = .ok bytes ↔
      (∃ n, metadataEncodedLen relay petname = .ok n) ∧ bytes = 3 ::
        (B.keyToBytes target ++ (lengthPrefixed (toUtf8 (relay.getD "")) ++ petnameBytes petname)) := by
  unfold encode
  dsimp only
  rw [bind_eq_ok]
  simp only [require_bind_eq_ok]
  constructor
  · rintro ⟨n, within, -, -, made⟩
    exact ⟨⟨n, within⟩, (Except.ok.inj made).symm⟩
  · rintro ⟨⟨n, within⟩, rfl⟩
    obtain ⟨sum, bound⟩ := metadataEncodedLen_eq_ok.mp within
    have small : n < 2 ^ 32 := Nat.lt_of_le_of_lt bound (by decide)
    have text : (relay.getD "").utf8ByteSize = (relay.map String.utf8ByteSize).getD 0 := by
      cases relay <;> rfl
    refine ⟨n, within, ?_, ?_, rfl⟩
    · rw [text]
      omega
    · omega

/-- The target is a key, and a relay hint is the address of a relay. -/
structure Change.Typed (N : Library) (change : Change) : Prop where
  target : ∃ slice, N.keyFromSlice slice = some change.target
  relay : ∀ relay petname, change.operation = .addWithMetadata (some relay) petname →
    N.parseRelay relay = some relay

theorem decodeRelay_getD (empty : N.parseRelay "" = none)
    (parsed : ∀ address, relay = some address → N.parseRelay address = some address) :
    decodeRelay N (relay.getD "") = .ok relay := by
  unfold decodeRelay
  cases relay with
  | none => rfl
  | some address =>
    have is := parsed address rfl
    rw [Option.getD_some, if_neg]
    · rw [is]
    · rintro rfl
      rw [empty] at is
      cases is

theorem takeLengthPrefixed_append (short : value.length < 2 ^ 32) :
    takeLengthPrefixed (lengthPrefixed value ++ rest) = .ok (value, rest) :=
  takeLengthPrefixed_eq_ok.mpr (framed_lengthPrefixed short)

theorem decodePetname_bytes (short : (petname.map String.utf8ByteSize).getD 0 < 2 ^ 32) :
    decodePetname (petnameBytes petname) = .ok petname := by
  refine decodePetname_eq_ok.mpr ?_
  cases petname with
  | none => exact .inl ⟨rfl, rfl⟩
  | some text =>
    refine .inr ⟨text, lengthPrefixed (toUtf8 text), rfl, ?_, rfl⟩
    have taken : takeLengthPrefixed (lengthPrefixed (toUtf8 text) ++ []) = .ok (toUtf8 text, []) :=
      takeLengthPrefixed_append short
    rwa [List.append_nil] at taken

/-- The parts of an encoded edit, read back. -/
theorem decode_parts {target : PublicKey} {slice : List UInt8} (code : UInt8) (tail : List UInt8)
    (read : N.keyFromSlice slice = some target) :
    let bytes := code :: (B.keyToBytes target ++ tail)
    codecLen ≤ bytes.length ∧ N.keyFromSlice ((bytes.take codecLen).drop 1) = some target ∧
      bytes.drop codecLen = tail ∧ bytes.length = codecLen + tail.length := by
  have key : (B.keyToBytes target).length = 32 := B.key_length target
  have front : (B.keyToBytes target ++ tail).take 32 = B.keyToBytes target := List.take_left' key
  have total : (code :: (B.keyToBytes target ++ tail)).length = codecLen + tail.length := by
    rw [List.length_cons, List.length_append, key, codecLen]
    omega
  refine ⟨by rw [total]; omega, ?_, ?_, total⟩
  · change N.keyFromSlice ((B.keyToBytes target ++ tail).take 32) = some target
    rw [front, B.key_read _ _ read]
    exact read
  · exact List.drop_left' key

theorem decode_encode (empty : N.parseRelay "" = none) (typed : change.Typed N)
    (encoded : encode B change = .ok bytes) : decode N bytes = .ok change := by
  obtain ⟨operation, target⟩ := change
  obtain ⟨slice, read⟩ := typed.target
  cases operation with
  | add =>
    obtain ⟨full, key, -, length⟩ := decode_parts B 1 [] read
    rw [List.append_nil] at full key length
    cases encoded
    exact decode_eq_ok.mpr ⟨full, key, decodeOperation_eq_ok.mpr (.inl ⟨rfl, length, rfl⟩)⟩
  | remove =>
    obtain ⟨full, key, -, length⟩ := decode_parts B 2 [] read
    rw [List.append_nil] at full key length
    cases encoded
    exact decode_eq_ok.mpr ⟨full, key, decodeOperation_eq_ok.mpr (.inr (.inl ⟨rfl, length, rfl⟩))⟩
  | addWithMetadata relay petname =>
    obtain ⟨⟨n, within⟩, rfl⟩ := (encode_metadata_eq_ok B).mp encoded
    obtain ⟨sum, bound⟩ := metadataEncodedLen_eq_ok.mp within
    have small : n < 2 ^ 32 := Nat.lt_of_le_of_lt bound (by decide)
    have text : (toUtf8 (relay.getD "")).length = (relay.map String.utf8ByteSize).getD 0 := by
      cases relay <;> rfl
    obtain ⟨full, key, tail, -⟩ := decode_parts B 3
      (lengthPrefixed (toUtf8 (relay.getD "")) ++ petnameBytes petname) read
    refine decode_eq_ok.mpr ⟨full, key, decodeOperation_eq_ok.mpr (.inr (.inr ⟨rfl, ?_⟩))⟩
    rw [tail]
    refine decodeMetadata_eq_ok.mpr ⟨relay.getD "", petnameBytes petname, relay, petname, ?_, ?_, ?_, rfl⟩
    · refine takeLengthPrefixed_append ?_
      rw [text]
      omega
    · exact decodeRelay_getD empty fun address same => typed.relay address petname (by rw [same])
    · exact decodePetname_bytes (by omega)

/-- A change is encoded unless its metadata is past the bound. -/
theorem encode_isOk : (∃ bytes, encode B change = .ok bytes) ↔
    ∀ relay petname, change.operation = .addWithMetadata relay petname →
      ∃ n, metadataEncodedLen relay petname = .ok n := by
  obtain ⟨operation, target⟩ := change
  cases operation with
  | add => exact iff_of_true ⟨_, rfl⟩ nofun
  | remove => exact iff_of_true ⟨_, rfl⟩ nofun
  | addWithMetadata relay petname =>
    constructor
    · rintro ⟨bytes, encoded⟩ relay petname same
      cases same
      exact ((encode_metadata_eq_ok B).mp encoded).1
    · intro within
      exact ⟨_, (encode_metadata_eq_ok B).mpr ⟨within relay petname rfl, rfl⟩⟩

/-- The encoding is as long as was computed for it. -/
theorem length_encode (encoded : encode B change = .ok bytes) (carries : change.operation =
    .addWithMetadata relay petname) : metadataEncodedLen relay petname = .ok bytes.length := by
  obtain ⟨operation, target⟩ := change
  obtain rfl : operation = .addWithMetadata relay petname := carries
  obtain ⟨⟨n, within⟩, rfl⟩ := (encode_metadata_eq_ok B).mp encoded
  have key : (B.keyToBytes target).length = 32 := B.key_length target
  have text : (toUtf8 (relay.getD "")).length = (relay.map String.utf8ByteSize).getD 0 := by
    cases relay <;> rfl
  refine within.trans (congrArg Except.ok ?_)
  rw [(metadataEncodedLen_eq_ok.mp within).1, List.length_cons, List.length_append, List.length_append,
    key, length_lengthPrefixed, text, length_petnameBytes, codecLen]
  omega

end RoundTrip

end Fava.Edits.Nip02
