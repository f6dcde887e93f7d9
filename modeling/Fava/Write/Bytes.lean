import Fava.Write.Event
import Mathlib.Data.List.Induction
import Mathlib.Tactic.NormNum
import Mathlib.Tactic.Ring

namespace Fava.Write

open Fava.Nostr

variable {width n : Nat} {bytes : List UInt8} {text : String}

section Numbers

/-- A number in so many big-endian bytes. -/
def toBigEndian : Nat → Nat → List UInt8
  | 0, _ => []
  | width + 1, n => toBigEndian width (n / 256) ++ [UInt8.ofNat (n % 256)]

theorem length_toBigEndian : (toBigEndian width n).length = width := by
  induction width generalizing n with
  | zero => rfl
  | succ width ih => rw [toBigEndian, List.length_append, ih, List.length_singleton]

theorem ofBigEndian_append {byte : UInt8} :
    ofBigEndian (bytes ++ [byte]) = ofBigEndian bytes * 256 + byte.toNat :=
  List.foldl_append

theorem ofBigEndian_toBigEndian (small : n < 256 ^ width) : ofBigEndian (toBigEndian width n) = n := by
  induction width generalizing n with
  | zero =>
    obtain rfl : n = 0 := by omega
    rfl
  | succ width ih =>
    have rest : n / 256 < 256 ^ width := by
      rw [Nat.pow_succ'] at small
      exact Nat.div_lt_of_lt_mul small
    have last : (UInt8.ofNat (n % 256)).toNat = n % 256 := by
      rw [UInt8.toNat_ofNat']
      omega
    rw [toBigEndian, ofBigEndian_append, ih rest, last]
    omega

theorem toBigEndian_ofBigEndian (bytes : List UInt8) :
    toBigEndian bytes.length (ofBigEndian bytes) = bytes := by
  induction bytes using List.reverseRecOn with
  | nil => rfl
  | append_singleton bytes byte ih =>
    have small : byte.toNat < 256 := byte.toNat_lt
    rw [List.length_append, List.length_singleton, toBigEndian, ofBigEndian_append,
      show (ofBigEndian bytes * 256 + byte.toNat) / 256 = ofBigEndian bytes by omega,
      show (ofBigEndian bytes * 256 + byte.toNat) % 256 = byte.toNat by omega, ih, UInt8.ofNat_toNat]

theorem ofBigEndian_lt (bytes : List UInt8) : ofBigEndian bytes < 256 ^ bytes.length := by
  induction bytes using List.reverseRecOn with
  | nil => exact Nat.one_pos
  | append_singleton bytes byte ih =>
    have small : byte.toNat < 256 := byte.toNat_lt
    rw [ofBigEndian_append, List.length_append, List.length_singleton, Nat.pow_succ]
    omega

end Numbers

section Texts

def toUtf8 (text : String) : List UInt8 := text.toUTF8.data.toList

theorem length_toUtf8 : (toUtf8 text).length = text.utf8ByteSize := rfl

/-- Bytes are read as the text that is written as they are. -/
theorem fromUtf8_iff : fromUtf8 bytes = some text ↔ toUtf8 text = bytes := by
  unfold fromUtf8 toUtf8 String.fromUTF8?
  constructor
  · intro read
    split at read
    · cases read
      rfl
    · cases read
  · rintro rfl
    exact dif_pos text.isValidUTF8

end Texts

section Framing

variable {value rest more input : List UInt8}

/-- Bytes after their own length. -/
def lengthPrefixed (value : List UInt8) : List UInt8 := toBigEndian 4 value.length ++ value

/-- The input is bytes after their length, and a rest. -/
structure Framed (input value rest : List UInt8) : Prop where
  header : 4 ≤ input.length
  body : 4 + ofBigEndian (input.take 4) ≤ input.length
  value : (input.drop 4).take (ofBigEndian (input.take 4)) = value
  rest : input.drop (4 + ofBigEndian (input.take 4)) = rest

theorem length_lengthPrefixed : (lengthPrefixed value).length = 4 + value.length := by
  rw [lengthPrefixed, List.length_append, length_toBigEndian]

/-- More input makes for more of the rest. -/
theorem Framed.append (framed : Framed input value rest) : Framed (input ++ more) value (rest ++ more) := by
  obtain ⟨header, body, rfl, rfl⟩ := framed
  have first : (input ++ more).take 4 = input.take 4 := List.take_append_of_le_length header
  constructor
  · rw [List.length_append]
    omega
  · rw [first, List.length_append]
    omega
  · rw [first, List.drop_append_of_le_length header, List.take_append_of_le_length]
    rw [List.length_drop]
    omega
  · rw [first, List.drop_append_of_le_length body]

theorem framed_lengthPrefixed (short : value.length < 2 ^ 32) :
    Framed (lengthPrefixed value ++ more) value more := by
  have four : (toBigEndian 4 value.length).length = 4 := length_toBigEndian
  have number : ofBigEndian ((lengthPrefixed value ++ more).take 4) = value.length := by
    rw [lengthPrefixed, List.append_assoc, List.take_left' four]
    exact ofBigEndian_toBigEndian short
  have after : (lengthPrefixed value ++ more).drop 4 = value ++ more := by
    rw [lengthPrefixed, List.append_assoc, List.drop_left' four]
  have length : (lengthPrefixed value ++ more).length = 4 + value.length + more.length := by
    rw [List.length_append, length_lengthPrefixed]
  constructor
  · omega
  · omega
  · rw [number, after, List.take_left]
  · rw [number, ← List.drop_drop, after, List.drop_left]

end Framing

/-- The bytes of keys and identifiers, which are those they are read from. -/
structure ByteForms (N : Library) where
  keyToBytes : PublicKey → List UInt8
  idToBytes : EventId → List UInt8
  key_length : ∀ key, (keyToBytes key).length = 32
  id_length : ∀ id, (idToBytes id).length = 32
  key_read : ∀ bytes key, N.keyFromSlice bytes = some key → keyToBytes key = bytes
  id_read : ∀ bytes id, N.idFromSlice bytes = some id → idToBytes id = bytes

section Plain

theorem fromHexDigit_hexDigit : ∀ d < 16, fromHexDigit (hexDigit d) = some d := by decide

theorem length_toHex (width n : Nat) : (toHex width n).length = width := by
  induction width generalizing n with
  | zero => rfl
  | succ width ih => rw [toHex, List.length_append, ih, List.length_singleton]

theorem foldlM_toHex (width n acc : Nat) :
    (toHex width n).foldlM (fun n c => (fromHexDigit c).map (n * 16 + ·)) acc =
      some (acc * 16 ^ width + n % 16 ^ width) := by
  induction width generalizing n with
  | zero => simp [toHex, Nat.mod_one]
  | succ width ih =>
    have digit := fromHexDigit_hexDigit (n % 16) (Nat.mod_lt n (by decide))
    rw [toHex, List.foldlM_append, ih, Nat.pow_succ', Nat.mod_mul]
    simp only [Option.bind_eq_bind, Option.bind_some, List.foldlM_cons, List.foldlM_nil, digit,
      Option.map_some, Option.pure_def]
    congr 1
    ring

theorem fromHex_toHex (bound : n < 16 ^ 64) : fromHex (String.ofList (toHex 64 n)) = some n := by
  rw [fromHex, if_pos (by rw [String.length_ofList, length_toHex]), String.toList_ofList, foldlM_toHex,
    Nat.mod_eq_of_lt bound, Nat.zero_mul, Nat.zero_add]

theorem fromSlice_lt (sliced : fromSlice bytes = some n) : n < 16 ^ 64 := by
  unfold fromSlice at sliced
  split at sliced
  · rename_i length
    obtain rfl := Option.some.inj sliced
    have bound := ofBigEndian_lt bytes
    rw [length] at bound
    exact Nat.lt_of_lt_of_eq bound (by norm_num)
  · cases sliced

theorem fromSlice_read (sliced : fromSlice bytes = some n) : toBigEndian 32 n = bytes := by
  unfold fromSlice at sliced
  split at sliced
  · rename_i length
    obtain rfl := Option.some.inj sliced
    rw [← length]
    exact toBigEndian_ofBigEndian bytes
  · cases sliced

/-- The plain library's keys and identifiers are numbers in big-endian bytes. -/
def plainForms : ByteForms plainLibrary where
  keyToBytes := toBigEndian 32
  idToBytes := toBigEndian 32
  key_length _ := length_toBigEndian
  id_length _ := length_toBigEndian
  key_read _ _ := fromSlice_read
  id_read _ _ := fromSlice_read

theorem plain_key {key : Nat} (sliced : fromSlice bytes = some key) :
    plainLibrary.keyFromHex (plainLibrary.keyToHex key) = some key := by
  have written : plainLibrary.keyToHex key = String.ofList (toHex 64 key) := rfl
  have read : plainLibrary.keyFromHex = fromHex := rfl
  rw [written, read]
  exact fromHex_toHex (fromSlice_lt sliced)

theorem hexDigit_plain : ∀ d < 16, hexDigit d ≠ ':' := by decide

theorem toHex_plain : ':' ∉ toHex width n := by
  induction width generalizing n with
  | zero => exact List.not_mem_nil
  | succ width ih =>
    rw [toHex, List.mem_append, List.mem_singleton, not_or]
    exact ⟨ih, Ne.symm (hexDigit_plain (n % 16) (Nat.mod_lt n (by decide)))⟩

end Plain

end Fava.Write
