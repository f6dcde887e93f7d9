import Fava.Edits.Nip02
import Fava.Lib.JsonText
import Fava.Lib.Metered
import Fava.Write.Bytes

namespace Fava.Edits.Nip02

open Fava.Lib Fava.Nostr Fava.Write

/-- Each sum on the way is at most the bound and one amount, which a machine word holds:
the overflow that the source checks for does not occur. -/
def encodedLen (source : Event) : Except WriteIntentError Nat :=
  encodedLenParts source.createdAt source.kind source.tags source.content

def hexDigits : List Char :=
  ['0', '1', '2', '3', '4', '5', '6', '7', '8', '9', 'a', 'b', 'c', 'd', 'e', 'f']

def IsHex (width : Nat) (text : String) : Prop :=
  text.toList.length = width ∧ ∀ c ∈ text.toList, c ∈ hexDigits

/-- Identifiers, keys and signatures are written in hexadecimal digits, two for each byte. -/
structure HexForms (N : Library) where
  sigToHex : Nat → String
  id_hex : ∀ id, IsHex 64 (N.idToHex id)
  key_hex : ∀ key, IsHex 64 (N.keyToHex key)
  sig_hex : ∀ sig, IsHex 128 (sigToHex sig)

section Encoding

variable {N : Library} (hex : HexForms N)

def tagsJson (tags : List Tag) : Json := .array (tags.map fun tag => .array (tag.map .string))

/-- The members of an event in the order they are written in. -/
def eventJson (event : Event) : Json :=
  .object [("id", .string (N.idToHex event.id)), ("pubkey", .string (N.keyToHex event.pubkey)),
    ("created_at", .number event.createdAt), ("kind", .number event.kind),
    ("tags", tagsJson event.tags), ("content", .string event.content),
    ("sig", .string (hex.sigToHex event.sig))]

def asJson (event : Event) : String := (eventJson hex event).compact

end Encoding

def jsonStringLen (value : String) : Nat := 2 + (value.toList.map charLen).sum

/-- The length of items with a comma between any two of them. -/
def separatedLen (lens : List Nat) : Nat := (lens.map (· + 1)).sum - 1

def tagLen (tag : Tag) : Nat := 2 + separatedLen (tag.map jsonStringLen)

def valueCount (tags : List Tag) : Nat := (tags.map List.length).sum

def eventLen (createdAt : Timestamp) (kind : Kind) (tags : List Tag) (content : String) : Nat :=
  emptyEventObjectBytes + fixedHexBytes + decimalLen createdAt + decimalLen kind +
    (2 + separatedLen (tags.map tagLen)) + jsonStringLen content

variable {N : Library} {hex : HexForms N} {event : Event} {tag : Tag} {tags : List Tag}
  {value text : String} {bytes n : Nat} {createdAt : Timestamp} {kind : Kind} {content : String}

section Written

theorem shortEscapes_single : ∀ entry ∈ shortEscapes, entry.2.utf8Size = 1 := by decide

theorem digitChar_single : ∀ d < 16, (Nat.digitChar d).utf8Size = 1 := by decide

/-- The lengths the source counts are those of the escapes. -/
theorem charLen_eq (c : Char) : charLen c = String.utf8Len (escaped c) := by
  have short : c.toNat ∈ [0x22, 0x5c, 0x08, 0x09, 0x0a, 0x0c, 0x0d] ↔
      (shortEscapes.lookup c.toNat).isSome = true := by
    simp [shortEscapes]
  unfold charLen escaped
  split
  · rename_i listed
    obtain ⟨letter, found⟩ := Option.isSome_iff_exists.mp (short.mp listed)
    have single : letter.utf8Size = 1 := by
      obtain ⟨before, after, is, -⟩ := List.lookup_eq_some_iff.mp found
      refine shortEscapes_single (c.toNat, letter) ?_
      rw [is]
      exact List.mem_append_right before List.mem_cons_self
    rw [found]
    change 2 = String.utf8Len [_, letter]
    rw [String.utf8Len_cons, String.utf8Len_cons, single]
    rfl
  · rename_i unlisted
    have none := Option.not_isSome_iff_eq_none.mp fun found => unlisted (short.mpr found)
    rw [none]
    dsimp only
    split
    · rename_i control
      have high := digitChar_single (c.toNat / 16) (by omega)
      have low := digitChar_single (c.toNat % 16) (by omega)
      simp only [String.utf8Len_cons, String.utf8Len_nil, high, low]
      rfl
    · rw [String.utf8Len_cons, String.utf8Len_nil, Nat.zero_add]

theorem utf8ByteSize_quoted_eq : (quoted text).utf8ByteSize = jsonStringLen text := by
  have each : (fun c => String.utf8Len (escaped c)) = charLen := funext fun c => (charLen_eq c).symm
  rw [Json.utf8ByteSize_quoted, each, jsonStringLen]

theorem decimalLen_eq (n : Nat) : decimalLen n = (toString n).utf8ByteSize := by
  have fits (k : Nat) (pos : 0 < k) (some : n ≠ 0) :
      (Nat.toDigits 10 n).length ≤ k ↔ Nat.log 10 n < k := by
    rw [Nat.length_toDigits_le_iff (by decide) pos, Nat.log_lt_iff_lt_pow (by decide) some]
  rw [Json.utf8ByteSize_toString, decimalLen]
  split
  · rename_i zero
    subst zero
    rfl
  · rename_i some
    apply Nat.le_antisymm
    · by_contra short
      have := (fits _ Nat.length_toDigits_pos some).mp (Nat.le_refl _)
      omega
    · exact (fits _ (Nat.succ_pos _) some).mpr (Nat.lt_succ_self _)

theorem hexDigits_single : hexDigits.all (charLen · = 1) = true := by decide

theorem jsonStringLen_of_hex {width : Nat} (digits : IsHex width text) :
    jsonStringLen text = 2 + width := by
  have each : text.toList.map charLen = List.replicate width 1 := by
    rw [List.eq_replicate_iff, List.length_map, List.forall_mem_map]
    have single := List.all_eq_true.mp hexDigits_single
    exact ⟨digits.1, fun c inside => of_decide_eq_true (single c (digits.2 c inside))⟩
  rw [jsonStringLen, each, List.sum_replicate_nat, Nat.mul_one]

theorem utf8ByteSize_tagsJson : (tagsJson tags).compact.utf8ByteSize =
    2 + separatedLen (tags.map tagLen) := by
  have value : ((fun item => item.compact.utf8ByteSize + 1) ∘ Json.string) =
      (· + 1) ∘ jsonStringLen := by
    funext text
    rw [Function.comp_apply, Function.comp_apply, Json.compact, utf8ByteSize_quoted_eq]
  have each : ((fun item => item.compact.utf8ByteSize + 1) ∘ fun tag : Tag =>
      Json.array (tag.map .string)) = (· + 1) ∘ tagLen := by
    funext tag
    rw [Function.comp_apply, Function.comp_apply, Json.utf8ByteSize_array, List.map_map, value, tagLen,
      separatedLen, List.map_map]
  rw [tagsJson, Json.utf8ByteSize_array, List.map_map, each, separatedLen, List.map_map]

/-- The size of the encoding is the sum of the parts. -/
theorem utf8ByteSize_asJson : (asJson hex event).utf8ByteSize =
    eventLen event.createdAt event.kind event.tags event.content := by
  rw [asJson, eventJson, Json.utf8ByteSize_object]
  simp only [utf8ByteSize_quoted_eq, Json.compact, List.map_cons, List.map_nil, List.sum_cons,
    List.sum_nil, utf8ByteSize_tagsJson, jsonStringLen_of_hex (hex.id_hex _),
    jsonStringLen_of_hex (hex.key_hex _), jsonStringLen_of_hex (hex.sig_hex _), ← decimalLen_eq]
  have id : jsonStringLen "id" = 4 := by decide
  have pubkey : jsonStringLen "pubkey" = 8 := by decide
  have created_at : jsonStringLen "created_at" = 12 := by decide
  have kind : jsonStringLen "kind" = 6 := by decide
  have tags : jsonStringLen "tags" = 6 := by decide
  have content : jsonStringLen "content" = 9 := by decide
  have sig : jsonStringLen "sig" = 5 := by decide
  rw [id, pubkey, created_at, kind, tags, content, sig]
  unfold eventLen emptyEventObjectBytes fixedHexBytes
  omega

end Written

section Measured

/-- What a measurement has counted: bytes, and the values of tags. -/
def measureBound : Nat × Nat := (maxEventBytes, maxTagValues)

theorem adds_add (amount : Nat) : Adds maxEventBytes (add · amount) amount := by
  intro bytes _ sum
  dsimp only
  unfold add
  split
  · rename_i large
    refine ⟨nofun, ?_⟩
    rintro ⟨rfl, within⟩
    exact absurd within (Nat.not_le_of_lt large)
  · rename_i small
    constructor
    · rintro ⟨⟩
      exact ⟨rfl, Nat.le_of_not_lt small⟩
    · rintro ⟨rfl, -⟩
      rfl

theorem adds_addJsonString (value : String) :
    Adds maxEventBytes (addJsonString · value) (jsonStringLen value) :=
  (adds_add 2).bind (adds_foldlM fun c _ => adds_add (charLen c))

/-- A comma before all items but the first. -/
def commaLen (index : Nat) : Nat := if index > 0 then 1 else 0

theorem adds_comma (index : Nat) : Adds maxEventBytes
    (fun bytes => if index > 0 then add bytes 1 else pure bytes) (commaLen index) := by
  unfold commaLen
  by_cases later : index > 0
  · simpa only [if_pos later] using adds_add 1
  · simpa only [if_neg later] using adds_pure

def countValue (measured : Nat × Nat) : Except WriteIntentError (Nat × Nat) :=
  if measured.2 + 1 > maxTagValues then .error (.tooLarge (measured.2 + 1) maxTagValues)
  else .ok (measured.1, measured.2 + 1)

theorem adds_countValue : Adds measureBound countValue (0, 1) := by
  rintro ⟨bytes, count⟩ ⟨within, -⟩ ⟨sum, count'⟩
  unfold countValue
  split
  · rename_i many
    refine ⟨nofun, ?_⟩
    rintro ⟨is, -, few⟩
    cases is
    exact absurd few (Nat.not_le_of_lt many)
  · rename_i few
    constructor
    · rintro ⟨⟩
      exact ⟨rfl, within, Nat.le_of_not_lt few⟩
    · rintro ⟨is, -⟩
      cases is
      rfl

/-- A value is counted, and then measured. -/
theorem addValue_eq (measured : Nat × Nat) (value : String × Nat) :
    addValue measured value = countValue measured >>= fun measured =>
      ((if value.2 > 0 then add measured.1 1 else pure measured.1) >>= (addJsonString · value.1)) >>=
        fun bytes => pure (bytes, measured.2) := by
  unfold addValue countValue
  dsimp only
  split
  · rfl
  · by_cases later : value.2 > 0
    · simp only [if_pos later, bind_assoc]
      rfl
    · simp only [if_neg later, bind_assoc]
      rfl

theorem adds_addValue (value : String × Nat) :
    Adds measureBound (addValue · value) (commaLen value.2 + jsonStringLen value.1, 1) := by
  have bytes := (adds_comma value.2).bind (adds_addJsonString value.1)
  have both := adds_countValue.bind (bytes.first maxTagValues)
  simp only [addValue_eq]
  simpa only [Prod.mk_add_mk, Nat.zero_add, Nat.add_zero] using both

/-- The commas between items that are measured one after another. -/
theorem sum_commas_succ {α : Type} {f : α → Nat} {l : List α} {k : Nat} :
    ((l.zipIdx (k + 1)).map fun item => commaLen item.2 + f item.1).sum = ((l.map f).map (· + 1)).sum := by
  induction l generalizing k with
  | nil => rfl
  | cons a l ih =>
    rw [List.zipIdx_cons, List.map_cons, List.sum_cons, ih, List.map_cons, List.map_cons, List.sum_cons,
      commaLen, if_pos (Nat.succ_pos k), Nat.add_comm 1]

theorem sum_commas {α : Type} {f : α → Nat} {l : List α} :
    (l.zipIdx.map fun item => commaLen item.2 + f item.1).sum = separatedLen (l.map f) := by
  cases l with
  | nil => rfl
  | cons a l =>
    rw [List.zipIdx_cons, List.map_cons, List.sum_cons, sum_commas_succ, separatedLen, List.map_cons,
      List.map_cons, List.sum_cons, commaLen, if_neg (Nat.lt_irrefl 0), Nat.zero_add,
      Nat.add_right_comm, Nat.add_sub_cancel]

theorem adds_values (tag : Tag) : Adds measureBound (tag.zipIdx.foldlM addValue)
    (separatedLen (tag.map jsonStringLen), tag.length) := by
  have each := adds_foldlM fun value (_ : value ∈ tag.zipIdx) => adds_addValue value
  rw [sum_pairs, sum_commas] at each
  simpa using each

/-- A tag is opened, and then its values are measured. -/
theorem addTag_eq (measured : Nat × Nat) (tag : Tag × Nat) :
    addTag measured tag =
      (((if tag.2 > 0 then add measured.1 1 else pure measured.1) >>= (add · 2)) >>=
        fun bytes => pure (bytes, measured.2)) >>= tag.1.zipIdx.foldlM addValue := by
  unfold addTag
  by_cases later : tag.2 > 0
  · simp only [if_pos later, bind_assoc, pure_bind]
  · simp only [if_neg later, bind_assoc, pure_bind]

theorem adds_addTag (tag : Tag × Nat) :
    Adds measureBound (addTag · tag) (commaLen tag.2 + tagLen tag.1, tag.1.length) := by
  have opened := ((adds_comma tag.2).bind (adds_add 2)).first maxTagValues
  have all := opened.bind (adds_values tag.1)
  simp only [addTag_eq]
  rwa [Prod.mk_add_mk, Nat.zero_add, Nat.add_assoc] at all

theorem adds_tags (tags : List Tag) : Adds measureBound (tags.zipIdx.foldlM addTag)
    (separatedLen (tags.map tagLen), valueCount tags) := by
  have each := adds_foldlM fun tag (_ : tag ∈ tags.zipIdx) => adds_addTag tag
  have counts : (tags.zipIdx.map fun tag => tag.1.length) = tags.map List.length := by
    change tags.zipIdx.map (List.length ∘ Prod.fst) = _
    rw [← List.map_map, List.zipIdx_map_fst]
  rwa [sum_pairs, sum_commas, counts] at each

theorem encodedLenParts_eq : encodedLenParts createdAt kind tags content =
    ((((((add emptyEventObjectBytes fixedHexBytes >>= (add · (decimalLen createdAt))) >>=
      (add · (decimalLen kind))) >>= (add · 2)) >>= fun bytes => pure (bytes, 0)) >>=
        tags.zipIdx.foldlM addTag) >>= fun measured =>
          addJsonString measured.1 content >>= fun bytes => pure (bytes, measured.2)) >>=
            fun measured => pure measured.1 := by
  simp only [encodedLenParts, bind_assoc, pure_bind, bind_pure]

/-- The length is that of the parts, where it is within the bound and the values of the
tags are few enough. -/
theorem encodedLenParts_eq_ok : encodedLenParts createdAt kind tags content = .ok n ↔
    n = eventLen createdAt kind tags content ∧ n ≤ maxEventBytes ∧ valueCount tags ≤ maxTagValues := by
  have header := (((adds_add fixedHexBytes).bind (adds_add (decimalLen createdAt))).bind
    (adds_add (decimalLen kind))).bind (adds_add 2)
  have closed := ((header.first maxTagValues).bind (adds_tags tags)).bind
    ((adds_addJsonString content).first maxTagValues)
  have start : (emptyEventObjectBytes, 0) ≤ measureBound := by decide
  have total {sum count : Nat} := closed _ start (sum, count)
  simp only [Prod.mk_add_mk, Nat.zero_add, Nat.add_zero, Prod.mk.injEq, Prod.mk_le_mk, ← Nat.add_assoc]
    at total
  rw [encodedLenParts_eq, bind_eq_ok]
  constructor
  · rintro ⟨⟨sum, count⟩, measured, done⟩
    cases done
    obtain ⟨⟨is, rfl⟩, within, few⟩ := total.mp measured
    exact ⟨by simpa only [eventLen, ← Nat.add_assoc] using is, within, few⟩
  · rintro ⟨is, within, few⟩
    rw [eventLen] at is
    simp only [← Nat.add_assoc] at is
    exact ⟨(n, valueCount tags), total.mpr ⟨⟨is, rfl⟩, within, few⟩, rfl⟩

end Measured

section Fitting

theorem decimalLen_pos : 1 ≤ decimalLen n := by
  unfold decimalLen
  split
  · exact Nat.le_refl 1
  · exact Nat.le_add_left 1 _

theorem tagLen_ge (tag : Tag) : 3 * tag.length + 2 ≤ tagLen tag + 1 := by
  have values : 3 * tag.length ≤ ((tag.map jsonStringLen).map (· + 1)).sum := by
    induction tag with
    | nil => exact Nat.le_refl 0
    | cons value tag ih =>
      rw [List.map_cons, List.map_cons, List.sum_cons, List.length_cons, jsonStringLen]
      omega
  rw [tagLen, separatedLen]
  omega

theorem separatedLen_ge (tags : List Tag) :
    3 * valueCount tags + 2 * tags.length ≤ separatedLen (tags.map tagLen) + 1 := by
  have all : 3 * valueCount tags + 2 * tags.length ≤ ((tags.map tagLen).map (· + 1)).sum := by
    induction tags with
    | nil => exact Nat.le_refl 0
    | cons tag tags ih =>
      have first := tagLen_ge tag
      rw [valueCount] at ih ⊢
      rw [List.map_cons, List.map_cons, List.map_cons, List.sum_cons, List.sum_cons, List.length_cons]
      omega
  rw [separatedLen]
  omega

/-- Each value takes three bytes at least, and what is left of the bound is what the
smallest event with a tag takes: the count refuses no event that fits. -/
theorem valueCount_le (fits : eventLen createdAt kind tags content ≤ maxEventBytes) :
    valueCount tags ≤ maxTagValues := by
  have all := separatedLen_ge tags
  have time := decimalLen_pos (n := createdAt)
  have number := decimalLen_pos (n := kind)
  have some : valueCount tags = 0 ∨ 1 ≤ tags.length := by
    cases tags with
    | nil => exact .inl rfl
    | cons tag tags => exact .inr (Nat.le_add_left 1 _)
  unfold eventLen emptyEventObjectBytes fixedHexBytes jsonStringLen maxEventBytes at fits
  unfold maxTagValues maxEventBytes minEventWithOneTagBytes
  omega

end Fitting

theorem encodedLen_eq_ok (hex : HexForms N) :
    encodedLen event = .ok n ↔ (asJson hex event).utf8ByteSize = n ∧ n ≤ maxEventBytes := by
  rw [encodedLen, encodedLenParts_eq_ok, utf8ByteSize_asJson]
  constructor
  · rintro ⟨rfl, within, -⟩
    exact ⟨rfl, within⟩
  · rintro ⟨rfl, within⟩
    exact ⟨rfl, within, valueCount_le within⟩

/-- The structural size is the size of the encoding wherever that is within the bound,
and an error otherwise; an event that fits has no more tag values than the count allows. -/
theorem encodedLen_exact (hex : HexForms N) (event : Event) :
    (∀ n, encodedLen event = .ok n ↔ (asJson hex event).utf8ByteSize = n ∧ n ≤ maxEventBytes) ∧
      ((∃ error, encodedLen event = .error error) ↔
        maxEventBytes < (asJson hex event).utf8ByteSize) ∧
      ((asJson hex event).utf8ByteSize ≤ maxEventBytes → valueCount event.tags ≤ maxTagValues) := by
  refine ⟨fun n => encodedLen_eq_ok hex, ?_, fun fits => ?_⟩
  · constructor
    · rintro ⟨error, refused⟩
      by_contra fits
      have measured := (encodedLen_eq_ok hex).mpr ⟨rfl, Nat.le_of_not_lt fits⟩
      rw [refused] at measured
      cases measured
    · intro large
      cases is : encodedLen event with
      | error error => exact ⟨error, rfl⟩
      | ok n =>
        obtain ⟨rfl, within⟩ := (encodedLen_eq_ok hex).mp is
        exact absurd within (Nat.not_le_of_lt large)
  · rw [utf8ByteSize_asJson] at fits
    exact valueCount_le fits

/-- A signed source is accepted for its size exactly where its encoding is within the bound. -/
theorem validateValueSource_signed (hex : HexForms N) : validateValueSource (.signed event) = .ok () ↔
    (asJson hex event).utf8ByteSize ≤ maxEventBytes := by
  have measured : validateValueSource (.signed event) = encodedLen event >>= fun _ => pure () := rfl
  rw [measured, bind_eq_ok]
  constructor
  · rintro ⟨n, is, -⟩
    obtain ⟨rfl, within⟩ := (encodedLen_eq_ok hex).mp is
    exact within
  · intro within
    exact ⟨_, (encodedLen_eq_ok hex).mpr ⟨rfl, within⟩, rfl⟩

section Plain

theorem hexDigit_mem : ∀ d < 16, hexDigit d ∈ hexDigits := by decide

theorem isHex_toHex (width n : Nat) : IsHex width (String.ofList (toHex width n)) := by
  rw [IsHex, String.toList_ofList, length_toHex]
  refine ⟨rfl, ?_⟩
  induction width generalizing n with
  | zero => exact fun c inside => absurd inside List.not_mem_nil
  | succ width ih =>
    intro c inside
    rw [toHex, List.mem_append, List.mem_singleton] at inside
    obtain earlier | rfl := inside
    · exact ih (n / 16) c earlier
    · exact hexDigit_mem (n % 16) (Nat.mod_lt n (by decide))

def plainHex : HexForms plainLibrary where
  sigToHex sig := String.ofList (toHex 128 sig)
  id_hex := isHex_toHex 64
  key_hex := isHex_toHex 64
  sig_hex := isHex_toHex 128

/-- An event whose texts need every kind of escape. -/
def escapedEvent : Event :=
  ⟨1, 2, 123456, contactList, [["x", "\"", "\\", "\n", "\x02", "π"]],
    "quote=\" slash=\\ line=\n control=\x01 unicode=π", 3⟩

theorem escapedEvent_encoded : encodedLen escapedEvent = .ok 423 ∧
    valueCount escapedEvent.tags ≤ maxTagValues := by
  have size : (asJson plainHex escapedEvent).utf8ByteSize = 423 := by decide +kernel
  obtain ⟨encoded, -, few⟩ := encodedLen_exact plainHex escapedEvent
  exact ⟨(encoded 423).mpr ⟨size, by decide⟩, few (by rw [size]; decide)⟩

end Plain

end Fava.Edits.Nip02
