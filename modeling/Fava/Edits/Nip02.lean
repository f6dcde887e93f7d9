import Fava.Write.Event
import Mathlib.Data.Nat.Log

namespace Fava.Edits.Nip02

open Fava.Nostr Fava.Write

def contactList : Kind := 3

def codecLen : Nat := 33

def codecRefusal (reason : String) : WriteIntentError := .encoding reason

section Bounds

def minEventWithOneTagBytes : Nat := 334

/-- The most tag values a source may carry and still encode inside the event bound. -/
def maxTagValues : Nat := (maxEventBytes - minEventWithOneTagBytes) / 3

def emptyEventObjectBytes : Nat := 71

def fixedHexBytes : Nat := 64 + 64 + 128

def add (bytes amount : Nat) : Except WriteIntentError Nat :=
  if bytes + amount > maxEventBytes then .error (.tooLarge (bytes + amount) maxEventBytes)
  else .ok (bytes + amount)

/-- The JSON length of one character: quote, backslash and the named controls take two
bytes, the other controls six. -/
def charLen (c : Char) : Nat :=
  if c.toNat ∈ [0x22, 0x5c, 0x08, 0x09, 0x0a, 0x0c, 0x0d] then 2
  else if c.toNat ≤ 0x1f then 6
  else c.utf8Size

def addJsonString (bytes : Nat) (value : String) : Except WriteIntentError Nat := do
  let bytes ← add bytes 2
  value.toList.foldlM (fun bytes c => add bytes (charLen c)) bytes

def decimalLen (value : Nat) : Nat := if value = 0 then 1 else Nat.log 10 value + 1

/-- The value count is checked before the value is measured. -/
def addValue (measured : Nat × Nat) (value : String × Nat) : Except WriteIntentError (Nat × Nat) := do
  let (bytes, count) := measured
  if count + 1 > maxTagValues then .error (.tooLarge (count + 1) maxTagValues)
  let bytes ← if value.2 > 0 then add bytes 1 else pure bytes
  let bytes ← addJsonString bytes value.1
  pure (bytes, count + 1)

def addTag (measured : Nat × Nat) (tag : Tag × Nat) : Except WriteIntentError (Nat × Nat) := do
  let (bytes, count) := measured
  let bytes ← if tag.2 > 0 then add bytes 1 else pure bytes
  let bytes ← add bytes 2
  tag.1.zipIdx.foldlM addValue (bytes, count)

def encodedLenParts (createdAt : Timestamp) (kind : Kind) (tags : List Tag) (content : String) :
    Except WriteIntentError Nat := do
  let bytes ← add emptyEventObjectBytes fixedHexBytes
  let bytes ← add bytes (decimalLen createdAt)
  let bytes ← add bytes (decimalLen kind)
  let bytes ← add bytes 2
  let (bytes, _) ← tags.zipIdx.foldlM addTag (bytes, 0)
  addJsonString bytes content

/-- Refuse a prior event that would not encode again inside the size bounds. -/
def validateValueSource (source : EventValue) : Except WriteIntentError Unit := do
  let _ ← encodedLenParts source.createdAt source.kind source.tags source.content
  pure ()

end Bounds

inductive Operation
  | add
  | addWithMetadata (relay : Option RelayUrl) (petname : Option String)
  | remove

def Operation.isRemove : Operation → Bool
  | .remove => true
  | .add | .addWithMetadata _ _ => false

structure Change where
  operation : Operation
  target : PublicKey

section Codec

variable (N : Library)

def takeLengthPrefixed (bytes : List UInt8) : Except WriteIntentError (List UInt8 × List UInt8) :=
  if bytes.length < 4 then .error (codecRefusal "truncated NIP-02 metadata length")
  else
    let length := ofBigEndian (bytes.take 4)
    if bytes.length < 4 + length then .error (codecRefusal "truncated NIP-02 metadata value")
    else .ok ((bytes.drop 4).take length, bytes.drop (4 + length))

def decodeRelay (text : String) : Except WriteIntentError (Option RelayUrl) :=
  if text = "" then .ok none
  else
    match N.parseRelay text with
    | none => .error (codecRefusal "invalid NIP-02 relay hint")
    | some relay => .ok (some relay)

def decodePetname : List UInt8 → Except WriteIntentError (Option String)
  | [] => .error (codecRefusal "malformed NIP-02 metadata edit")
  | presence :: remaining =>
    if presence = 0 ∧ remaining = [] then .ok none
    else if presence = 1 then do
      let (petname, trailing) ← takeLengthPrefixed remaining
      if trailing ≠ [] then .error (codecRefusal "trailing NIP-02 metadata edit bytes")
      match fromUtf8 petname with
      | none => .error (codecRefusal "invalid NIP-02 petname encoding")
      | some petname => .ok (some petname)
    else .error (codecRefusal "invalid NIP-02 petname presence")

/-- Read back the relay hint and petname of a follow. -/
def decodeMetadata (bytes : List UInt8) : Except WriteIntentError Operation := do
  let (relayBytes, remaining) ← takeLengthPrefixed bytes
  match fromUtf8 relayBytes with
  | none => .error (codecRefusal "invalid NIP-02 relay encoding")
  | some text =>
    let relay ← decodeRelay N text
    let petname ← decodePetname remaining
    pure (.addWithMetadata relay petname)

def decodeOperation (code : UInt8) (bytes : List UInt8) : Except WriteIntentError Operation :=
  if code = 1 ∧ bytes.length = codecLen then .ok .add
  else if code = 2 ∧ bytes.length = codecLen then .ok .remove
  else if code = 3 then decodeMetadata N (bytes.drop codecLen)
  else .error (codecRefusal "unknown NIP-02 edit operation")

def decode (bytes : List UInt8) : Except WriteIntentError Change :=
  if bytes.length < codecLen then .error (codecRefusal "malformed NIP-02 edit")
  else
    match N.keyFromSlice ((bytes.take codecLen).drop 1) with
    | none => .error (codecRefusal "invalid NIP-02 target public key")
    | some target => do
      let operation ← decodeOperation N (bytes.headD 0) bytes
      pure ⟨operation, target⟩

def validateCoordinate (edit : EventEdit) : Except WriteIntentError Unit :=
  if edit.kind = contactList ∧ edit.identifier = none then .ok ()
  else .error (.invalidEvent "NIP-02 edit requires a non-addressable kind-3 coordinate")

def decodeEdit (edit : EventEdit) : Except WriteIntentError Change := do
  validateCoordinate edit
  decode N edit.change

end Codec

variable (N : Library)

def tagTargets (tag : Tag) (target : PublicKey) : Bool :=
  tag.head? = some "p" && (tag[1]?.bind N.keyFromHex) = some target

def canonicalRow (change : Change) : Except WriteIntentError Tag :=
  let row := ["p", N.keyToHex change.target]
  let values := match change.operation with
    | .addWithMetadata relay petname =>
      (if relay.isSome || petname.isSome then row ++ [relay.getD ""] else row) ++ petname.toList
    | .add | .remove => row
  match parseTag values with
  | none => .error (codecRefusal "invalid NIP-02 contact row")
  | some tag => .ok tag

/-- A follow keeps the first row of its target, or adds one; no other row of the
target stays. -/
def apply (source : List Tag) (change : Change) : Except WriteIntentError (List Tag) :=
  let (found, tags) := source.foldl (fun (found, tags) tag =>
    if tagTargets N tag change.target then
      if !change.operation.isRemove && !found then (true, tags ++ [tag]) else (found, tags)
    else (found, tags ++ [tag])) (false, [])
  if !change.operation.isRemove && !found then do
    let row ← canonicalRow N change
    pure (tags ++ [row])
  else .ok tags

def qualifiedSource (author : PublicKey) (source : Option EventValue) (createdAt : Timestamp) :
    Except WriteIntentError (String × List Tag) :=
  match source with
  | none => .ok ("", [])
  | some source => do
    validateValueSource source
    source.verify N
    if source.author ≠ author ∨ source.kind ≠ contactList then
      .error (.invalidEvent "NIP-02 source author or kind does not match accepted write")
    else if createdAt ≤ source.createdAt then
      .error (.invalidEvent "NIP-02 revision timestamp must succeed its source")
    else .ok (source.content, source.tags)

def applier : EditApplier where
  kind := contactList
  supports edit := (decodeEdit N edit).isOk
  apply edit author source createdAt := do
    let change ← decodeEdit N edit
    let (content, sourceTags) ← qualifiedSource N author source createdAt
    let tags ← apply N sourceTags change
    let event ← buildEvent N author contactList createdAt tags content
    (N.verifyId event).mapError .invalidEvent
    pure event

section Rebases

open Fava.Lib

/-- The tag transformation of one edit. -/
def transform (edit : EventEdit) (tags : List Tag) : Except WriteIntentError (List Tag) := do
  let change ← decodeEdit N edit
  apply N tags change

variable {N}

theorem canonicalRow_ok (change : Change) : ∃ row, canonicalRow N change = .ok row := by
  unfold canonicalRow
  dsimp only
  split
  · rename_i refused
    split at refused
    · split at refused <;> simp [parseTag] at refused
    all_goals simp [parseTag] at refused
  · exact ⟨_, rfl⟩

theorem apply_ok (tags : List Tag) (change : Change) : ∃ tags', apply N tags change = .ok tags' := by
  unfold apply
  split
  split
  · obtain ⟨row, built⟩ := canonicalRow_ok (N := N) change
    rw [built]
    exact ⟨_, rfl⟩
  · exact ⟨_, rfl⟩

theorem qualifiedSource_eq_ok {author : PublicKey} {source : Option EventValue}
    {createdAt : Timestamp}
    (qualified : ∀ s, source = some s → validateValueSource s = .ok () ∧ s.verify N = .ok () ∧
      s.author = author ∧ s.kind = contactList ∧ s.createdAt < createdAt) :
    qualifiedSource N author source createdAt = .ok (sourceContent source, sourceTags source) := by
  cases source with
  | none => rfl
  | some s =>
    obtain ⟨fits, verified, mine, kind, earlier⟩ := qualified s rfl
    unfold qualifiedSource
    dsimp only
    rw [fits, verified]
    simp only [mine, kind, ne_eq, not_true_eq_false, or_self, Nat.not_le.mpr earlier, if_false]
    rfl

theorem rebases : Rebases N (applier N) (transform N) (validateValueSource · = .ok ()) where
  list := .inl rfl
  coordinate edit supported := by
    obtain ⟨change, decoded⟩ := isOk_iff.mp supported
    obtain ⟨_, valid, -⟩ := bind_eq_ok.mp decoded
    unfold validateCoordinate at valid
    split at valid
    · assumption
    · cases valid
  total edit tags supported := by
    obtain ⟨change, decoded⟩ := isOk_iff.mp supported
    obtain ⟨tags', applied⟩ := apply_ok (N := N) tags change
    exact ⟨tags', bind_eq_ok.mpr ⟨change, decoded, applied⟩⟩
  refuses edit author source createdAt event late h := by
    obtain ⟨change, -, h⟩ := bind_eq_ok.mp h
    obtain ⟨⟨content, tags⟩, qualified, -⟩ := bind_eq_ok.mp h
    obtain ⟨_, -, h⟩ := bind_eq_ok.mp qualified
    obtain ⟨_, -, h⟩ := bind_eq_ok.mp h
    rw [if_pos late] at h
    split at h <;> cases h
  applies edit author source createdAt tags event supported qualified transformed built := by
    obtain ⟨change, decoded, applied⟩ := bind_eq_ok.mp transformed
    refine bind_eq_ok.mpr ⟨change, decoded, ?_⟩
    refine bind_eq_ok.mpr ⟨_, qualifiedSource_eq_ok qualified, ?_⟩
    refine bind_eq_ok.mpr ⟨tags, applied, ?_⟩
    refine bind_eq_ok.mpr ⟨event, built, ?_⟩
    rw [verifyId_of_buildEvent built]
    rfl

end Rebases

end Fava.Edits.Nip02
