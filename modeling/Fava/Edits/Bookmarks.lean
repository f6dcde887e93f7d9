import Fava.Write.Event
import Mathlib.Data.String.Basic

namespace Fava.Edits.Bookmarks

open Fava.Nostr Fava.Write

def bookmarkKind : Kind := 10003

def codecRefusal (reason : String) : WriteIntentError := .encoding reason

def invalidCoordinate : WriteIntentError :=
  .invalidEvent "bookmark target requires a valid replaceable coordinate"

inductive Operation
  | add
  | remove
deriving DecidableEq

inductive Target
  | event (id : EventId)
  | coordinate (coordinate : EventCoordinate)

structure Change where
  operation : Operation
  target : Target

variable (N : Library)

section Codec

def validateTargetCoordinate : EventCoordinate → Except WriteIntentError Unit
  | .event _ => .error invalidCoordinate
  | .replaceable _ kind identifier =>
    let valid := match identifier with
      | none => N.isReplaceable kind
      | some _ => N.isAddressable kind
    if valid then .ok () else .error invalidCoordinate

def decodeIdentifier (bytes : List UInt8) : Except WriteIntentError String :=
  match fromUtf8 bytes with
  | none => .error (codecRefusal "bookmark coordinate identifier is not UTF-8")
  | some identifier => .ok identifier

/-- Two bytes of kind, the identifier's presence, the author and the identifier with
its length; an absent identifier may still carry text. -/
def decodeCoordinate (bytes : List UInt8) : Except WriteIntentError EventCoordinate :=
  if bytes.length < 39 then .error (codecRefusal "malformed bookmark coordinate")
  else do
    let kind := ofBigEndian (bytes.take 2)
    let flag := bytes.getD 2 0
    if flag ≠ 0 ∧ flag ≠ 1 then
      .error (codecRefusal "invalid bookmark coordinate identifier flag")
    else
      match N.keyFromSlice ((bytes.take 35).drop 3) with
      | none => .error (codecRefusal "invalid bookmark coordinate author")
      | some author =>
        if bytes.length ≠ 39 + ofBigEndian ((bytes.take 39).drop 35) then
          .error (codecRefusal "invalid bookmark coordinate identifier length")
        else
          let identifier ← decodeIdentifier (bytes.drop 39)
          let coordinate := .replaceable author kind (if flag = 1 then some identifier else none)
          validateTargetCoordinate N coordinate
          pure coordinate

def decodeTarget (bytes : List UInt8) : Except WriteIntentError Target :=
  let tag := bytes.getD 1 0
  if tag = 1 ∧ bytes.length = 34 then
    match N.idFromSlice (bytes.drop 2) with
    | none => .error (codecRefusal "invalid bookmark event id")
    | some id => .ok (.event id)
  else if tag = 2 then do
    let coordinate ← decodeCoordinate N (bytes.drop 2)
    pure (.coordinate coordinate)
  else if tag = 1 then .error (codecRefusal "malformed bookmark event target")
  else .error (codecRefusal "unknown bookmark target kind")

def decode (bytes : List UInt8) : Except WriteIntentError Change :=
  if bytes.length < 2 then .error (codecRefusal "malformed bookmark edit")
  else do
    let operation ←
      if bytes.headD 0 = 1 then .ok .add
      else if bytes.headD 0 = 2 then .ok .remove
      else .error (codecRefusal "unknown bookmark edit operation")
    let target ← decodeTarget N bytes
    pure ⟨operation, target⟩

def validateEditCoordinate (edit : EventEdit) : Except WriteIntentError Unit :=
  if edit.kind = bookmarkKind ∧ edit.identifier = none then .ok ()
  else .error (.invalidEvent "bookmark edit requires a non-addressable kind-10003 coordinate")

def decodeEdit (edit : EventEdit) : Except WriteIntentError Change := do
  validateEditCoordinate edit
  decode N edit.change

end Codec

def coordinateText : EventCoordinate → String
  | .event _ => ""
  | .replaceable author kind identifier =>
    toString kind ++ ":" ++ N.keyToHex author ++ ":" ++ identifier.getD ""

def tagTargets (tag : Tag) : Target → Bool
  | .event id => tag.head? = some "e" && (tag[1]?.bind N.idFromHex) = some id
  | .coordinate coordinate =>
    tag.head? = some "a" && tag[1]? = some (coordinateText N coordinate)

def targetTag : Target → Except WriteIntentError Tag
  | .event id => .ok ["e", N.idToHex id]
  | .coordinate coordinate =>
    match parseTag ["a", coordinateText N coordinate] with
    | none => .error (codecRefusal "empty tag")
    | some tag => .ok tag

/-- The longer of two tags, or the smaller of two of one length. -/
def canonicalTag (left right : Tag) : Tag :=
  if left.length > right.length then left
  else if left.length = right.length ∧ (compare left right).isLE then left
  else right

/-- The tag a bookmarked target keeps: the canonical one of all that name it. -/
def retainedTag (source : List Tag) (target : Target) : Option Tag :=
  (source.filter (tagTargets N · target)).foldl (fun retained tag =>
    some (match retained with
      | none => tag
      | some current => canonicalTag current tag)) none

def apply (source : List Tag) (change : Change) : Except WriteIntentError (List Tag) :=
  let retained := retainedTag N source change.target
  let (found, tags) := source.foldl (fun (found, tags) tag =>
    if tagTargets N tag change.target then
      if change.operation = .add ∧ found = false then (true, tags ++ retained.toList)
      else (found, tags)
    else (found, tags ++ [tag])) (false, [])
  if change.operation = .add ∧ found = false then do
    let tag ← targetTag N change.target
    pure (tags ++ [tag])
  else .ok tags

def qualifiedSource (author : PublicKey) (source : Option EventValue) (createdAt : Timestamp) :
    Except WriteIntentError (String × List Tag) :=
  match source with
  | none => .ok ("", [])
  | some source =>
    if source.author ≠ author ∨ source.kind ≠ bookmarkKind then
      .error (.invalidEvent "bookmark source author or kind does not match accepted write")
    else if createdAt ≤ source.createdAt then
      .error (.invalidEvent "bookmark revision timestamp must succeed its source")
    else .ok (source.content, source.tags)

/-- The source is verified here only after the event has been built. -/
def verifySource : Option EventValue → Except WriteIntentError Unit
  | none => .ok ()
  | some source => source.verify N

def applier : EditApplier where
  kind := bookmarkKind
  supports edit := (decodeEdit N edit).isOk
  apply edit author source createdAt := do
    let change ← decodeEdit N edit
    let (content, sourceTags) ← qualifiedSource author source createdAt
    let tags ← apply N sourceTags change
    let event ← buildEvent N author bookmarkKind createdAt tags content
    verifySource N source
    (N.verifyId event).mapError .invalidEvent
    pure event

section Rebases

open Fava.Lib

/-- The tag transformation of one edit. -/
def transform (edit : EventEdit) (tags : List Tag) : Except WriteIntentError (List Tag) := do
  let change ← decodeEdit N edit
  apply N tags change

variable {N}

theorem targetTag_ok (target : Target) : ∃ tag, targetTag N target = .ok tag := by
  cases target with
  | event id => exact ⟨_, rfl⟩
  | coordinate coordinate => exact ⟨["a", coordinateText N coordinate], rfl⟩

theorem apply_ok (tags : List Tag) (change : Change) : ∃ tags', apply N tags change = .ok tags' := by
  unfold apply
  dsimp only
  split
  · obtain ⟨tag, built⟩ := targetTag_ok (N := N) change.target
    rw [built]
    exact ⟨_, rfl⟩
  · exact ⟨_, rfl⟩

theorem qualifiedSource_eq_ok {author : PublicKey} {source : Option EventValue}
    {createdAt : Timestamp}
    (qualified : ∀ s, source = some s → s.author = author ∧ s.kind = bookmarkKind ∧
      s.createdAt < createdAt) :
    qualifiedSource author source createdAt = .ok (sourceContent source, sourceTags source) := by
  cases source with
  | none => rfl
  | some s =>
    obtain ⟨mine, kind, earlier⟩ := qualified s rfl
    unfold qualifiedSource
    simp only [mine, kind, ne_eq, not_true_eq_false, or_self, Nat.not_le.mpr earlier, if_false]
    rfl

theorem rebases : Rebases N (applier N) (transform N) fun _ => True where
  list := .inr (show 10000 ≤ bookmarkKind ∧ bookmarkKind < 20000 by decide)
  coordinate edit supported := by
    obtain ⟨change, decoded⟩ := isOk_iff.mp supported
    obtain ⟨_, valid, -⟩ := bind_eq_ok.mp decoded
    unfold validateEditCoordinate at valid
    split at valid
    · assumption
    · cases valid
  total edit tags supported := by
    obtain ⟨change, decoded⟩ := isOk_iff.mp supported
    obtain ⟨tags', applied⟩ := apply_ok (N := N) tags change
    exact ⟨tags', bind_eq_ok.mpr ⟨change, decoded, applied⟩⟩
  refuses edit author source createdAt event late h := by
    obtain ⟨change, -, h⟩ := bind_eq_ok.mp h
    obtain ⟨⟨content, tags⟩, qualified, -⟩ := bind_eq_ok.mp h
    unfold qualifiedSource at qualified
    dsimp only at qualified
    rw [if_pos late] at qualified
    split at qualified <;> cases qualified
  applies edit author source createdAt tags event supported qualified transformed built := by
    obtain ⟨change, decoded, applied⟩ := bind_eq_ok.mp transformed
    have verified : verifySource N source = .ok () := by
      cases source with
      | none => rfl
      | some s => exact (qualified s rfl).2.1
    refine bind_eq_ok.mpr ⟨change, decoded, ?_⟩
    refine bind_eq_ok.mpr ⟨_, qualifiedSource_eq_ok fun s here => (qualified s here).2.2, ?_⟩
    refine bind_eq_ok.mpr ⟨tags, applied, ?_⟩
    refine bind_eq_ok.mpr ⟨event, built, ?_⟩
    rw [verified, verifyId_of_buildEvent built]
    rfl

end Rebases

end Fava.Edits.Bookmarks
