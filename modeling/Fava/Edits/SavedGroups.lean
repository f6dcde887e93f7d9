import Fava.Write.Event
import Fava.Lib.BTree

namespace Fava.Edits.SavedGroups

open Fava.Nostr Fava.Write Fava.Lib

def savedKind : Kind := 10009

def codecRefusal (reason : String) : WriteIntentError := .encoding reason

inductive Operation
  | saveSimpleGroup
  | removeSimpleGroup
  | renameSimpleGroup
  | saveRelay
  | removeRelay
deriving DecidableEq

/-- One changeset: the operation with the group, relays and name it carries. -/
structure Change where
  operation : Operation
  id : String
  relays : List RelayUrl
  displayName : Option String

variable (N : Library)

section Codec

/-- A reader of the front of the remaining bytes. -/
abbrev Take (α : Type) := List UInt8 → Except WriteIntentError (α × List UInt8)

def takeByte : Take UInt8
  | [] => .error (codecRefusal "truncated saved-list edit")
  | value :: remaining => .ok (value, remaining)

def takeText : Take String := fun input =>
  if input.length < 4 then .error (codecRefusal "truncated saved-list text length")
  else
    let length := ofBigEndian (input.take 4)
    if input.length < 4 + length then .error (codecRefusal "truncated saved-list text")
    else
      match fromUtf8 ((input.drop 4).take length) with
      | none => .error (codecRefusal "saved-list text is not UTF-8")
      | some text => .ok (text, input.drop (4 + length))

def takeOptionalText : Take (Option String) := fun input => do
  let (flag, input) ← takeByte input
  if flag = 0 then pure (none, input)
  else if flag = 1 then
    let (text, input) ← takeText input
    pure (some text, input)
  else .error (codecRefusal "invalid saved-list optional text flag")

def takeRelay : Take RelayUrl := fun input => do
  let (text, input) ← takeText input
  match N.parseRelay text with
  | none => .error (codecRefusal "invalid saved-list relay")
  | some relay => pure (relay, input)

/-- Read `count` relays, none of them twice. -/
def takeRelays : Nat → List RelayUrl → Take (List RelayUrl)
  | 0, seen, input => .ok (seen, input)
  | count + 1, seen, input => do
    let (relay, input) ← takeRelay N input
    if relay ∈ seen then .error (codecRefusal "duplicate saved-list simple-group relay")
    else takeRelays count (seen ++ [relay]) input

def takeSimpleGroup : Take (String × List RelayUrl) := fun input => do
  let (id, input) ← takeText input
  if input.length < 2 then .error (codecRefusal "truncated saved-list relay count")
  else
    let count := ofBigEndian (input.take 2)
    if count = 0 then .error (codecRefusal "invalid saved-list relay count")
    else
      let (relays, input) ← takeRelays N count [] (input.drop 2)
      pure ((id, relays), input)

def takeChange : Take Change := fun input => do
  let (operation, input) ← takeByte input
  if operation = 1 then
    let ((id, relays), input) ← takeSimpleGroup N input
    let (name, input) ← takeOptionalText input
    pure (⟨.saveSimpleGroup, id, relays, name⟩, input)
  else if operation = 2 then
    let ((id, relays), input) ← takeSimpleGroup N input
    pure (⟨.removeSimpleGroup, id, relays, none⟩, input)
  else if operation = 3 then
    let ((id, relays), input) ← takeSimpleGroup N input
    let (name, input) ← takeText input
    pure (⟨.renameSimpleGroup, id, relays, some name⟩, input)
  else if operation = 4 ∨ operation = 5 then
    let (relay, input) ← takeRelay N input
    pure (⟨if operation = 4 then .saveRelay else .removeRelay, "", [relay], none⟩, input)
  else .error (codecRefusal "unknown saved-list edit operation")

def decodeEdit (edit : EventEdit) : Except WriteIntentError Change :=
  if edit.kind ≠ savedKind ∨ edit.identifier ≠ none then
    .error (codecRefusal "saved-list edit requires a non-addressable kind-10009 coordinate")
  else do
    let (change, input) ← takeChange N edit.change
    if input = [] then pure change
    else .error (codecRefusal "trailing saved-list edit bytes")

end Codec

/-- The relay of a well-formed `group` tag of this id. -/
def simpleGroupTarget (tag : Tag) (id : String) : Option RelayUrl :=
  if tag.length ≥ 3 ∧ tag.head? = some "group" ∧ tag[1]? = some id then tag[2]?.bind N.parseRelay
  else none

def relayTarget (tag : Tag) : Option RelayUrl :=
  if tag.length ≥ 2 ∧ tag.head? = some "r" then tag[1]?.bind N.parseRelay else none

def parse (values : List String) : Except WriteIntentError Tag :=
  match parseTag values with
  | none => .error (codecRefusal "empty tag")
  | some tag => .ok tag

/-- The tag with its display name set. -/
def renamedTag (tag : Tag) (name : String) : Except WriteIntentError Tag :=
  parse (if tag.length = 3 then tag ++ [name] else tag.set 3 name)

def simpleGroupTag (id : String) (host : RelayUrl) (name : Option String) :
    Except WriteIntentError Tag :=
  parse (["group", id, host] ++ name.toList)

def missingName : WriteIntentError := codecRefusal "missing saved-list display name"

/-- What one existing entry of a selected relay becomes. -/
def revisedEntry (change : Change) (tag : Tag) : Except WriteIntentError (List Tag) :=
  match change.operation with
  | .saveSimpleGroup => .ok [tag]
  | .removeSimpleGroup => .ok []
  | .renameSimpleGroup => do
    let name ← change.displayName.elim (.error missingName) .ok
    let renamed ← renamedTag tag name
    pure [renamed]
  | .saveRelay | .removeRelay => .error (codecRefusal "invalid saved-list simple-group operation")

/-- One entry of the prior list: at most one per selected relay stays. -/
def applyEntry (change : Change) (state : List RelayUrl × List Tag) (tag : Tag) :
    Except WriteIntentError (List RelayUrl × List Tag) :=
  let (found, tags) := state
  match (simpleGroupTarget N tag change.id).filter (· ∈ change.relays) with
  | none => .ok (found, tags ++ [tag])
  | some relay =>
    if relay ∈ found then .ok (found, tags)
    else do
      let kept ← revisedEntry change tag
      pure (relay :: found, tags ++ kept)

/-- Add an entry for every relay that had none. -/
def appendMissing (id : String) (name : Option String) (relays : List RelayUrl)
    (state : List RelayUrl × List Tag) : Except WriteIntentError (List Tag) := do
  let (_, tags) ← relays.foldlM (fun (state : List RelayUrl × List Tag) relay =>
    if relay ∈ state.1 then Except.ok state
    else do
      let tag ← simpleGroupTag id relay name
      pure (relay :: state.1, state.2 ++ [tag])) state
  pure tags

def applySimpleGroup (source : List Tag) (change : Change) : Except WriteIntentError (List Tag) := do
  let state ← source.foldlM (applyEntry N change) ([], [])
  match change.operation with
  | .saveSimpleGroup => appendMissing change.id change.displayName change.relays state
  | .renameSimpleGroup =>
    let name ← change.displayName.elim (.error missingName) .ok
    appendMissing change.id (some name) change.relays state
  | .removeSimpleGroup => pure state.2
  | .saveRelay | .removeRelay => .error (codecRefusal "invalid saved-list simple-group operation")

def applyRelay (source : List Tag) (relay : RelayUrl) (save : Bool) :
    Except WriteIntentError (List Tag) :=
  let (found, tags) := source.foldl (fun (found, tags) tag =>
    if relayTarget N tag = some relay then
      if save && !found then (true, tags ++ [tag]) else (found, tags)
    else (found, tags ++ [tag])) (false, [])
  if save && !found then do
    let tag ← parse ["r", relay]
    pure (tags ++ [tag])
  else .ok tags

def apply (source : List Tag) (change : Change) : Except WriteIntentError (List Tag) :=
  match change.operation with
  | .saveSimpleGroup | .removeSimpleGroup | .renameSimpleGroup => applySimpleGroup N source change
  | .saveRelay | .removeRelay =>
    match change.relays.head? with
    | none => .error (codecRefusal "missing saved-list relay")
    | some relay => applyRelay N source relay (change.operation = .saveRelay)

def qualifiedSource (author : PublicKey) (source : Option EventValue) (createdAt : Timestamp) :
    Except WriteIntentError (String × List Tag) :=
  match source with
  | none => .ok ("", [])
  | some source => do
    source.verify N
    if source.author ≠ author ∨ source.kind ≠ savedKind then
      .error (.invalidEvent "saved-list source author or kind does not match accepted write")
    else if createdAt ≤ source.createdAt then
      .error (.invalidEvent "saved-list revision timestamp must succeed its source")
    else .ok (source.content, source.tags)

def applier : EditApplier where
  kind := savedKind
  supports edit := (decodeEdit N edit).isOk
  apply edit author source createdAt := do
    let change ← decodeEdit N edit
    let (content, sourceTags) ← qualifiedSource N author source createdAt
    let tags ← apply N sourceTags change
    let event ← buildEvent N author savedKind createdAt tags content
    (N.verifyId event).mapError .invalidEvent
    pure event

section Rebases

/-- The tag transformation of one edit. -/
def transform (edit : EventEdit) (tags : List Tag) : Except WriteIntentError (List Tag) := do
  let change ← decodeEdit N edit
  apply N tags change

variable {N} {change : Change}

/-- A changeset that was decoded carries what its operation needs. -/
structure Change.Complete (change : Change) : Prop where
  named : change.operation = .renameSimpleGroup → ∃ name, change.displayName = some name
  relayed : change.operation = .saveRelay ∨ change.operation = .removeRelay →
    ∃ relay, change.relays.head? = some relay

theorem takeChange_complete {input rest : List UInt8} (h : takeChange N input = .ok (change, rest)) :
    change.Complete := by
  obtain ⟨⟨operation, input⟩, -, h⟩ := bind_eq_ok.mp h
  dsimp only at h
  split at h
  · obtain ⟨⟨⟨id, relays⟩, input⟩, -, h⟩ := bind_eq_ok.mp h
    obtain ⟨⟨name, input⟩, -, h⟩ := bind_eq_ok.mp h
    cases h
    exact ⟨fun renames => (by cases renames), fun relays => (by simp at relays)⟩
  · split at h
    · obtain ⟨⟨⟨id, relays⟩, input⟩, -, h⟩ := bind_eq_ok.mp h
      cases h
      exact ⟨fun renames => (by cases renames), fun relays => (by simp at relays)⟩
    · split at h
      · obtain ⟨⟨⟨id, relays⟩, input⟩, -, h⟩ := bind_eq_ok.mp h
        obtain ⟨⟨name, input⟩, -, h⟩ := bind_eq_ok.mp h
        cases h
        exact ⟨fun _ => ⟨name, rfl⟩, fun relays => (by simp at relays)⟩
      · split at h
        · obtain ⟨⟨relay, input⟩, -, h⟩ := bind_eq_ok.mp h
          cases h
          refine ⟨fun h => ?_, fun _ => ⟨relay, rfl⟩⟩
          dsimp only at h
          split at h <;> cases h
        · cases h

theorem decodeEdit_eq_ok {edit : EventEdit} (h : decodeEdit N edit = .ok change) :
    edit.kind = savedKind ∧ edit.identifier = none ∧ change.Complete := by
  unfold decodeEdit at h
  split at h
  · cases h
  · rename_i coordinate
    rw [not_or, not_not, not_not] at coordinate
    obtain ⟨⟨decoded, input⟩, taken, h⟩ := bind_eq_ok.mp h
    dsimp only at h
    split at h
    · cases h
      exact ⟨coordinate.1, coordinate.2, takeChange_complete taken⟩
    · cases h

theorem parse_ok {values : List String} (filled : values ≠ []) : parse values = .ok values := by
  unfold parse parseTag
  rw [if_neg filled]

theorem renamedTag_ok {tag : Tag} (filled : tag ≠ []) (name : String) :
    ∃ renamed, renamedTag tag name = .ok renamed := by
  refine ⟨_, parse_ok ?_⟩
  split
  · simp
  · simpa using filled

theorem applyEntry_ok (complete : change.Complete)
    (group : change.operation ≠ .saveRelay ∧ change.operation ≠ .removeRelay)
    (state : List RelayUrl × List Tag) (tag : Tag) :
    ∃ state', applyEntry N change state tag = .ok state' := by
  obtain ⟨found, tags⟩ := state
  unfold applyEntry
  dsimp only
  split
  · exact ⟨_, rfl⟩
  · rename_i relay targets
    have filled : tag ≠ [] := by
      rintro rfl
      simp [simpleGroupTarget] at targets
    split
    · exact ⟨_, rfl⟩
    · unfold revisedEntry
      split
      · exact ⟨_, rfl⟩
      · exact ⟨_, rfl⟩
      · rename_i renames
        obtain ⟨name, named⟩ := complete.named renames
        obtain ⟨renamed, built⟩ := renamedTag_ok filled name
        rw [named]
        refine ⟨_, bind_eq_ok.mpr ⟨[renamed], ?_, rfl⟩⟩
        exact bind_eq_ok.mpr ⟨name, rfl, bind_eq_ok.mpr ⟨renamed, built, rfl⟩⟩
      · rename_i saves
        exact (group.1 saves).elim
      · rename_i removes
        exact (group.2 removes).elim

theorem appendMissing_ok (id : String) (name : Option String) (relays : List RelayUrl)
    (state : List RelayUrl × List Tag) : ∃ tags, appendMissing id name relays state = .ok tags := by
  have total := foldlM_total (f := fun (state : List RelayUrl × List Tag) relay =>
    if relay ∈ state.1 then Except.ok (ε := WriteIntentError) state
    else do
      let tag ← simpleGroupTag id relay name
      pure (relay :: state.1, state.2 ++ [tag])) (l := relays) (fun state relay _ => ?_) state
  · obtain ⟨⟨found, tags⟩, folded⟩ := total
    exact ⟨tags, bind_eq_ok.mpr ⟨_, folded, rfl⟩⟩
  · split
    · exact ⟨_, rfl⟩
    · rw [simpleGroupTag, parse_ok (by simp)]
      exact ⟨_, rfl⟩

theorem applySimpleGroup_ok (complete : change.Complete)
    (group : change.operation ≠ .saveRelay ∧ change.operation ≠ .removeRelay) (tags : List Tag) :
    ∃ tags', applySimpleGroup N tags change = .ok tags' := by
  obtain ⟨state, folded⟩ := foldlM_total (f := applyEntry N change) (l := tags)
    (fun state tag _ => applyEntry_ok complete group state tag) ([], [])
  unfold applySimpleGroup
  rw [folded]
  simp only [bind, Except.bind]
  split
  · exact appendMissing_ok _ _ _ _
  · rename_i renames
    obtain ⟨name, named⟩ := complete.named renames
    rw [named]
    exact appendMissing_ok _ _ _ _
  · exact ⟨_, rfl⟩
  · rename_i saves
    exact (group.1 saves).elim
  · rename_i removes
    exact (group.2 removes).elim

theorem applyRelay_ok (tags : List Tag) (relay : RelayUrl) (save : Bool) :
    ∃ tags', applyRelay N tags relay save = .ok tags' := by
  unfold applyRelay
  split
  split
  · rw [parse_ok (by simp)]
    exact ⟨_, rfl⟩
  · exact ⟨_, rfl⟩

theorem apply_ok (complete : change.Complete) (tags : List Tag) :
    ∃ tags', apply N tags change = .ok tags' := by
  unfold apply
  split
  · rename_i saves
    exact applySimpleGroup_ok complete (by simp [saves]) tags
  · rename_i removes
    exact applySimpleGroup_ok complete (by simp [removes]) tags
  · rename_i renames
    exact applySimpleGroup_ok complete (by simp [renames]) tags
  · rename_i saves
    obtain ⟨relay, first⟩ := complete.relayed (.inl saves)
    rw [first]
    exact applyRelay_ok tags relay _
  · rename_i removes
    obtain ⟨relay, first⟩ := complete.relayed (.inr removes)
    rw [first]
    exact applyRelay_ok tags relay _

theorem qualifiedSource_eq_ok {author : PublicKey} {source : Option EventValue}
    {createdAt : Timestamp}
    (qualified : ∀ s, source = some s → s.verify N = .ok () ∧ s.author = author ∧
      s.kind = savedKind ∧ s.createdAt < createdAt) :
    qualifiedSource N author source createdAt = .ok (sourceContent source, sourceTags source) := by
  cases source with
  | none => rfl
  | some s =>
    obtain ⟨verified, mine, kind, earlier⟩ := qualified s rfl
    unfold qualifiedSource
    dsimp only
    rw [verified]
    simp only [mine, kind, ne_eq, not_true_eq_false, or_self, Nat.not_le.mpr earlier, if_false]
    rfl

theorem rebases : Rebases N (applier N) (transform N) fun _ => True where
  list := .inr (show 10000 ≤ savedKind ∧ savedKind < 20000 by decide)
  coordinate edit supported := by
    obtain ⟨change, decoded⟩ := isOk_iff.mp supported
    obtain ⟨kind, identifier, -⟩ := decodeEdit_eq_ok decoded
    exact ⟨kind, identifier⟩
  total edit tags supported := by
    obtain ⟨change, decoded⟩ := isOk_iff.mp supported
    obtain ⟨tags', applied⟩ := apply_ok (N := N) (decodeEdit_eq_ok decoded).2.2 tags
    exact ⟨tags', bind_eq_ok.mpr ⟨change, decoded, applied⟩⟩
  refuses edit author source createdAt event late h := by
    obtain ⟨change, -, h⟩ := bind_eq_ok.mp h
    obtain ⟨⟨content, tags⟩, qualified, -⟩ := bind_eq_ok.mp h
    obtain ⟨_, -, h⟩ := bind_eq_ok.mp qualified
    rw [if_pos late] at h
    split at h <;> cases h
  applies edit author source createdAt tags event supported qualified transformed built := by
    obtain ⟨change, decoded, applied⟩ := bind_eq_ok.mp transformed
    refine bind_eq_ok.mpr ⟨change, decoded, ?_⟩
    refine bind_eq_ok.mpr ⟨_, qualifiedSource_eq_ok fun s here => (qualified s here).2, ?_⟩
    refine bind_eq_ok.mpr ⟨tags, applied, ?_⟩
    refine bind_eq_ok.mpr ⟨event, built, ?_⟩
    rw [verifyId_of_buildEvent built]
    rfl

end Rebases

end Fava.Edits.SavedGroups
