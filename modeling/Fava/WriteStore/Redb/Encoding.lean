import Fava.WriteStore.Redb.Schema

namespace Fava.WriteStore.Redb

open Std Fava.Lib Fava.Nostr Fava.Relay Fava.Routing Fava.Write

/-- The number is one an identity can have. -/
def IsIdentity (n : Nat) : Prop := 1 ≤ n ∧ n < counterBound

/-- Every number of a receipt fits the integer it is kept in. -/
structure Sized (receipt : Receipt) : Prop where
  writeId : IsIdentity receipt.writeId
  receiptId : IsIdentity receipt.receiptId
  publication : IsIdentity receipt.current.publication.receiptId ∧
    IsIdentity receipt.current.publication.writeId
  revision : IsIdentity receipt.current.publication.revisionId
  retired : ∀ retired ∈ receipt.current.publication.retiredRevisions, IsIdentity retired.revisionId
  route : receipt.routeRevision < counterBound
  attempts : ∀ (session : RelayUrl) n, receipt.attempts[session]? = some n → n < 2 ^ 32

/-- The edit is one that can be made. -/
def Checked (N : Library) (edit : EventEdit) : Prop :=
  EventEdit.new N edit.kind edit.identifier edit.change = .ok edit

/-- The edits of a custody can be made, and its plan has a revision. -/
structure SemanticCustody.Sound (N : Library) (custody : SemanticCustody) : Prop where
  edits : ∀ edit ∈ custody.edits, Checked N edit
  waiting : ∀ successor ∈ custody.successor, (∀ edit ∈ successor.edit, Checked N edit) ∧
    ∀ plan ∈ successor.route, plan.revision < counterBound

structure PersistedReceipt.Sound (N : Library) (row : PersistedReceipt) : Prop where
  receipt : Sized row.receipt
  semantic : ∀ custody ∈ row.semantic, custody.Sound N

/-- The plan of the generation that waits covers nothing but the whole request. -/
def PersistedReceipt.CoversWhole (row : PersistedReceipt) : Prop :=
  ∀ custody ∈ row.semantic, ∀ successor ∈ custody.successor, ∀ plan ∈ successor.route,
    ∀ target : RouteTarget, target ∈ plan.coverage → target = .wholeRequest

variable {N : Library} {W : NostrJson}

section Written

theorem writes_timestamp (time : Timestamp) : W.timestamp.Writes time :=
  (Codec.keeps_iff.mp (W.timestamp_keeps time)).1

theorem writes_kind (kind : Kind) : W.kind.Writes kind := (Codec.keeps_iff.mp (W.kind_keeps kind)).1

theorem writes_unsignedEvent (event : UnsignedEvent) : W.unsignedEvent.Writes event :=
  (Codec.keeps_iff.mp (W.unsignedEvent_keeps event)).1

theorem writes_event (event : Event) : W.event.Writes event :=
  (Codec.keeps_iff.mp (W.event_keeps event)).1

theorem writes_routeTarget (target : RouteTarget) : (routeTarget W).Writes target := by
  cases target with
  | wholeRequest => exact ⟨_, rfl⟩
  | author key | recipient key | referencedEvent key => exact Codec.tagged_ok_iff.mpr (TextForm.writes key)

theorem routeTargetKey_ok_iff {target : RouteTarget} :
    (∃ name, routeTargetKey.write target = .ok name) ↔ target = .wholeRequest := by
  constructor
  · rintro ⟨name, written⟩
    cases target with
    | wholeRequest => rfl
    | author | recipient | referencedEvent => cases written
  · rintro rfl
    exact ⟨_, rfl⟩

theorem writes_coverageState (state : CoverageState) : (coverageState W).Writes state := by
  cases state with
  | covered relays => exact Codec.tagged_ok_iff.mpr (Codec.writes_set.mpr fun relay _ => TextForm.writes relay)
  | unresolved | settledAbsent => exact ⟨_, rfl⟩

theorem writes_plannedRelay (relay : PlannedRelay) : (plannedRelay W).Writes relay := by
  simp [plannedRelay, routeReason, writes_routeTarget]

/-- A plan is written if what it covers are names. -/
theorem writes_routePlan {plan : RoutePlan} :
    (routePlan W).Writes plan ↔
      ∀ target : RouteTarget, target ∈ plan.coverage → target = .wholeRequest := by
  have key : ∀ session : RelayUrl, ∃ name, W.relayUrl.key.write session = .ok name := fun _ => ⟨_, rfl⟩
  simp only [routePlan, counter, Fields.writes_record, Fields.writes_cons, Fields.writes_nil,
    Codec.writes_number, Codec.writes_map, key, writes_plannedRelay, routeTargetKey_ok_iff,
    writes_coverageState, Codec.writes_set, writes_routeTarget, Codec.writes_list, Codec.writes_text,
    and_true, true_and, implies_true]
  constructor
  · intro whole target inside
    rw [ExtTreeMap.mem_iff_isSome_getElem?, Option.isSome_iff_exists] at inside
    obtain ⟨state, found⟩ := inside
    exact whole target state found
  · intro whole target state found
    apply whole
    rw [ExtTreeMap.mem_iff_isSome_getElem?, found]
    rfl

theorem writes_eventEdit (edit : EventEdit) : (eventEdit N W).Writes edit := by
  simp [eventEdit, encodedEdit, byte, writes_kind]

theorem writes_eventValue (value : EventValue) : (eventValue W).Writes value := by
  cases value with
  | unsigned event => exact Codec.tagged_ok_iff.mpr (writes_unsignedEvent event)
  | signed event => exact Codec.tagged_ok_iff.mpr (writes_event event)

theorem writes_signatureState (signature : SignatureState) : signatureState.Writes signature := by
  cases signature with
  | unsigned | authorized | signed => exact ⟨_, rfl⟩
  | retryable reason | refused reason => exact Codec.tagged_ok_iff.mpr (Codec.writes_text reason)

theorem writes_deliveryOutcome (outcome : RelayDeliveryOutcome) : deliveryOutcome.Writes outcome := by
  cases outcome with
  | pending | attempting | cancelledBeforeHandoff => exact ⟨_, rfl⟩
  | retryable | acknowledged | rejected | authenticationDenied | givenUp | unknown =>
    exact Codec.tagged_ok_iff.mpr (by simp [worded])

theorem writes_receiptOutcome (outcome : ReceiptOutcome) : receiptOutcome.Writes outcome := by
  cases outcome <;> exact ⟨_, rfl⟩

theorem writes_writeRouting (routing : WriteRouting) : (writeRouting W).Writes routing := by
  cases routing with
  | automatic => exact ⟨_, rfl⟩
  | explicit relays =>
    exact Codec.tagged_ok_iff.mpr (Codec.writes_list.mpr fun relay _ => TextForm.writes relay)

theorem writes_authority (access : Authority) : (authority W).Writes access := by
  cases access with
  | unauthenticated => exact ⟨_, rfl⟩
  | asAccount key => exact Codec.tagged_ok_iff.mpr (TextForm.writes key)

theorem writes_localWriteEvent (current : LocalWriteEvent) : (localWriteEvent W).Writes current := by
  have key : ∀ session : RelayUrl, ∃ name, W.relayUrl.key.write session = .ok name := fun _ => ⟨_, rfl⟩
  simp [localWriteEvent, publicationEvidence, retiredRevision, identity, writes_eventValue,
    writes_signatureState, writes_deliveryOutcome, key]

theorem writes_receipt (receipt : Receipt) : (receiptCodec W).Writes receipt := by
  have key : ∀ session : RelayUrl, ∃ name, W.relayUrl.key.write session = .ok name := fun _ => ⟨_, rfl⟩
  simp [receiptCodec, identity, counter, writes_localWriteEvent, writes_writeRouting, writes_authority,
    writes_receiptOutcome, key]

theorem writes_source (value : Source) : (source W).Writes value := by
  simp [source, writes_timestamp]

/-- A row is written exactly if its waiting plan covers nothing but the whole request. -/
theorem writes_row {row : PersistedReceipt} : (persistedReceipt N W).Writes row ↔ row.CoversWhole := by
  simp [persistedReceipt, persistedSemantic, successorCodec, PersistedReceipt.CoversWhole,
    writes_receipt, writes_eventEdit, writes_source, writes_unsignedEvent, writes_routePlan]

end Written

section Read

theorem reads_identity {n : Nat} (is : IsIdentity n) : identity.Reads n := Codec.reads_number is.1 is.2

theorem reads_counter {n : Nat} (bounded : n < counterBound) : counter.Reads n :=
  Codec.reads_number (Nat.zero_le n) bounded

theorem reads_byte (b : UInt8) : byte.Reads b := by
  refine Codec.reads_through (Codec.reads_number (Nat.zero_le _) b.toNat_lt) ?_
  rw [UInt8.ofNat_toNat]

theorem reads_texts (texts : List String) : Codec.text.list.Reads texts :=
  Codec.reads_list fun text _ => Codec.reads_text text

theorem reads_textOption (o : Option String) : Codec.text.option.Reads o :=
  Codec.reads_option Codec.text_solid fun text _ => Codec.reads_text text

theorem reads_idOption (o : Option EventId) : W.eventId.codec.option.Reads o :=
  Codec.reads_option TextForm.solid fun id _ => TextForm.reads id

theorem reads_relays (relays : BTreeSet RelayUrl) : W.relayUrl.codec.set.Reads relays :=
  Codec.reads_set fun relay _ => TextForm.reads relay

theorem reads_routeTarget (target : RouteTarget) : (routeTarget W).Reads target := by
  intro json written
  cases target with
  | wholeRequest =>
    cases written
    rfl
  | author key | recipient key | referencedEvent key =>
    exact Codec.reads_tagged (TextForm.reads key) (fun _ => rfl) json written

theorem reads_routeTargetKey (target : RouteTarget) (name : String)
    (written : routeTargetKey.write target = .ok name) : routeTargetKey.read name = .ok target := by
  cases target with
  | wholeRequest =>
    cases written
    rfl
  | author | recipient | referencedEvent => cases written

theorem reads_coverageState (state : CoverageState) : (coverageState W).Reads state := by
  intro json written
  cases state with
  | covered relays => exact Codec.reads_tagged (reads_relays relays) (fun _ => rfl) json written
  | unresolved | settledAbsent =>
    cases written
    rfl

theorem reads_routeReason (reason : RouteReason) : routeReason.Reads reason := by
  refine Items.reads_tuple ?_ rfl
  exact Items.reads_cons (Codec.reads_text _) (Items.reads_cons (Codec.reads_text _) Items.reads_nil)

theorem reads_plannedRelay (relay : PlannedRelay) : (plannedRelay W).Reads relay := by
  refine Fields.reads_record ?_ rfl
  refine Fields.reads_cons (by simp) (TextForm.reads _) ?_
  refine Fields.reads_cons (by simp) (Codec.reads_set fun target _ => reads_routeTarget target) ?_
  exact Fields.reads_cons (by simp) (Codec.reads_set fun reason _ => reads_routeReason reason)
    Fields.reads_nil

theorem reads_routePlan {plan : RoutePlan} (bounded : plan.revision < counterBound) :
    (routePlan W).Reads plan := by
  refine Fields.reads_record ?_ rfl
  refine Fields.reads_cons (by simp) (reads_counter bounded) ?_
  refine Fields.reads_cons (by simp)
    (Codec.reads_map TextForm.key_reads fun _ relay _ => reads_plannedRelay relay) ?_
  refine Fields.reads_cons (by simp)
    (Codec.reads_map reads_routeTargetKey fun _ state _ => reads_coverageState state) ?_
  refine Fields.reads_cons (by simp) (Codec.reads_set fun target _ => reads_routeTarget target) ?_
  exact Fields.reads_cons (by simp) (reads_texts _) Fields.reads_nil

theorem reads_eventEdit {edit : EventEdit} (checked : Checked N edit) : (eventEdit N W).Reads edit := by
  refine Codec.reads_through (Fields.reads_closed ?_ ?_ rfl) ?_
  · exact Fields.named_cons (Fields.named_cons (Fields.named_cons Fields.named_nil))
  · refine Fields.reads_cons (by simp) (Codec.keeps_iff.mp (W.kind_keeps _)).2 ?_
    refine Fields.reads_cons (by simp) (reads_textOption _) ?_
    exact Fields.reads_cons (by simp) (Codec.reads_list fun b _ => reads_byte b) Fields.reads_nil
  · exact mapError_eq_ok.mpr checked

theorem eventEdit_solid : (eventEdit N W).Solid := by
  intro edit
  change (encodedEdit W).write edit ≠ .ok .null
  exact Fields.record_solid edit

theorem reads_eventValue (value : EventValue) : (eventValue W).Reads value := by
  intro json written
  cases value with
  | unsigned event =>
    exact Codec.reads_tagged (Codec.keeps_iff.mp (W.unsignedEvent_keeps event)).2 (fun _ => rfl) json
      written
  | signed event =>
    exact Codec.reads_tagged (Codec.keeps_iff.mp (W.event_keeps event)).2 (fun _ => rfl) json written

theorem reads_signatureState (signature : SignatureState) : signatureState.Reads signature := by
  intro json written
  cases signature with
  | unsigned | authorized | signed =>
    cases written
    rfl
  | retryable reason | refused reason =>
    exact Codec.reads_tagged (Codec.reads_text reason) (fun _ => rfl) json written

theorem reads_worded {name : String} (text : String) : (worded name).Reads text := by
  refine Fields.reads_record ?_ rfl
  exact Fields.reads_cons List.not_mem_nil (Codec.reads_text text) Fields.reads_nil

theorem reads_deliveryOutcome (outcome : RelayDeliveryOutcome) : deliveryOutcome.Reads outcome := by
  intro json written
  cases outcome with
  | pending | attempting | cancelledBeforeHandoff =>
    cases written
    rfl
  | retryable text | acknowledged text | rejected text | authenticationDenied text | givenUp text
  | unknown text => exact Codec.reads_tagged (reads_worded text) (fun _ => rfl) json written

theorem reads_receiptOutcome (outcome : ReceiptOutcome) : receiptOutcome.Reads outcome := by
  intro json written
  cases outcome <;> cases written <;> rfl

theorem reads_writeRouting (routing : WriteRouting) : (writeRouting W).Reads routing := by
  intro json written
  cases routing with
  | automatic =>
    cases written
    rfl
  | explicit relays =>
    have listed := Codec.reads_list (c := W.relayUrl.codec) (l := relays) fun relay _ =>
      TextForm.reads relay
    exact Codec.reads_tagged listed (fun _ => rfl) json written

theorem reads_authority (access : Authority) : (authority W).Reads access := by
  intro json written
  cases access with
  | unauthenticated =>
    cases written
    rfl
  | asAccount key => exact Codec.reads_tagged (TextForm.reads key) (fun _ => rfl) json written

theorem reads_retiredRevision {retired : RetiredRevision} (is : IsIdentity retired.revisionId) :
    (retiredRevision W).Reads retired := by
  refine Items.reads_tuple ?_ rfl
  refine Items.reads_cons (reads_identity is) (Items.reads_cons (TextForm.reads _) ?_)
  exact Items.reads_cons (reads_idOption _) (Items.reads_cons (reads_textOption _) Items.reads_nil)

theorem reads_publicationEvidence {receipt : Receipt} (sized : Sized receipt) :
    (publicationEvidence W).Reads receipt.current.publication := by
  refine Fields.reads_record ?_ rfl
  refine Fields.reads_cons (by simp) (reads_identity sized.publication.1) ?_
  refine Fields.reads_cons (by simp) (reads_identity sized.publication.2) ?_
  refine Fields.reads_cons (by simp) (reads_identity sized.revision) ?_
  refine Fields.reads_cons (by simp) (reads_idOption _) ?_
  refine Fields.reads_cons (by simp) (reads_textOption _) ?_
  refine Fields.reads_cons (by simp)
    (Codec.reads_list fun retired inside => reads_retiredRevision (sized.retired retired inside)) ?_
  refine Fields.reads_cons (by simp) (reads_signatureState _) ?_
  exact Fields.reads_cons (by simp)
    (Codec.reads_map TextForm.key_reads fun _ outcome _ => reads_deliveryOutcome outcome)
    Fields.reads_nil

theorem reads_receipt {receipt : Receipt} (sized : Sized receipt) : (receiptCodec W).Reads receipt := by
  have current : (localWriteEvent W).Reads receipt.current := by
    refine Fields.reads_record ?_ rfl
    refine Fields.reads_cons (by simp) (TextForm.reads _) ?_
    refine Fields.reads_cons (by simp) (reads_eventValue _) ?_
    exact Fields.reads_cons (by simp) (reads_publicationEvidence sized) Fields.reads_nil
  refine Fields.reads_record ?_ rfl
  refine Fields.reads_cons (by simp) (reads_identity sized.writeId) ?_
  refine Fields.reads_cons (by simp) (reads_identity sized.receiptId) ?_
  refine Fields.reads_cons (by simp) current ?_
  refine Fields.reads_cons (by simp) (reads_writeRouting _) ?_
  refine Fields.reads_cons (by simp) (reads_authority _) ?_
  refine Fields.reads_cons (by simp) (reads_receiptOutcome _) ?_
  refine Fields.reads_cons (by simp) (reads_counter sized.route) ?_
  refine Fields.reads_cons (by simp) (Codec.reads_bool _) ?_
  refine Fields.reads_cons (by simp) (reads_texts _) ?_
  refine Fields.reads_cons (by simp) (reads_relays _) ?_
  refine Fields.reads_cons (by simp) (Codec.reads_map TextForm.key_reads fun session n tried => ?_)
    Fields.reads_nil
  exact Codec.reads_number (Nat.zero_le n) (sized.attempts session n tried)

theorem reads_sourceOption (o : Option Source) : (source W).option.Reads o := by
  refine Codec.reads_option Items.tuple_solid fun value _ => Items.reads_tuple ?_ rfl
  refine Items.reads_cons (TextForm.reads _) ?_
  exact Items.reads_cons (Codec.keeps_iff.mp (W.timestamp_keeps _)).2 Items.reads_nil

theorem reads_semantic {custody : SemanticCustody} (sound : custody.Sound N) :
    (persistedSemantic N W).Reads custody := by
  refine Fields.reads_record ?_ rfl
  refine Fields.reads_cons (by simp)
    (Codec.reads_list fun edit inside => reads_eventEdit (sound.edits edit inside)) ?_
  refine Fields.reads_cons (by simp) (TextForm.reads _) ?_
  refine Fields.reads_cons (by simp) (reads_sourceOption _) ?_
  refine Fields.reads_cons (by simp) (reads_idOption _) ?_
  refine Fields.reads_cons (by simp) (Codec.reads_option Items.tuple_solid fun successor waits => ?_)
    Fields.reads_nil
  obtain ⟨edits, plans⟩ := sound.waiting successor waits
  refine Items.reads_tuple ?_ rfl
  refine Items.reads_cons
    (Codec.reads_option eventEdit_solid fun edit inside => reads_eventEdit (edits edit inside)) ?_
  refine Items.reads_cons (Codec.keeps_iff.mp (W.unsignedEvent_keeps _)).2 ?_
  refine Items.reads_cons (reads_sourceOption _) ?_
  exact Items.reads_cons
    (Codec.reads_option Fields.record_solid fun plan inside => reads_routePlan (plans plan inside))
    Items.reads_nil

/-- What is written of a sound row is read as that row. -/
theorem reads_row {row : PersistedReceipt} (sound : row.Sound N) : (persistedReceipt N W).Reads row := by
  refine Fields.reads_record ?_ rfl
  refine Fields.reads_cons (by simp) (reads_receipt sound.receipt) ?_
  exact Fields.reads_cons (by simp)
    (Codec.reads_option Fields.record_solid fun custody held => reads_semantic (sound.semantic custody held))
    Fields.reads_nil

theorem keeps_row_iff {row : PersistedReceipt} (sound : row.Sound N) :
    (persistedReceipt N W).Keeps row ↔ row.CoversWhole := by
  rw [Codec.keeps_iff, and_iff_left (reads_row sound), writes_row]

end Read

section Plain

/-- A number as a row of dots. -/
def dots : TextForm Nat where
  text n := String.ofList (List.replicate n '.')
  parse text := .ok text.length
  parse_text n := by simp

/-- An event as its texts, one after the other. -/
def dottedEvent : Codec UnsignedEvent :=
  .through Codec.text.list.list
    (fun event => (event.id.toList.map dots.text) :: [dots.text event.pubkey, dots.text event.createdAt,
      dots.text event.kind, event.content] :: event.tags)
    fun
      | id :: [pubkey, createdAt, kind, content] :: tags =>
        .ok ⟨id.head?.map String.length, pubkey.length, createdAt.length, kind.length, tags, content⟩
      | _ => .error "invalid event"

def dottedSigned : Codec Event :=
  .through Codec.text.list.list
    (fun event => [dots.text event.id, dots.text event.pubkey, dots.text event.createdAt,
      dots.text event.kind, event.content, dots.text event.sig] :: event.tags)
    fun
      | [id, pubkey, createdAt, kind, content, sig] :: tags =>
        .ok ⟨id.length, pubkey.length, createdAt.length, kind.length, tags, content, sig.length⟩
      | _ => .error "invalid event"

theorem keeps_texts (texts : List (List String)) : Codec.text.list.list.Keeps texts := by
  rw [Codec.keeps_iff]
  exact ⟨by simp, Codec.reads_list fun _ _ => Codec.reads_list fun _ _ => Codec.reads_text _⟩

/-- A library that writes every number as dots. -/
def plainJson : NostrJson where
  eventId := dots
  publicKey := dots
  relayUrl := ⟨id, .ok, fun _ => rfl⟩
  timestamp := dots.codec
  kind := dots.codec
  unsignedEvent := dottedEvent
  event := dottedSigned
  timestamp_keeps time := Codec.keeps_iff.mpr ⟨dots.writes time, dots.reads time⟩
  kind_keeps kind := Codec.keeps_iff.mpr ⟨dots.writes kind, dots.reads kind⟩
  unsignedEvent_keeps event := by
    obtain ⟨writes, reads⟩ := Codec.keeps_iff.mp (keeps_texts _)
    refine Codec.keeps_iff.mpr ⟨Codec.writes_through.mpr writes, Codec.reads_through reads ?_⟩
    obtain ⟨id, pubkey, createdAt, kind, tags, content⟩ := event
    cases id <;> simp [dots]
  event_keeps event := by
    obtain ⟨writes, reads⟩ := Codec.keeps_iff.mp (keeps_texts _)
    refine Codec.keeps_iff.mpr ⟨Codec.writes_through.mpr writes, Codec.reads_through reads ?_⟩
    simp [dots]

end Plain

end Fava.WriteStore.Redb
