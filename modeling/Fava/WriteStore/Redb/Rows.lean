import Fava.WriteStore.Memory.Bounds
import Fava.WriteStore.Memory.Capacity
import Fava.WriteStore.Redb.Encoding
import Fava.WriteStore.Redb.Opening

namespace Fava.WriteStore.Redb

open Std Fava.Lib Fava.Nostr Fava.Relay Fava.Routing Fava.Write
open Memory (Action Changes Enters offered successorRoute attempts_settle attempts_settleRoute
  attempts_foldl_provide find_attempts_withdraw routeRevision_settleRoute)

instance (N : Library) (edit : EventEdit) : Decidable (Checked N edit) :=
  match made : EventEdit.new N edit.kind edit.identifier edit.change with
  | .ok other => decidable_of_iff (other = edit) (by rw [Checked, made, Except.ok.injEq])
  | .error _ => isFalse (by rw [Checked, made]; exact nofun)

/-- The values of a call are such as their types hold: an edit that can be made, a route
revision of eight bytes, an attempt of four. -/
def Formed (N : Library) (action : Action) : Prop :=
  (∀ o ∈ offered action, Checked N o.edit ∧ ∀ plan ∈ o.route, plan.revision < counterBound) ∧
  match action with
  | .installRevision _ _ _ _ _ _ _ _ route => ∀ plan ∈ route, plan.revision < counterBound
  | .applyRoute _ _ _ _ plan => plan.revision < counterBound
  | .beginAttempt _ _ _ _ _ attempt => attempt < 2 ^ 32
  | _ => True

instance (N : Library) (action : Action) : Decidable (Formed N action) := by
  unfold Formed
  cases action <;> infer_instance

def FormedCall (N : Library) (_ : System) : Command → Prop
  | .perform _ action => Formed N action
  | .reopen _ _ => True

instance (N : Library) (system : System) (command : Command) :
    Decidable (FormedCall N system command) := by
  cases command with
  | perform => exact inferInstanceAs (Decidable (Formed N _))
  | reopen => exact inferInstanceAs (Decidable True)

/-- A codec that writes every row. -/
def everyRow : Codec PersistedReceipt := ⟨fun _ => .ok .null, fun _ => .error "row was not kept", none⟩

/-- The rows of a database after an operation that could write each row it builds: those
it found and those it builds. -/
def Presents (N : Library) (s : Store) (action : Action) (row : PersistedReceipt) : Prop :=
  ∃ r : Nat, (perform N everyRow action { s with fault := none }).2.database.rows[r]? = some row

def Database.Sound (N : Library) (database : Database) : Prop :=
  ∀ (r : Nat) (row : PersistedReceipt), database.rows[r]? = some row → row.Sound N

variable {N : Library} {W : Codec PersistedReceipt} {s s' : Store} {action : Action} {r : ReceiptId}
  {receipt updated : Receipt} {route : Option RoutePlan} {plan : RoutePlan} {database : Database}
  {row : PersistedReceipt} {J : NostrJson}

section Numbers

theorem counterBound_pos : 0 < counterBound := by decide

theorem attempts_of_foldl_withdraw {sessions : List RelayUrl} {session : RelayUrl} {n : Nat}
    (tried : (sessions.foldl withdraw receipt).attempts[session]? = some n) :
    receipt.attempts[session]? = some n := by
  induction sessions generalizing receipt with
  | nil => exact tried
  | cons first sessions ih =>
    have before := ih tried
    rw [find_attempts_withdraw] at before
    split at before
    · cases before
    · exact before

/-- A newer route leaves the attempts of the lanes it keeps, and has its own revision. -/
theorem numbers_of_applyNewer (applied : applyNewerRouteToReceipt N receipt plan = .ok updated) :
    updated.routeRevision = plan.revision ∧ ∀ (session : RelayUrl) n,
      updated.attempts[session]? = some n → receipt.attempts[session]? = some n := by
  obtain ⟨_, -, applied⟩ := bind_eq_ok.mp applied
  obtain rfl := Except.ok.inj applied
  refine ⟨routeRevision_settleRoute, fun session n tried => ?_⟩
  rw [attempts_settleRoute] at tried
  change (List.foldl provide _ _).attempts[session]? = some n at tried
  rw [attempts_foldl_provide] at tried
  exact attempts_of_foldl_withdraw tried

theorem attempts_of_applyInitialRoute (applied : applyInitialRoute N receipt route = .ok updated)
    (session : RelayUrl) (n : Nat) (tried : updated.attempts[session]? = some n) :
    receipt.attempts[session]? = some n := by
  obtain rfl | ⟨plan, -, -, -, newer⟩ := applyInitialRoute_cases applied
  · exact tried
  · exact (numbers_of_applyNewer newer).2 session n tried

theorem revised_of_applyInitialRoute (applied : applyInitialRoute N receipt route = .ok updated)
    (bounded : receipt.routeRevision < counterBound)
    (revised : ∀ plan ∈ route, plan.revision < counterBound) :
    updated.routeRevision < counterBound := by
  obtain rfl | ⟨plan, brought, -, -, newer⟩ := applyInitialRoute_cases applied
  · exact bounded
  · rw [(numbers_of_applyNewer newer).1]
    exact revised plan brought

/-- Routing and delivery change two numbers of a receipt. -/
theorem Sized.of_unrouted (sized : Sized receipt) (same : unrouted updated = unrouted receipt)
    (revised : updated.routeRevision < counterBound)
    (attempts : ∀ (session : RelayUrl) n, updated.attempts[session]? = some n → n < 2 ^ 32) :
    Sized updated := by
  have publication : ∀ {α : Type} (f : PublicationEvidence → α),
      f { updated.current.publication with destinations := ∅ } =
        f { receipt.current.publication with destinations := ∅ } := fun f =>
    congrArg (fun receipt : Receipt => f receipt.current.publication) same
  refine ⟨?_, ?_, ?_, ?_, ?_, revised, attempts⟩
  · rw [show updated.writeId = receipt.writeId from congrArg (·.writeId) same]
    exact sized.writeId
  · rw [show updated.receiptId = receipt.receiptId from congrArg (·.receiptId) same]
    exact sized.receiptId
  · rw [show updated.current.publication.receiptId = _ from publication (·.receiptId),
      show updated.current.publication.writeId = _ from publication (·.writeId)]
    exact sized.publication
  · rw [show updated.current.publication.revisionId = _ from publication (·.revisionId)]
    exact sized.revision
  · rw [show updated.current.publication.retiredRevisions = _ from publication (·.retiredRevisions)]
    exact sized.retired

theorem Sized.applyInitialRoute (sized : Sized receipt)
    (applied : applyInitialRoute N receipt route = .ok updated)
    (revised : ∀ plan ∈ route, plan.revision < counterBound) : Sized updated := by
  refine sized.of_unrouted (applyInitialRoute_eq_ok applied).1
    (revised_of_applyInitialRoute applied sized.route revised) fun session n tried => ?_
  exact sized.attempts session n (attempts_of_applyInitialRoute applied session n tried)

/-- A receipt enters with its identity for every number. -/
theorem sized_of_acceptedReceipt {event : EventValue} {signature : SignatureState}
    {source : Option EventId} {routing : WriteRouting} {access : Authority}
    (made : acceptedReceipt r event signature source routing access = .ok receipt)
    (positive : 0 < r) (counted : r + 1 < counterBound) : Sized receipt := by
  obtain ⟨current, new, made⟩ := bind_eq_ok.mp made
  obtain rfl := Except.ok.inj made
  unfold LocalWriteEvent.new at new
  split at new
  · cases new
  · obtain rfl := Except.ok.inj new
    have own : IsIdentity r := ⟨positive, Nat.lt_of_succ_lt counted⟩
    have routed : routing.isExplicit.toNat < counterBound :=
      Nat.lt_of_le_of_lt (Bool.toNat_le _) (by decide)
    have first : IsIdentity RevisionId.first := ⟨Nat.le_refl 1, by decide⟩
    exact ⟨own, own, ⟨own, own⟩, first, (fun _ tried => by cases tried), routed, by simp⟩

theorem sized_of_enters (enters : Enters N r receipt) (positive : 0 < r)
    (routed : receipt.routeRevision ≤ 1) : Sized receipt := by
  obtain ⟨event, signature, source, routing, access, counted, -, made, applied⟩ := enters
  have fresh := sized_of_acceptedReceipt made positive counted
  refine fresh.of_unrouted (applyInitialRoute_eq_ok applied).1
    (Nat.lt_of_le_of_lt routed (by decide)) fun session n tried => ?_
  exact fresh.attempts session n (attempts_of_applyInitialRoute applied session n tried)

theorem counted_of_nextGeneration {event : UnsignedEvent} {source : Option EventId}
    {lanes : BTreeMap RelayUrl RelayDeliveryOutcome} {current : LocalWriteEvent}
    (generated : nextGeneration r receipt event source lanes = .ok current) :
    receipt.current.publication.revisionId + 1 < counterBound := by
  obtain ⟨next, counted, -⟩ := demand_bind_eq_ok.mp generated
  unfold RevisionId.checkedNext at counted
  split at counted
  · assumption
  · cases counted

/-- The next generation is counted, and the one before it is among the retired. -/
theorem Sized.next {event : UnsignedEvent} {source : Option EventId} {fresh : Receipt}
    {lanes : BTreeMap RelayUrl RelayDeliveryOutcome} {current : LocalWriteEvent}
    (sized : Sized receipt) (own : receipt.receiptId = r)
    (generated : nextGeneration r receipt event source lanes = .ok current)
    (same : fresh.current = current ∧ fresh.writeId = receipt.writeId ∧
      fresh.receiptId = receipt.receiptId)
    (revised : fresh.routeRevision < counterBound) (untried : fresh.attempts = ∅) : Sized fresh := by
  have counted := counted_of_nextGeneration generated
  obtain ⟨id, -, made⟩ := nextGeneration_eq_ok generated
  obtain ⟨is, writeId, receiptId⟩ := same
  subst made
  refine ⟨?_, ?_, ?_, ?_, ?_, revised, ?_⟩
  · rw [writeId]
    exact sized.writeId
  · rw [receiptId]
    exact sized.receiptId
  · rw [is, ← own]
    exact ⟨sized.receiptId, sized.writeId⟩
  · rw [is]
    exact ⟨Nat.le_add_left 1 _, counted⟩
  · rw [is]
    intro retired listed
    obtain earlier | now := List.mem_append.mp listed
    · exact sized.retired retired earlier
    · rw [List.mem_singleton.mp now]
      exact sized.revision
  · rw [untried]
    simp

end Numbers

section Changing

/-- What an operation makes of a receipt under its identity leaves the numbers of its
generations in their bounds. -/
theorem generations_of_changes (sized : Sized receipt) (own : receipt.receiptId = r)
    (changes : Changes N r receipt action updated) :
    (IsIdentity updated.current.publication.receiptId ∧
      IsIdentity updated.current.publication.writeId) ∧
    IsIdentity updated.current.publication.revisionId ∧
    ∀ retired ∈ updated.current.publication.retiredRevisions, IsIdentity retired.revisionId := by
  have routed : unrouted updated = unrouted receipt →
      (IsIdentity updated.current.publication.receiptId ∧
        IsIdentity updated.current.publication.writeId) ∧
      IsIdentity updated.current.publication.revisionId ∧
      ∀ retired ∈ updated.current.publication.retiredRevisions, IsIdentity retired.revisionId := by
    intro same
    have stays : Sized { updated with routeRevision := 0, attempts := ∅ } :=
      sized.of_unrouted same counterBound_pos (by simp)
    exact ⟨stays.publication, stays.revision, stays.retired⟩
  have generated : ∀ {event source lanes current fresh route},
      nextGeneration r receipt event source lanes = .ok current →
      applyInitialRoute N fresh route = .ok updated → Receipt.current fresh = current →
      (IsIdentity updated.current.publication.receiptId ∧
        IsIdentity updated.current.publication.writeId) ∧
      IsIdentity updated.current.publication.revisionId ∧
      ∀ retired ∈ updated.current.publication.retiredRevisions, IsIdentity retired.revisionId := by
    intro event source lanes current fresh route generated applied is
    have next : Sized { fresh with
        writeId := receipt.writeId
        receiptId := receipt.receiptId
        routeRevision := 0
        attempts := ∅ } := sized.next own generated ⟨is, rfl, rfl⟩ counterBound_pos rfl
    have same : unrouted { updated with
        writeId := receipt.writeId
        receiptId := receipt.receiptId } = unrouted { fresh with
        writeId := receipt.writeId
        receiptId := receipt.receiptId } :=
      congrArg (fun receipt' : Receipt => { receipt' with
        writeId := receipt.writeId
        receiptId := receipt.receiptId }) (applyInitialRoute_eq_ok applied).1
    have stays : Sized { updated with
        writeId := receipt.writeId
        receiptId := receipt.receiptId
        routeRevision := 0
        attempts := ∅ } := next.of_unrouted same counterBound_pos (by simp)
    exact ⟨stays.publication, stays.revision, stays.retired⟩
  cases changes with
  | route _ _ applied => exact routed (unrouted_of_applyRoute applied)
  | outcome => exact routed (unrouted_settle _)
  | restart _ _ _ _ _ generation applied => exact generated generation applied rfl
  | correct _ _ _ _ _ generation applied => exact generated generation applied rfl
  | _ => exact ⟨sized.publication, sized.revision, sized.retired⟩

/-- A change that keeps the generation keeps the numbers of its delivery in their bounds. -/
theorem delivery_of_changes (sized : Sized receipt) (formed : Formed N action)
    (changes : Changes N r receipt action updated) (kept : unrouted updated = unrouted receipt) :
    updated.routeRevision < counterBound ∧ ∀ (session : RelayUrl) n,
      updated.attempts[session]? = some n → n < 2 ^ 32 := by
  -- A new generation is not the one before it.
  have renumbered : ∀ {event source lanes current fresh route},
      nextGeneration r receipt event source lanes = .ok current →
      applyInitialRoute N fresh route = .ok updated → Receipt.current fresh = current → False := by
    intro event source lanes current fresh route generated applied is
    obtain ⟨id, -, made⟩ := nextGeneration_eq_ok generated
    have next := congrArg (fun receipt : Receipt => receipt.current.publication.revisionId)
      ((applyInitialRoute_eq_ok applied).1.symm.trans kept)
    change fresh.current.publication.revisionId = receipt.current.publication.revisionId at next
    rw [is, made] at next
    exact Nat.succ_ne_self _ next
  cases changes with
  | route _ _ applied =>
    obtain rfl | ⟨-, -, newer⟩ := applyRoute_cases applied
    · exact ⟨sized.route, sized.attempts⟩
    · obtain ⟨revision, attempts⟩ := numbers_of_applyNewer newer
      rw [revision]
      exact ⟨formed.2, fun session n tried => sized.attempts session n (attempts session n tried)⟩
  | @begin _ _ _ session attempt =>
    refine ⟨sized.route, fun other n tried => ?_⟩
    change (receipt.attempts.insert session attempt)[other]? = some n at tried
    rw [BTreeMap.find_insert] at tried
    split at tried
    · cases tried
      exact formed.2
    · exact sized.attempts other n tried
  | outcome =>
    rw [attempts_settle]
    refine ⟨?_, sized.attempts⟩
    unfold settle
    split <;> exact sized.route
  | restart _ _ _ _ _ generated applied => exact (renumbered generated applied rfl).elim
  | correct _ _ _ _ _ generated applied => exact (renumbered generated applied rfl).elim
  | _ => exact ⟨sized.route, sized.attempts⟩

theorem Sized.change (sized : Sized receipt) (own : receipt.receiptId = r)
    (changes : Changes N r receipt action updated)
    (delivery : updated.routeRevision < counterBound ∧ ∀ (session : RelayUrl) n,
      updated.attempts[session]? = some n → n < 2 ^ 32) : Sized updated := by
  obtain ⟨publication, revision, retired⟩ := generations_of_changes sized own changes
  obtain ⟨receiptId, writeId⟩ := Memory.names_of_changes changes
  refine ⟨?_, ?_, publication, revision, retired, delivery.1, delivery.2⟩
  · rw [writeId]
    exact sized.writeId
  · rw [receiptId]
    exact sized.receiptId

end Changing

section Rows

variable {next : Option Nat} {removals : List ReceiptId}

/-- The rows after a transaction are those it wrote and some of those before. -/
theorem rows_transact {r : Nat} {other : PersistedReceipt}
    (found : (database.transact next [row] removals).rows[r]? = some other) :
    other = row ∨ database.rows[r]? = some other := by
  rw [find_transact] at found
  split at found
  · cases found
  · split at found
    · cases found
      exact .inl rfl
    · exact .inr found

/-- The row a transition writes, if it writes one, could be written and is sound. -/
theorem Transition.rows (transition : Transition N W s action s') (mirrors : Mirrors s)
    (sound : s.database.Sound N) (formed : Formed N action) :
    ∀ (r : Nat) (row : PersistedReceipt), s'.database.rows[r]? = some row →
      s.database.rows[r]? = some row ∨ W.Writes row ∧ row.Sound N := by
  have held : ∀ {r : ReceiptId} {receipt : Receipt}, s.state.receipts[r]? = some receipt →
      (⟨receipt, s.state.semantics[r]?⟩ : PersistedReceipt).Sound N := by
    intro r receipt found
    refine sound r _ ?_
    rw [mirrors.rows, found]
    rfl
  have named : ∀ {r : ReceiptId} {receipt : Receipt}, s.state.receipts[r]? = some receipt →
      receipt.receiptId = r := fun found => (mirrors.named _ _ found).1
  have wrote : ∀ {row : PersistedReceipt} {next removals}, W.Writes row → row.Sound N →
      ∀ (r : Nat) (other : PersistedReceipt),
        (s.database.transact next [row] removals).rows[r]? = some other →
          s.database.rows[r]? = some other ∨ W.Writes other ∧ other.Sound N := by
    intro row next removals encoded good r other found
    obtain rfl | before := rows_transact found
    · exact .inr ⟨encoded, good⟩
    · exact .inl before
  cases transition with
  | idle => exact fun _ _ => .inl
  | accepted _ enters _ encoded routed =>
    exact wrote encoded ⟨sized_of_enters enters mirrors.positive routed, nofun⟩
  | @opened _ o t _ _ receipt _ _ offers took _ _ counted made applied encoded =>
    obtain ⟨reservations, rfl⟩ := takeReservation_eq_ok took
    obtain ⟨checked, revised⟩ := formed.1 o offers
    refine wrote encoded ⟨?_, ?_⟩
    · exact (sized_of_acceptedReceipt made mirrors.positive counted).applyInitialRoute applied revised
    · rintro _ ⟨⟩
      exact ⟨by simpa using checked, nofun⟩
  | @queued _ o _ _ _ custody _ _ offers took _ found waiting _ _ _ waits encoded revised =>
    obtain ⟨reservations, rfl⟩ := takeReservation_eq_ok took
    obtain ⟨checked, -⟩ := formed.1 o offers
    obtain ⟨receipt, semantic⟩ := held found
    have custody := semantic custody waiting
    subst waits
    refine wrote encoded ⟨receipt, ?_⟩
    rintro _ ⟨⟩
    refine ⟨custody.edits, ?_⟩
    rintro _ ⟨⟩
    exact ⟨by simpa using checked, revised⟩
  | @composed _ o _ _ _ _ custody _ _ _ _ offers took _ found waiting _ _ generated applied appends
      encoded revised =>
    obtain ⟨reservations, rfl⟩ := takeReservation_eq_ok took
    obtain ⟨checked, -⟩ := formed.1 o offers
    obtain ⟨receipt, semantic⟩ := held found
    have custody := semantic custody waiting
    subst appends
    refine wrote encoded ⟨?_, ?_⟩
    · refine Sized.applyInitialRoute ?_ applied revised
      exact receipt.next (named found) generated ⟨rfl, rfl, rfl⟩
        (Nat.lt_of_le_of_lt (Bool.toNat_le _) (by decide)) rfl
    · intro composed is
      dsimp only at is
      split at is
      · cases is
      · cases is
        refine ⟨fun edit listed => ?_, nofun⟩
        obtain earlier | now := List.mem_append.mp listed
        · exact custody.edits edit earlier
        · rw [List.mem_singleton.mp now]
          exact checked
  | @deferred _ _ _ _ _ _ _ _ _ _ custody _ _ _ found waiting _ _ _ waits encoded =>
    obtain ⟨receipt, semantic⟩ := held found
    have custody := semantic custody waiting
    subst waits
    refine wrote encoded ⟨receipt, ?_⟩
    rintro _ ⟨⟩
    refine ⟨custody.edits, ?_⟩
    rintro _ ⟨⟩
    exact ⟨nofun, formed.2⟩
  | @corrected _ _ _ _ _ _ _ _ _ _ _ custody _ _ _ _ _ found waiting _ _ _ _ _ generated applied
      renews encoded =>
    obtain ⟨receipt, semantic⟩ := held found
    have custody := semantic custody waiting
    subst renews
    refine wrote encoded ⟨?_, ?_⟩
    · refine Sized.applyInitialRoute ?_ applied formed.2
      exact receipt.next (named found) generated ⟨rfl, rfl, rfl⟩ receipt.route rfl
    · rintro _ ⟨⟩
      exact ⟨custody.edits, nofun⟩
  | @failed _ _ _ _ custody _ _ _ found waiting changes _ kept encoded =>
    obtain ⟨receipt, semantic⟩ := held found
    have custody := semantic custody waiting
    obtain ⟨failure, rfl⟩ := kept
    refine wrote encoded ⟨receipt.change (named found) changes ⟨receipt.route, receipt.attempts⟩, ?_⟩
    rintro _ ⟨⟩
    exact ⟨custody.edits, custody.waiting⟩
  | @promoted _ _ _ _ custody _ successor _ _ _ found waiting queued _ _ takes renews encoded =>
    obtain ⟨receipt, semantic⟩ := held found
    have custody := semantic custody waiting
    obtain ⟨checked, revised⟩ := custody.waiting successor queued
    subst renews
    refine wrote encoded ⟨?_, ?_⟩
    · refine Sized.applyInitialRoute ?_ takes.applied revised
      exact receipt.next (named found) takes.generated ⟨rfl, rfl, rfl⟩
        (Nat.lt_of_le_of_lt (Bool.toNat_le _) (by decide)) rfl
    · rintro _ ⟨⟩
      refine ⟨fun edit listed => ?_, nofun⟩
      obtain earlier | now := List.mem_append.mp listed
      · exact custody.edits edit earlier
      · exact checked edit (Option.mem_toList.mp now)
  | signed found changes _ kept _ encoded =>
    obtain ⟨receipt, semantic⟩ := held found
    refine wrote encoded ⟨receipt.change (named found) changes ⟨?_, ?_⟩, semantic⟩
    · rw [congrArg (·.routeRevision) kept]
      exact receipt.route
    · rw [congrArg (·.attempts) kept]
      exact receipt.attempts
  | recorded found changes _ kept encoded =>
    obtain ⟨receipt, semantic⟩ := held found
    exact wrote encoded ⟨receipt.change (named found) changes
      (delivery_of_changes receipt formed changes kept), semantic⟩
  | removed =>
    intro q other found
    exact .inl (BTreeMap.find_of_erase found)

/-- What a database holds while its rows are sound and could all be written. -/
def Database.Written (N : Library) (W : Codec PersistedReceipt) (database : Database) : Prop :=
  ∀ (r : Nat) (row : PersistedReceipt), database.rows[r]? = some row → W.Writes row ∧ row.Sound N

theorem Database.Written.sound (written : database.Written N W) : database.Sound N :=
  fun r row found => (written r row found).2

theorem Transition.written (transition : Transition N W s action s') (mirrors : Mirrors s)
    (written : s.database.Written N W) (formed : Formed N action) : s'.database.Written N W := by
  intro r row found
  obtain before | now := transition.rows mirrors written.sound formed r row found
  · exact written r row before
  · exact now

end Rows

section Opening

variable {limits : StoreLimits} {fault : Option Fault} {loaded : Loaded}

theorem sized_recoverReceipt (sized : Sized receipt) : Sized (recoverReceipt receipt) := by
  have numbers : (recoverReceipt receipt).routeRevision = receipt.routeRevision ∧
      (recoverReceipt receipt).attempts = receipt.attempts := by
    unfold recoverReceipt
    split
    · refine ⟨?_, attempts_settle⟩
      unfold settle
      split <;> rfl
    · exact ⟨rfl, rfl⟩
  refine sized.of_unrouted (unrouted_recoverReceipt receipt) ?_ ?_
  · rw [numbers.1]
    exact sized.route
  · rw [numbers.2]
    exact sized.attempts

/-- Ending the attempts that were under way concerns no custody. -/
theorem Recovered.written (recovered : Recovered limits database loaded s)
    (written : database.Written N (persistedReceipt N J)) :
    s.database.Written N (persistedReceipt N J) := by
  intro r row found
  rw [recovered.rows, Option.map_eq_some_iff] at found
  obtain ⟨before, present, rfl⟩ := found
  obtain ⟨writes, sound⟩ := written r before present
  have whole : before.CoversWhole := writes_row.mp writes
  have same : (⟨recoverReceipt before.receipt, before.semantic⟩ : PersistedReceipt).CoversWhole := whole
  exact ⟨writes_row.mpr same, ⟨sized_recoverReceipt sound.receipt, sound.semantic⟩⟩

/-- Opening a database leaves its rows sound, whether it succeeds or not. -/
theorem openBounded_written (written : database.Written N (persistedReceipt N J)) :
    (openBounded N (persistedReceipt N J) limits fault database).2.Written N (persistedReceipt N J) ∧
    ∀ s, (openBounded N (persistedReceipt N J) limits fault database).1 = .ok s →
      Mirrors s ∧ s.database = (openBounded N (persistedReceipt N J) limits fault database).2 := by
  obtain ⟨error, failed⟩ | ⟨loaded, t, read, recovered, done⟩ :=
    openBounded_cases N (persistedReceipt N J) limits fault database
  · rw [failed]
    refine ⟨written, fun _ opened => ?_⟩
    cases opened
  · rw [done]
    obtain ⟨mirrors, written⟩ : Mirrors (recoverAuthorizedSigning N (persistedReceipt N J) t).2 ∧
        (recoverAuthorizedSigning N (persistedReceipt N J) t).2.database.Written N
          (persistedReceipt N J) := by
      refine recoverSigning_keeps
        (I := fun u => Mirrors u ∧ u.database.Written N (persistedReceipt N J)) ?_
        ⟨recovered.mirrors read, recovered.written written⟩
      rintro u receipt - ⟨mirrors, written⟩
      have transition := interruption_transition N (persistedReceipt N J) mirrors.named_state receipt
      exact ⟨mirrors.transition transition, transition.written mirrors written ⟨nofun, trivial⟩⟩
    refine ⟨written, fun s opened => ?_⟩
    cases answer : (recoverAuthorizedSigning N (persistedReceipt N J) t).1 with
    | error error =>
      rw [answer] at opened
      cases opened
    | ok _ =>
      rw [answer] at opened
      obtain rfl := Except.ok.inj opened
      exact ⟨mirrors, rfl⟩

theorem written_of_run {system : System} {commands : List Command}
    (run : Run (step N J) (FormedCall N) .initial commands system) :
    system.database.Written N (persistedReceipt N J) ∧ ∀ s, system = .running s → Mirrors s := by
  refine run.invariant (fun system => system.database.Written N (persistedReceipt N J) ∧
    ∀ s, system = .running s → Mirrors s) ⟨?_, fun _ closed => by cases closed⟩ ?_
  · intro r row found
    change (∅ : BTreeMap Nat PersistedReceipt)[r]? = some row at found
    rw [ExtTreeMap.getElem?_empty] at found
    cases found
  rintro system command next ⟨written, mirrors⟩ formed stepped
  cases command with
  | reopen limits fault =>
    have after : (openBounded N (persistedReceipt N J) limits fault system.database).2.Written N
          (persistedReceipt N J) ∧
        ∀ s, (openBounded N (persistedReceipt N J) limits fault system.database).1 = .ok s →
          Mirrors s ∧ s.database =
            (openBounded N (persistedReceipt N J) limits fault system.database).2 :=
      openBounded_written written
    obtain ⟨t, database', answered, rfl⟩ | ⟨error, database', answered, rfl⟩ := step_reopen stepped
    · rw [answered] at after
      obtain ⟨mirrors, same⟩ := after.2 t rfl
      refine ⟨?_, ?_⟩
      · rw [show (System.running t).database = database' from same]
        exact after.1
      · rintro _ ⟨⟩
        exact mirrors
    · rw [answered] at after
      exact ⟨after.1, fun _ closed => by cases closed⟩
  | perform fault action =>
    cases system with
    | closed database => cases stepped
    | running t =>
      cases stepped
      have mirrors := (mirrors t rfl).with_fault fault
      have transition : Transition N (persistedReceipt N J) _ action _ :=
        perform_transition mirrors.named_state action
      refine ⟨transition.written mirrors written formed, ?_⟩
      rintro _ ⟨⟩
      exact mirrors.transition transition

end Opening

/-- What the store holds is read back as it was written. What it builds is too, exactly if
the plan that waits with it covers nothing but the whole request. -/
theorem rows_kept_iff {commands : List Command}
    (run : Run (step N J) (FormedCall N) .initial commands (.running s)) :
    (∀ (r : Nat) (row : PersistedReceipt), s.database.rows[r]? = some row →
      (persistedReceipt N J).Keeps row) ∧
    ∀ action row, Formed N action → Presents N s action row →
      ((persistedReceipt N J).Keeps row ↔ row.CoversWhole) := by
  obtain ⟨written, mirrors⟩ := written_of_run run
  refine ⟨fun r row found => ?_, ?_⟩
  · obtain ⟨writes, sound⟩ := written r row found
    exact (keeps_row_iff sound).mpr (writes_row.mp writes)
  · rintro action row formed ⟨r, found⟩
    have mirrors := (mirrors s rfl).with_fault none
    have transition : Transition N everyRow _ action _ :=
      perform_transition mirrors.named_state action
    refine keeps_row_iff ?_
    obtain before | now := transition.rows mirrors written.sound formed r row found
    · exact (written r row before).2
    · exact now.2

section Sample

def fourActive : StoreLimits := ⟨4, 4, four_active, four_active⟩

/-- A list whose signing is under way. -/
def listInSigning : List Command :=
  .reopen fourActive none :: [Memory.Action.acceptAppliedEdit 10 (Memory.listEdit []) Memory.firstList none,
    .authorizeSigning 1 1 1 20].map (.perform none)

/-- A plan that has one relay for a target. -/
def planFor (target : RouteTarget) : RoutePlan where
  revision := 1
  destinations :=
    BTreeMap.constant ["wss://a.example"] ⟨"wss://a.example", ExtTreeSet.ofList [target], ∅⟩
  coverage := BTreeMap.constant [target] (.covered (ExtTreeSet.ofList ["wss://a.example"]))
  unresolved := ∅
  shortfalls := []

/-- A correction that waits until the signing is decided. -/
def correctionFor (target : RouteTarget) : Action :=
  .installRevision 11 1 1 1 none [⟨3, none, []⟩] Memory.secondList (some (.signed Memory.listBefore))
    (some (planFor target))

/-- The plan that waits in a row covers the target. -/
def covers (target : RouteTarget) (row : PersistedReceipt) : Bool :=
  row.semantic.any fun custody => custody.successor.any fun successor => successor.route.any fun plan =>
    plan.coverage.contains target

/-- A correction that is routed to a recipient builds a row that cannot be written, and is
refused for it. -/
theorem recipient_row_unwritten : ∃ s row,
    Run (step plainLibrary plainJson) Free .initial listInSigning (.running s) ∧
      Presents plainLibrary s (correctionFor (.recipient 9)) row ∧
      ¬(persistedReceipt plainLibrary plainJson).Keeps row ∧
      (perform plainLibrary (persistedReceipt plainLibrary plainJson) (correctionFor (.recipient 9))
        s).1.isOk = false := by
  obtain ⟨system, run, checked⟩ := Run.of_any (show (exec (step plainLibrary plainJson) Free .initial
    listInSigning).any (System.holds fun s =>
      ((perform plainLibrary everyRow (correctionFor (.recipient 9))
        { s with fault := none }).2.database.rows[1]?).any (covers (.recipient 9)) &&
      !(perform plainLibrary (persistedReceipt plainLibrary plainJson) (correctionFor (.recipient 9))
        s).1.isOk) = true by decide +kernel)
  obtain ⟨s, rfl, passes⟩ := holds_iff.mp checked
  rw [Bool.and_eq_true, Bool.not_eq_true', Option.any_eq_true] at passes
  obtain ⟨⟨row, found, covered⟩, refused⟩ := passes
  refine ⟨s, row, run, ⟨1, found⟩, fun kept => ?_, refused⟩
  simp only [covers, Option.any_eq_true, ExtTreeMap.contains_iff_mem] at covered
  obtain ⟨custody, held, successor, waiting, plan, routed, inside⟩ := covered
  have whole := writes_row.mp (Codec.keeps_iff.mp kept).1
  cases whole custody held successor waiting plan routed _ inside

theorem rows_kept_of_whole : ∃ s row,
    Run (step plainLibrary plainJson) (FormedCall plainLibrary) .initial listInSigning (.running s) ∧
      Presents plainLibrary s (correctionFor .wholeRequest) row ∧ covers .wholeRequest row = true ∧
      ((persistedReceipt plainLibrary plainJson).Keeps row ↔ row.CoversWhole) := by
  obtain ⟨system, run, checked⟩ := Run.of_any (show (exec (step plainLibrary plainJson)
    (FormedCall plainLibrary) .initial listInSigning).any (System.holds fun s =>
      ((perform plainLibrary everyRow (correctionFor .wholeRequest)
        { s with fault := none }).2.database.rows[1]?).any (covers .wholeRequest)) = true by
      decide +kernel)
  obtain ⟨s, rfl, passes⟩ := holds_iff.mp checked
  rw [Option.any_eq_true] at passes
  obtain ⟨row, found, covered⟩ := passes
  exact ⟨s, row, run, ⟨1, found⟩, covered,
    (rows_kept_iff run).2 _ row (by decide +kernel) ⟨1, found⟩⟩

end Sample

end Fava.WriteStore.Redb
