import Fava.Publication.Runners

namespace Fava.Publication.Deliveries

open Std Fava.Lib Fava.Nostr Fava.Relay Fava.Routing Fava.Write Fava.WriteStore
open Fava.WriteStore.Memory

variable {N : Library} {capacity : Nat} {policy : DeliveryPolicy} {s t : Deliveries}
  {ledger after : WriteState} {r : ReceiptId} {revisionId : RevisionId}

/-- What every ledger has that a run can reach. -/
structure Lawful (N : Library) (ledger : WriteState) : Prop where
  coherent : Coherent N ledger
  recorded : ∀ (r : ReceiptId) (receipt : Receipt), ledger.writes[r]? = some receipt → Recorded receipt
  named : ∀ (r : ReceiptId) (receipt : Receipt), ledger.writes[r]? = some receipt → receipt.receiptId = r

/-- A ledger some time later, if nothing was opened again meanwhile. -/
structure Onward (before after : WriteState) : Prop where
  counts : before.nextIdentity ≤ after.nextIdentity
  ended : ∀ r, r < before.nextIdentity → hasEnded before r = true → hasEnded after r = true
  past : ∀ r revisionId, r < before.nextIdentity → Over before r revisionId → Over after r revisionId
  receipts : ∀ (r : ReceiptId) (receipt : Receipt), r < before.nextIdentity →
    after.writes[r]? = some receipt → ∃ previous : Receipt, before.writes[r]? = some previous ∧
      previous.current.publication.revisionId ≤ receipt.current.publication.revisionId ∧
      (receipt.current.publication.revisionId = previous.current.publication.revisionId →
        ∀ event, previous.current.event = .signed event → receipt.current.event = .signed event)

theorem Onward.refl (ledger : WriteState) : Onward ledger ledger :=
  ⟨Nat.le_refl _, fun _ _ => id, fun _ _ _ => id,
    fun _ receipt _ found => ⟨receipt, found, Nat.le_refl _, fun _ _ => id⟩⟩

theorem hasEnded_iff :
    hasEnded ledger r = true ↔ ∀ receipt, ledger.writes[r]? = some receipt → receipt.isTerminal = true := by
  unfold hasEnded
  cases ledger.writes[r]? <;> simp

theorem Lawful.perform (lawful : Lawful N ledger) (action : WriteStore.Memory.Action) :
    Lawful N (Memory.perform N capacity ledger action) := by
  have transition := perform_transition N capacity ledger action
  refine ⟨lawful.coherent.transition transition, fun r receipt found => ?_, fun r receipt found => ?_⟩
  · obtain kept | ⟨before, present, changes⟩ | ⟨-, enters⟩ := transition.receipts r receipt found
    · exact lawful.recorded r receipt kept
    · exact (lawful.recorded r before present).change changes
    · exact recorded_of_enters enters
  · obtain kept | ⟨before, present, changes⟩ | ⟨-, enters⟩ := transition.receipts r receipt found
    · exact lawful.named r receipt kept
    · exact (names_of_changes changes).1.trans (lawful.named r before present)
    · exact (names_of_enters enters).1

theorem Onward.perform (lawful : Lawful N ledger) (action : WriteStore.Memory.Action)
    (unreopened : reopens ledger (Memory.perform N capacity ledger action) = false) :
    Onward ledger (Memory.perform N capacity ledger action) := by
  have transition := perform_transition N capacity ledger action
  have previous : ∀ r receipt, r < ledger.nextIdentity →
      (Memory.perform N capacity ledger action).writes[r]? = some receipt →
      ∃ before : Receipt, ledger.writes[r]? = some before ∧
        (receipt = before ∨ Changes N r before action receipt) := by
    intro r receipt used found
    obtain kept | ⟨before, present, changes⟩ | ⟨new, -⟩ := transition.receipts r receipt found
    · exact ⟨receipt, kept, .inl rfl⟩
    · exact ⟨before, present, .inr changes⟩
    · exact absurd used (Nat.not_lt.mpr (Nat.le_of_eq new.symm))
  refine ⟨transition.counts, fun r used ended => hasEnded_iff.mpr fun receipt found => ?_,
    fun r revisionId used past => past.step lawful.recorded transition used, fun r receipt used found => ?_⟩
  · obtain ⟨before, present, -⟩ := previous r receipt used found
    have terminal := hasEnded_iff.mp ended before present
    have listed := ExtTreeMap.mem_toList_iff_getElem?_eq_some.mpr present
    have kept := List.any_eq_false.mp unreopened (r, before) listed
    simp only [terminal, Bool.true_and, Bool.not_eq_true, Bool.not_eq_false'] at kept
    exact hasEnded_iff.mp kept receipt found
  · obtain ⟨before, present, rfl | changes⟩ := previous r receipt used found
    · exact ⟨receipt, present, Nat.le_refl _, fun _ _ => id⟩
    · have recorded := lawful.recorded r before present
      exact ⟨before, present, (recorded.proceeds changes).later.revision,
        fun same event => signed_of_changes recorded changes same⟩

/-- Whenever the generation is on the ledger, it is signed. -/
def SignedAt (ledger : WriteState) (r : ReceiptId) (revisionId : RevisionId) : Prop :=
  ∀ receipt : Receipt, ledger.writes[r]? = some receipt →
    receipt.current.publication.revisionId = revisionId → ∃ event, receipt.current.event = .signed event

/-- The generation is no later than what the ledger has. -/
def NoLater (ledger : WriteState) (r : ReceiptId) (revisionId : RevisionId) : Prop :=
  ∀ receipt : Receipt, ledger.writes[r]? = some receipt →
    revisionId ≤ receipt.current.publication.revisionId

/-- What a runner may rely on at each of its stages. -/
structure Staged (ledger : WriteState) (runner : Runner) : Prop where
  revision : NoLater ledger runner.receiptId runner.revisionId
  starting : runner.stage = .starting → ∀ session : RelayUrl, runner.active[session]? = none
  opening : runner.stage = .opening → Over ledger runner.receiptId runner.revisionId
  lanes : ∀ current, runner.stage = .lanes current → current.receiptId = runner.receiptId ∧
    current.current.publication.revisionId = runner.revisionId ∧
    ∀ event, current.current.event = .signed event → SignedAt ledger runner.receiptId runner.revisionId

/-- A lane is at a generation that is over, or its runner holds it active. -/
structure Placed (s : Deliveries) (lane : Lane) : Prop where
  used : lane.id.receiptId < s.ledger.nextIdentity
  counted : lane.runner < s.nextRunner
  revision : NoLater s.ledger lane.id.receiptId lane.id.revisionId
  signed : SignedAt s.ledger lane.id.receiptId lane.id.revisionId
  owner : Over s.ledger lane.id.receiptId lane.id.revisionId ∨
    ∃ runner ∈ s.runners, runner.ordinal = lane.runner
  held : ∀ runner ∈ s.runners, runner.ordinal = lane.runner →
    runner.receiptId = lane.id.receiptId ∧ runner.active[lane.session]? = some lane.id ∧
      lane.id.revisionId ≤ runner.revisionId

def Runner.key (runner : Runner) : Option Nat := some runner.ordinal

def Lane.key (lane : Lane) : Option (Nat × RelayUrl) := some (lane.runner, lane.session)

/-- A receipt that has not ended has one runner at most, which has one lane at most for each
relay. -/
structure Ruled (s : Deliveries) : Prop where
  ended : ∀ r ∈ s.ended, r < s.ledger.nextIdentity ∧ hasEnded s.ledger r = true
  cancels : ∀ r ∈ s.cancels, r < s.ledger.nextIdentity ∧ hasEnded s.ledger r = true
  flagged : ∀ runner ∈ s.runners, runner.ordinal ∈ s.cancelled →
    hasEnded s.ledger runner.receiptId = true
  raised : ∀ ordinal ∈ s.cancelled, ordinal < s.nextRunner
  entered : ∀ (r : ReceiptId) (ordinal : Nat), s.cancellations[r]? = some ordinal →
    ordinal < s.nextRunner ∧ ∀ runner ∈ s.runners, runner.ordinal = ordinal → runner.receiptId = r
  counted : ∀ runner ∈ s.runners, runner.receiptId < s.ledger.nextIdentity ∧ runner.ordinal < s.nextRunner
  once : (s.runners.filterMap Runner.key).Nodup
  sole : ∀ runner ∈ s.runners, s.cancellations[runner.receiptId]? = some runner.ordinal ∨
    hasEnded s.ledger runner.receiptId = true
  staged : ∀ runner ∈ s.runners, Staged s.ledger runner
  placed : ∀ lane ∈ s.lanes, Placed s lane
  apart : (s.lanes.filterMap Lane.key).Nodup

section Onward

theorem NoLater.onward (noLater : NoLater ledger r revisionId) (onward : Onward ledger after)
    (used : r < ledger.nextIdentity) : NoLater after r revisionId := by
  intro receipt found
  obtain ⟨previous, present, later, -⟩ := onward.receipts r receipt used found
  exact Nat.le_trans (noLater previous present) later

theorem SignedAt.onward (signed : SignedAt ledger r revisionId) (noLater : NoLater ledger r revisionId)
    (onward : Onward ledger after) (used : r < ledger.nextIdentity) : SignedAt after r revisionId := by
  intro receipt found same
  obtain ⟨previous, present, later, keeps⟩ := onward.receipts r receipt used found
  have equal := Nat.le_antisymm (same ▸ later) (noLater previous present)
  obtain ⟨event, holds⟩ := signed previous present equal
  exact ⟨event, keeps (same.trans equal.symm) event holds⟩

theorem Staged.onward {runner : Runner} (staged : Staged ledger runner) (onward : Onward ledger after)
    (used : runner.receiptId < ledger.nextIdentity) : Staged after runner where
  revision := staged.revision.onward onward used
  starting := staged.starting
  opening stage := onward.past _ _ used (staged.opening stage)
  lanes current stage := by
    obtain ⟨named, same, signed⟩ := staged.lanes current stage
    exact ⟨named, same, fun event holds => (signed event holds).onward staged.revision onward used⟩

theorem Placed.onward {lane : Lane} (placed : Placed s lane) (onward : Onward s.ledger t.ledger)
    (nextRunner : t.nextRunner = s.nextRunner) (runners : t.runners = s.runners) : Placed t lane where
  used := Nat.lt_of_lt_of_le placed.used onward.counts
  counted := nextRunner ▸ placed.counted
  revision := placed.revision.onward onward placed.used
  signed := placed.signed.onward placed.revision onward placed.used
  owner := by
    rw [runners]
    exact placed.owner.imp_left (onward.past _ _ placed.used)
  held := by
    rw [runners]
    exact placed.held

/-- The ledger goes on, and with it what is reported as ended. -/
theorem Ruled.commit (ruled : Ruled s) (lawful : Lawful N s.ledger) (later : Lawful N after)
    (onward : Onward s.ledger after) : Ruled (s.commit after) where
  ended r member := by
    obtain old | new := List.mem_append.mp member
    · obtain ⟨used, ended⟩ := ruled.ended r old
      exact ⟨Nat.lt_of_lt_of_le used onward.counts, onward.ended r used ended⟩
    · obtain ⟨key, ended⟩ := List.mem_filter.mp new
      refine ⟨?_, ended⟩
      obtain before | now := List.mem_append.mp key
      · obtain ⟨receipt, found⟩ := Option.isSome_iff_exists.mp
          (ExtTreeMap.mem_iff_isSome_getElem?.mp (ExtTreeMap.mem_keys.mp before))
        exact Nat.lt_of_lt_of_le (lawful.coherent.used found) onward.counts
      · obtain ⟨receipt, found⟩ := Option.isSome_iff_exists.mp
          (ExtTreeMap.mem_iff_isSome_getElem?.mp (ExtTreeMap.mem_keys.mp now))
        exact later.coherent.used found
  cancels r member := by
    obtain ⟨used, ended⟩ := ruled.cancels r member
    exact ⟨Nat.lt_of_lt_of_le used onward.counts, onward.ended r used ended⟩
  flagged runner member up :=
    onward.ended _ (ruled.counted runner member).1 (ruled.flagged runner member up)
  raised := ruled.raised
  entered := ruled.entered
  counted runner member := by
    obtain ⟨used, counted⟩ := ruled.counted runner member
    exact ⟨Nat.lt_of_lt_of_le used onward.counts, counted⟩
  once := ruled.once
  sole runner member :=
    (ruled.sole runner member).imp_right (onward.ended _ (ruled.counted runner member).1)
  staged runner member := (ruled.staged runner member).onward onward (ruled.counted runner member).1
  placed lane member := (ruled.placed lane member).onward onward rfl rfl
  apart := ruled.apart

end Onward

section Lanes

/-- A lane goes on under its key, or is over. -/
theorem Ruled.proceedLane {index : Nat} {lane : Lane} {next : Option Lane} (ruled : Ruled s)
    (found : s.lanes[index]? = some lane)
    (same : ∀ other, next = some other →
      other.runner = lane.runner ∧ other.session = lane.session ∧ other.id = lane.id) :
    Ruled { s with lanes := proceed s.lanes index next } := by
  have placed := ruled.placed lane (List.mem_of_getElem? found)
  refine { ruled with placed := ?_, apart := ?_ }
  · refine forall_mem_proceed (P := fun lane => Placed _ lane) (fun other member => ?_) found
      fun other is => ?_
    · exact { ruled.placed other member with }
    · obtain ⟨runner, session, id⟩ := same other is
      obtain ⟨used, counted, revision, signed, owner, held⟩ := placed
      rw [← id] at used revision signed owner
      rw [← runner] at counted owner
      rw [← id, ← session, ← runner] at held
      exact ⟨used, counted, revision, signed, owner, held⟩
  · refine nodup_proceed ruled.apart found fun key is => ?_
    obtain ⟨other, is, keyed⟩ := Option.bind_eq_some_iff.mp is
    obtain ⟨runner, session, -⟩ := same other is
    rw [← keyed, Lane.key, Lane.key, runner, session]

end Lanes

section Runners

variable {index : Nat} {runner next : Runner}

theorem over_of_hasEnded (noLater : NoLater ledger r revisionId) (ended : hasEnded ledger r = true) :
    Over ledger r revisionId := by
  intro receipt found
  obtain same | less := Nat.eq_or_lt_of_le (noLater receipt found)
  · exact .inr ⟨same, hasEnded_iff.mp ended receipt found⟩
  · exact .inl less

/-- What came before a generation that is over is over. -/
theorem over_of_le {before : RevisionId} (past : Over ledger r revisionId) (le : before ≤ revisionId) :
    Over ledger r before := by
  intro receipt found
  obtain less | ⟨same, terminal⟩ := past receipt found
  · exact .inl (Nat.lt_of_le_of_lt le less)
  · obtain equal | less := Nat.eq_or_lt_of_le le
    · exact .inr ⟨equal.trans same, terminal⟩
    · exact .inl (same ▸ less)

/-- A runner goes on with the lanes it holds active. -/
theorem Ruled.proceedRunner (ruled : Ruled s) (found : s.runners[index]? = some runner)
    (ordinal : next.ordinal = runner.ordinal) (receiptId : next.receiptId = runner.receiptId)
    (staged : Staged s.ledger next)
    (held : ∀ lane ∈ s.lanes, lane.runner = runner.ordinal →
      next.active[lane.session]? = some lane.id ∧ lane.id.revisionId ≤ next.revisionId) :
    Ruled { s with runners := proceed s.runners index (some next) } := by
  have inside := List.mem_of_getElem? found
  have members : ∀ {P : Runner → Prop}, (∀ other ∈ s.runners, P other) → P next →
      ∀ other ∈ proceed s.runners index (some next), P other := by
    intro P all mine
    refine forall_mem_proceed all found fun other is => ?_
    cases is
    exact mine
  refine { ruled with
    flagged := members ruled.flagged ?_, entered := ?_, counted := members ruled.counted ?_
    once := ?_, sole := members ruled.sole ?_
    staged := members ruled.staged staged, placed := ?_ }
  · intro up
    rw [receiptId]
    rw [ordinal] at up
    exact ruled.flagged runner inside up
  · intro r number entry
    obtain ⟨counted, entered⟩ := ruled.entered r number entry
    exact ⟨counted, members entered fun same =>
      receiptId.trans (entered runner inside (ordinal.symm.trans same))⟩
  · rw [receiptId, ordinal]
    exact ruled.counted runner inside
  · show ((proceed s.runners index (some next)).filterMap Runner.key).Nodup
    refine nodup_proceed ruled.once found fun key is => ?_
    rw [← is]
    exact congrArg some ordinal.symm
  · rw [receiptId, ordinal]
    exact ruled.sole runner inside
  · intro lane member
    have placed := ruled.placed lane member
    refine { placed with owner := ?_, held := members placed.held ?_ }
    · refine placed.owner.imp_right ?_
      rintro ⟨other, owns, same⟩
      obtain rfl | still := mem_proceed found (some next) owns
      · exact ⟨next, next_mem_proceed found, ordinal.trans same⟩
      · exact ⟨other, still, same⟩
    · intro same
      have mine := ordinal.symm.trans same
      exact ⟨receiptId.trans (placed.held runner inside mine).1, held lane member mine.symm⟩

theorem Ruled.moved (ruled : Ruled s) (lawful : Lawful N s.ledger)
    (found : s.runners[index]? = some runner) (moves : Moves s runner next) :
    Ruled { s with runners := proceed s.runners index (some next) } := by
  have inside := List.mem_of_getElem? found
  have staged := ruled.staged runner inside
  have holds : ∀ lane ∈ s.lanes, lane.runner = runner.ordinal →
      runner.receiptId = lane.id.receiptId ∧ runner.active[lane.session]? = some lane.id ∧
        lane.id.revisionId ≤ runner.revisionId :=
    fun lane member own => (ruled.placed lane member).held runner inside own.symm
  cases moves with
  | @started receipt stage present =>
    refine ruled.proceedRunner found rfl rfl
      ⟨fun other there => ?_, (fun is => by cases is), (fun is => by cases is), (fun _ is => by cases is)⟩ ?_
    · rw [present] at there
      cases there
      exact Nat.le_refl _
    · intro lane member own
      have active := (holds lane member own).2.1
      rw [staged.starting stage] at active
      cases active
  | @opened receipt stage present =>
    refine ruled.proceedRunner found rfl rfl
      ⟨fun other there => ?_, (fun is => by cases is), (fun is => by cases is), ?_⟩ ?_
    · rw [present] at there
      cases there
      exact Nat.le_refl _
    · intro current is
      cases is
      refine ⟨lawful.named _ _ present, rfl, fun event signed other there _ => ?_⟩
      rw [present] at there
      cases there
      exact ⟨event, signed⟩
    · intro lane member own
      obtain ⟨same, active, -⟩ := holds lane member own
      exact ⟨active, (ruled.placed lane member).revision receipt (same ▸ present)⟩
  | @opens receipt stage present newer =>
    refine ruled.proceedRunner found rfl rfl
      ⟨staged.revision, (fun is => by cases is), fun _ other there => ?_, (fun _ is => by cases is)⟩
      fun lane member own => (holds lane member own).2
    rw [present] at there
    cases there
    exact .inl newer
  | @reads receipt stage present same =>
    have equal := Nat.le_antisymm same (staged.revision receipt present)
    refine ruled.proceedRunner found rfl rfl
      ⟨staged.revision, (fun is => by cases is), (fun is => by cases is), ?_⟩
      fun lane member own => (holds lane member own).2
    intro current is
    cases is
    refine ⟨lawful.named _ _ present, equal, fun event signed other there _ => ?_⟩
    rw [present] at there
    cases there
    exact ⟨event, signed⟩
  | wakes stage =>
    refine ruled.proceedRunner found rfl rfl
      ⟨staged.revision, (fun is => by cases is), (fun is => by cases is), ?_⟩
      fun lane member own => (holds lane member own).2
    intro current is
    cases is

/-- What a runner that ends leaves behind is over. -/
theorem Ruled.over_of_leaves (ruled : Ruled s) (inside : runner ∈ s.runners)
    (leaves : Leaves s runner) {lane : Lane} (member : lane ∈ s.lanes)
    (own : runner.ordinal = lane.runner) : Over s.ledger lane.id.receiptId lane.id.revisionId := by
  have placed := ruled.placed lane member
  have staged := ruled.staged runner inside
  obtain ⟨same, active, le⟩ := placed.held runner inside own
  have past : hasEnded s.ledger runner.receiptId = true →
      Over s.ledger lane.id.receiptId lane.id.revisionId :=
    fun ended => over_of_hasEnded placed.revision (same ▸ ended)
  cases leaves with
  | starting stage =>
    rw [staged.starting stage] at active
    cases active
  | opening stage => exact over_of_le (same ▸ staged.opening stage) le
  | ended ended => exact past ended
  | flagged up => exact past (ruled.flagged runner inside up)
  | dropped gone => exact past ((ruled.sole runner inside).resolve_left gone)
  | told told => exact past (ruled.ended _ told).2

theorem Ruled.left (ruled : Ruled s) (found : s.runners[index]? = some runner)
    (leaves : Leaves s runner) :
    Ruled { s.finished runner.receiptId with runners := proceed s.runners index none } := by
  have inside := List.mem_of_getElem? found
  have old : ∀ {other : Runner}, other ∈ proceed s.runners index none → other ∈ s.runners := by
    intro other member
    obtain is | member := mem_of_mem_proceed found member
    · cases is
    · exact member
  refine ⟨ruled.ended, ruled.cancels, fun other member => ruled.flagged other (old member),
    ruled.raised, fun r ordinal entry => ?_, fun other member => ruled.counted other (old member), ?_,
    fun other member => ?_, fun other member => ruled.staged other (old member), fun lane member => ?_,
    ruled.apart⟩
  · obtain ⟨counted, entered⟩ := ruled.entered r ordinal (BTreeMap.find_of_erase entry)
    exact ⟨counted, fun other member => entered other (old member)⟩
  · show ((proceed s.runners index none).filterMap Runner.key).Nodup
    exact nodup_proceed ruled.once found fun key is => by cases is
  · show (s.cancellations.erase runner.receiptId)[other.receiptId]? = _ ∨ _
    by_cases same : runner.receiptId = other.receiptId
    · right
      obtain mine | ended := ruled.sole runner inside
      · obtain theirs | ended := ruled.sole other (old member)
        · -- Both would be the one that is entered.
          rw [← same, mine] at theirs
          have differs : Runner.key other ≠ some runner.ordinal :=
            ne_key_of_mem_proceed ruled.once found rfl member
          exact absurd theirs.symm differs
        · exact ended
      · exact same ▸ ended
    · rw [BTreeMap.find_erase_of_ne same]
      exact ruled.sole other (old member)
  · have placed := ruled.placed lane member
    refine ⟨placed.used, placed.counted, placed.revision, placed.signed, ?_,
      fun other member => placed.held other (old member)⟩
    obtain past | ⟨other, owns, same⟩ := placed.owner
    · exact .inl past
    · obtain rfl | still := mem_proceed found none owns
      · exact .inl (ruled.over_of_leaves inside leaves member same)
      · exact .inr ⟨other, still, same⟩

theorem Ruled.retired {position : Nat} {lane : Lane} (ruled : Ruled s)
    (found : s.runners[index]? = some runner) (present : s.lanes[position]? = some lane)
    (own : lane.runner = runner.ordinal) :
    Ruled { s with
      runners := proceed s.runners index (some (runner.retire lane))
      lanes := proceed s.lanes position none } := by
  have inside := List.mem_of_getElem? found
  have staged := ruled.staged runner inside
  have fewer : Ruled { s with lanes := proceed s.lanes position none } :=
    ruled.proceedLane present fun _ is => by cases is
  refine fewer.proceedRunner found rfl rfl
    ⟨staged.revision, (fun is => by cases is), (fun is => by cases is), (fun _ is => by cases is)⟩ ?_
  intro other member same
  change other ∈ proceed s.lanes position none at member
  have differs := ne_key_of_mem_proceed ruled.apart present rfl member
  have apart : lane.session ≠ other.session := by
    intro clash
    rw [Lane.key, own, clash, ← same] at differs
    exact differs rfl
  have old : other ∈ s.lanes := by
    obtain is | old := mem_of_mem_proceed present member
    · cases is
    · exact old
  obtain ⟨-, active, le⟩ := (ruled.placed other old).held runner inside same.symm
  refine ⟨?_, le⟩
  show (if _ then runner.active.erase lane.session else runner.active)[other.session]? = _
  split
  · rw [BTreeMap.find_erase_of_ne apart]
    exact active
  · exact active

theorem Ruled.started (ruled : Ruled s) (used : r < s.ledger.nextIdentity) (free : r ∉ s.cancellations) :
    Ruled { s with
      cancellations := s.cancellations.insert r s.nextRunner
      nextRunner := s.nextRunner + 1
      runners := s.runners ++ [⟨s.nextRunner, r, .starting, 0, ∅⟩] } := by
  let new : Runner := ⟨s.nextRunner, r, .starting, 0, ∅⟩
  have members : ∀ {P : Runner → Prop}, (∀ other ∈ s.runners, P other) → P new →
      ∀ other ∈ s.runners ++ [new], P other :=
    fun all mine => List.forall_mem_append.mpr ⟨all, List.forall_mem_singleton.mpr mine⟩
  have fresh : ∀ other ∈ s.runners, other.ordinal ≠ s.nextRunner :=
    fun other member => Nat.ne_of_lt (ruled.counted other member).2
  refine ⟨ruled.ended, ruled.cancels, members ruled.flagged ?_,
    fun ordinal up => Nat.lt_succ_of_lt (ruled.raised ordinal up), fun q ordinal entry => ?_,
    members (fun other member => ?_) ⟨used, Nat.lt_succ_self _⟩, ?_, members (fun other member => ?_) ?_,
    members ruled.staged ?_, fun lane member => ?_, ruled.apart⟩
  · intro up
    exact absurd (ruled.raised _ up) (Nat.lt_irrefl _)
  · change (s.cancellations.insert r s.nextRunner)[q]? = some ordinal at entry
    rw [BTreeMap.find_insert] at entry
    split at entry
    · rename_i same
      cases entry
      exact ⟨Nat.lt_succ_self _, members (fun other member is => absurd is (fresh other member))
        fun _ => same⟩
    · obtain ⟨counted, entered⟩ := ruled.entered q ordinal entry
      exact ⟨Nat.lt_succ_of_lt counted, members entered fun is => absurd counted (is ▸ Nat.lt_irrefl _)⟩
  · exact (ruled.counted other member).imp_right Nat.lt_succ_of_lt
  · show ((s.runners ++ [new]).filterMap Runner.key).Nodup
    rw [List.filterMap_append]
    refine List.nodup_append.mpr ⟨ruled.once, by simp [Runner.key], ?_⟩
    rintro ordinal member _ new rfl
    obtain ⟨other, inside, key⟩ := List.mem_filterMap.mp member
    obtain rfl := Option.some.inj key
    simp only [List.filterMap_cons, Runner.key, List.filterMap_nil, List.mem_singleton] at new
    exact fresh other inside new
  · show (s.cancellations.insert r s.nextRunner)[other.receiptId]? = _ ∨ _
    by_cases same : r = other.receiptId
    · refine .inr ((ruled.sole other member).resolve_left fun entry => free ?_)
      rw [ExtTreeMap.mem_iff_isSome_getElem?, same, entry]
      rfl
    · rw [BTreeMap.find_insert_of_ne same]
      exact ruled.sole other member
  · exact .inl BTreeMap.find_insert_self
  · refine ⟨fun _ _ => Nat.zero_le _, fun _ session => ?_, (fun is => by cases is), (fun _ is => by cases is)⟩
    exact ExtTreeMap.getElem?_empty
  · have placed := ruled.placed lane member
    refine ⟨placed.used, Nat.lt_succ_of_lt placed.counted, placed.revision, placed.signed,
      placed.owner.imp_right ?_, members placed.held fun is => ?_⟩
    · rintro ⟨other, owns, same⟩
      exact ⟨other, List.mem_append_left _ owns, same⟩
    · exact absurd placed.counted (is ▸ Nat.lt_irrefl _)

theorem Ruled.signalled {call : Nat} (ruled : Ruled s) (found : s.cancels[call]? = some r) :
    Ruled { s.finished r with
      cancels := s.cancels.eraseIdx call
      cancelled := s.cancelled ++ (s.cancellations[r]?).toList } := by
  have ended := ruled.cancels r (List.mem_of_getElem? found)
  refine ⟨ruled.ended, fun q member => ruled.cancels q (List.mem_of_mem_eraseIdx member),
    fun runner member up => ?_, fun ordinal up => ?_, fun q ordinal entry => ?_, ruled.counted, ruled.once,
    fun runner member => ?_, ruled.staged, fun lane member => ?_, ruled.apart⟩
  · obtain up | now := List.mem_append.mp up
    · exact ruled.flagged runner member up
    · obtain ⟨-, entered⟩ := ruled.entered r runner.ordinal (Option.mem_toList.mp now)
      rw [entered runner member rfl]
      exact ended.2
  · obtain up | now := List.mem_append.mp up
    · exact ruled.raised ordinal up
    · exact (ruled.entered r ordinal (Option.mem_toList.mp now)).1
  · exact ruled.entered q ordinal (BTreeMap.find_of_erase entry)
  · show (s.cancellations.erase r)[runner.receiptId]? = _ ∨ _
    by_cases same : r = runner.receiptId
    · exact .inr (same ▸ ended.2)
    · rw [BTreeMap.find_erase_of_ne same]
      exact ruled.sole runner member
  · exact { ruled.placed lane member with }

/-- What `startLanes` starts, and what its runner then holds active. -/
structure Launches (runner : Runner) (receipt : Receipt)
    (result : BTreeMap RelayUrl LaneId × List Lane) : Prop where
  keeps : ∀ (session : RelayUrl) (id : LaneId), runner.active[session]? = some id →
    result.1[session]? = some id
  lanes : ∀ lane ∈ result.2, lane.runner = runner.ordinal ∧
    lane.stage = .reading ∧ lane.id.receiptId = receipt.receiptId ∧
    lane.id.revisionId = receipt.current.publication.revisionId ∧
    result.1[lane.session]? = some lane.id ∧ runner.active[lane.session]? = none ∧
    ∃ event, receipt.current.event = .signed event
  apart : (result.2.filterMap Lane.key).Nodup

theorem Launches.startLane {receipt : Receipt} {result : BTreeMap RelayUrl LaneId × List Lane}
    {event : Event} (signed : receipt.current.event = .signed event)
    (launches : Launches runner receipt result) (session : RelayUrl) :
    Launches runner receipt (startLane runner.ordinal receipt result session) := by
  unfold Deliveries.startLane
  split
  · rename_i free
    obtain ⟨keeps, lanes, apart⟩ := launches
    have vacant : result.1[session]? = none := ExtTreeMap.getElem?_eq_none free.2
    have other : ∀ {held : RelayUrl} {id : LaneId}, result.1[held]? = some id → session ≠ held := by
      rintro held id found rfl
      rw [vacant] at found
      cases found
    refine ⟨fun held id found => ?_, ?_, ?_⟩
    · have found := keeps held id found
      exact (BTreeMap.find_insert_of_ne (other found)).trans found
    · refine List.forall_mem_append.mpr ⟨fun lane member => ?_, List.forall_mem_singleton.mpr ?_⟩
      · obtain ⟨own, stage, receiptId, revisionId, active, before, is⟩ := lanes lane member
        exact ⟨own, stage, receiptId, revisionId, (BTreeMap.find_insert_of_ne (other active)).trans active,
          before, is⟩
      · refine ⟨rfl, rfl, rfl, rfl, BTreeMap.find_insert_self, ?_, event, signed⟩
        cases found : runner.active[session]? with
        | none => rfl
        | some id => exact absurd rfl (other (keeps session id found))
    · rw [List.filterMap_append]
      refine List.nodup_append.mpr ⟨apart, by simp [Lane.key], ?_⟩
      rintro key member _ new rfl
      obtain ⟨lane, inside, keyed⟩ := List.mem_filterMap.mp member
      obtain ⟨-, -, -, -, active, -⟩ := lanes lane inside
      simp only [List.filterMap_cons, Lane.key, List.filterMap_nil, List.mem_singleton] at new
      rw [Lane.key, new] at keyed
      have same : lane.session = session := congrArg Prod.snd (Option.some.inj keyed)
      exact other active same.symm
  · exact launches

theorem launches_startLanes (runner : Runner) (receipt : Receipt) :
    Launches runner receipt (startLanes runner receipt) := by
  have none : Launches runner receipt (runner.active, []) :=
    ⟨fun _ _ => id, (fun _ member => by cases member), List.nodup_nil⟩
  unfold startLanes
  split
  · exact none
  · rename_i event signed
    generalize receipt.desiredDestinations.toList = sessions
    revert none
    generalize (runner.active, ([] : List Lane)) = result
    induction sessions generalizing result with
    | nil => exact id
    | cons session sessions ih => exact fun launches => ih _ (launches.startLane signed session)

theorem Ruled.launched {receipt : Receipt} (ruled : Ruled s)
    (found : s.runners[index]? = some runner) (stage : runner.stage = .lanes receipt) :
    Ruled { s with
      lanes := s.lanes ++ (startLanes runner receipt).2
      runners := proceed s.runners index
        (some { runner with active := (startLanes runner receipt).1, stage := .selecting }) } := by
  have inside := List.mem_of_getElem? found
  have staged := ruled.staged runner inside
  obtain ⟨named, same, signed⟩ := staged.lanes receipt stage
  obtain ⟨keeps, lanes, apart⟩ := launches_startLanes runner receipt
  let next : Runner := { runner with active := (startLanes runner receipt).1, stage := .selecting }
  have first : Ruled { s with runners := proceed s.runners index (some next) } := by
    refine ruled.proceedRunner found rfl rfl
      ⟨staged.revision, (fun is => by cases is), (fun is => by cases is), (fun _ is => by cases is)⟩ ?_
    intro lane member own
    obtain ⟨-, active, le⟩ := (ruled.placed lane member).held runner inside own.symm
    exact ⟨keeps _ _ active, le⟩
  refine { first with placed := ?_, apart := ?_ }
  · refine List.forall_mem_append.mpr ⟨fun lane member => ?_, fun lane member => ?_⟩
    · exact { first.placed lane member with }
    · obtain ⟨own, -, receiptId, revisionId, active, -, event, holds⟩ := lanes lane member
      rw [named] at receiptId
      rw [same] at revisionId
      refine ⟨?_, ?_, ?_, ?_, .inr ⟨next, next_mem_proceed found, own.symm⟩, fun other member is => ?_⟩
      · rw [receiptId]
        exact (ruled.counted runner inside).1
      · rw [own]
        exact (ruled.counted runner inside).2
      · rw [receiptId, revisionId]
        exact staged.revision
      · rw [receiptId, revisionId]
        exact signed event holds
      · have keyed : Runner.key other = some next.ordinal := congrArg some (is.trans own)
        obtain rfl := eq_of_key first.once (next_mem_proceed found) member rfl keyed
        exact ⟨receiptId.symm, active, Nat.le_of_eq revisionId⟩
  · rw [List.filterMap_append]
    refine List.nodup_append.mpr ⟨ruled.apart, apart, ?_⟩
    rintro key member _ new rfl
    obtain ⟨old, before, keyed⟩ := List.mem_filterMap.mp member
    obtain ⟨lane, after, again⟩ := List.mem_filterMap.mp new
    obtain ⟨own, -, -, -, -, vacant, -⟩ := lanes lane after
    rw [← keyed] at again
    obtain ⟨runners, sessions⟩ := Prod.mk.inj (Option.some.inj again)
    obtain ⟨-, active, -⟩ := (ruled.placed old before).held runner inside (own.symm.trans runners)
    rw [← sessions, vacant] at active
    cases active

end Runners

section Steps

theorem ledger_of_stepped (stepped : Stepped N capacity policy s t) :
    t.ledger = s.ledger ∨ ∃ action, t.ledger = perform N capacity s.ledger action := by
  cases stepped with
  | @stored action => exact .inr ⟨action, rfl⟩
  | @cancelled r => exact .inr ⟨.cancel r, rfl⟩
  | @gaveUp _ attempts reason lane => exact .inr ⟨.recordOutcome lane.id.writeId lane.id.receiptId
      lane.id.revisionId lane.id.eventId lane.session attempts (.givenUp reason), rfl⟩
  | @recorded _ number lane outcome => exact .inr ⟨.recordOutcome lane.id.writeId lane.id.receiptId
      lane.id.revisionId lane.id.eventId lane.session number (deliveryOutcome outcome), rfl⟩
  | @begun _ attempts lane _ _ _ _ began | @called _ attempts lane _ _ _ _ _ began =>
    exact .inr ⟨.beginAttempt lane.id.writeId lane.id.receiptId lane.id.revisionId lane.id.eventId
      lane.session (attempts + 1), (congrArg Prod.snd began).symm⟩
  | signalled | started | idle | moved | left | launched | retired | turned | refused | answered
  | sent | past => exact .inl rfl

theorem Lawful.stepped (lawful : Lawful N s.ledger) (stepped : Stepped N capacity policy s t) :
    Lawful N t.ledger := by
  obtain same | ⟨action, same⟩ := ledger_of_stepped stepped
  · exact same ▸ lawful
  · exact same ▸ lawful.perform action

theorem onward_of_stepped (lawful : Lawful N s.ledger) (stepped : Stepped N capacity policy s t)
    (unreopened : reopens s.ledger t.ledger = false) : Onward s.ledger t.ledger := by
  obtain same | ⟨action, same⟩ := ledger_of_stepped stepped
  · exact same ▸ .refl s.ledger
  · rw [same] at unreopened ⊢
    exact .perform lawful action unreopened

/-- What the publisher is asked and answers does not matter to who runs what. -/
theorem Ruled.logged (ruled : Ruled s) (log : List Handover) : Ruled { s with log := log } :=
  { ruled with placed := fun lane member => { ruled.placed lane member with } }

theorem Ruled.step (ruled : Ruled s) (lawful : Lawful N s.ledger)
    (stepped : Stepped N capacity policy s t) (unreopened : reopens s.ledger t.ledger = false) :
    Ruled t := by
  have later := lawful.stepped stepped
  have onward := onward_of_stepped lawful stepped unreopened
  cases stepped with
  | stored => exact ruled.commit lawful later onward
  | @cancelled r receipt found ended =>
    have committed := ruled.commit lawful later onward
    refine { committed with
      cancels := List.forall_mem_append.mpr ⟨committed.cancels, List.forall_mem_singleton.mpr ?_⟩
      placed := fun lane member => { committed.placed lane member with } }
    exact ⟨Nat.lt_of_lt_of_le (lawful.coherent.used found) onward.counts, ended⟩
  | signalled found => exact ruled.signalled found
  | started used free => exact ruled.started used free
  | idle => exact ruled
  | moved found moves => exact ruled.moved lawful found moves
  | left found leaves => exact ruled.left found leaves
  | launched found stage => exact ruled.launched found stage
  | retired found present own => exact ruled.retired found present own
  | turned found | sent found =>
    refine ruled.proceedLane found fun other is => ?_
    cases is
    exact ⟨rfl, rfl, rfl⟩
  | gaveUp found | refused found | begun found | recorded found =>
    refine (ruled.commit lawful later onward).proceedLane found fun other is => ?_
    cases is
    exact ⟨rfl, rfl, rfl⟩
  | @called index _ lane _ _ ledger found _ _ _ attempt =>
    have kept : Ruled { s.commit ledger with
        lanes := proceed s.lanes index (some { lane with stage := .publishing attempt }) } := by
      refine (ruled.commit lawful later onward).proceedLane found fun other is => ?_
      cases is
      exact ⟨rfl, rfl, rfl⟩
    exact kept.logged _
  | @answered index lane attempt outcome found =>
    have kept : Ruled { s with
        lanes := proceed s.lanes index
          (some { lane with stage := .recording attempt.number outcome }) } := by
      refine ruled.proceedLane found fun other is => ?_
      cases is
      exact ⟨rfl, rfl, rfl⟩
    exact kept.logged _
  | past found => exact ruled.proceedLane found fun _ is => by cases is

/-- Two lanes at one target, of which neither is over, are one. -/
theorem Ruled.one_lane (ruled : Ruled s) {lane other : Lane} (first : lane ∈ s.lanes)
    (second : other ∈ s.lanes) (same : other.target = lane.target)
    (live : ¬Over s.ledger lane.id.receiptId lane.id.revisionId) : Lane.key lane = Lane.key other := by
  obtain ⟨receiptIds, revisionIds, sessions⟩ :
      other.id.receiptId = lane.id.receiptId ∧ other.id.revisionId = lane.id.revisionId ∧
        other.session = lane.session := by
    simpa only [Lane.target, Target.mk.injEq] using same
  have placed := ruled.placed lane first
  have placed' := ruled.placed other second
  obtain ⟨runner, inside, own⟩ := placed.owner.resolve_left live
  obtain ⟨runner', inside', own'⟩ := placed'.owner.resolve_left
    (by rw [receiptIds, revisionIds]; exact live)
  have mine := (placed.held runner inside own).1
  have mine' := (placed'.held runner' inside' own').1
  have ongoing : hasEnded s.ledger lane.id.receiptId ≠ true :=
    fun ended => live (over_of_hasEnded placed.revision ended)
  have entry := (ruled.sole runner inside).resolve_right (by rw [mine]; exact ongoing)
  have entry' := (ruled.sole runner' inside').resolve_right (by rw [mine', receiptIds]; exact ongoing)
  rw [mine', receiptIds, ← mine, entry] at entry'
  rw [Lane.key, Lane.key, ← own, ← own', sessions, Option.some.inj entry']

end Steps

end Fava.Publication.Deliveries
