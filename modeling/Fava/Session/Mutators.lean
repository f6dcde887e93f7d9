import Fava.Lib.Guarded
import Fava.Lib.Run
import Fava.Session.Accounts

namespace Fava.Session

open Std Fava.Lib Fava.Nostr

/-- What the session's lock guards. -/
structure Locked where
  accounts : BTreeSet PublicKey
  signers : BTreeMap PublicKey Nat
  currentAccount : Option PublicKey
  currentAccountRevision : Nat
  revision : Nat

/-- A mutator under the lock: what it wrote before it failed stays written. -/
abbrev Mutator := Lib.Mutator SessionError Locked

namespace Locked

def nextRevision (current : Nat) : Mutator Nat :=
  if current < 2 ^ 64 - 1 then pure (current + 1) else throw .generationExhausted

def commitRevision (revision : Nat) : Mutator Unit :=
  modify fun state => { state with revision }

def addAccount (key : PublicKey) : Mutator Unit := do
  let state ← get
  if state.accounts.contains key then throw (.duplicateAccount key)
  if state.accounts.size = accountCapacity then throw (.accountCapacityExceeded accountCapacity)
  let revision ← nextRevision state.revision
  modify fun state => { state with accounts := state.accounts.insert key }
  commitRevision revision

def selectAccount (key : PublicKey) : Mutator Unit := do
  let state ← get
  if !state.accounts.contains key then throw (.missingAccount key)
  if state.currentAccount = some key then return
  let revision ← nextRevision state.revision
  modify fun state => { state with currentAccount := some key }
  modify fun state => { state with currentAccountRevision := revision }
  commitRevision revision

def clearCurrentAccount : Mutator Unit := do
  let state ← get
  if state.currentAccount = none then return
  let revision ← nextRevision state.revision
  modify fun state => { state with currentAccount := none }
  modify fun state => { state with currentAccountRevision := revision }
  commitRevision revision

def removeAccount (key : PublicKey) : Mutator Unit := do
  let state ← get
  if !state.accounts.contains key then throw (.missingAccount key)
  let revision ← nextRevision state.revision
  modify fun state => { state with accounts := state.accounts.erase key }
  modify fun state => { state with signers := state.signers.erase key }
  if state.currentAccount = some key then
    modify fun state => { state with currentAccount := none }
    modify fun state => { state with currentAccountRevision := revision }
  commitRevision revision

def addSigner (key : PublicKey) : Mutator Unit := do
  let state ← get
  if state.signers.contains key then throw (.duplicateSigner key)
  if !state.accounts.contains key && state.accounts.size = accountCapacity then
    throw (.accountCapacityExceeded accountCapacity)
  let revision ← nextRevision state.revision
  modify fun state => { state with accounts := state.accounts.insert key }
  modify fun state => { state with signers := state.signers.insert key revision }
  commitRevision revision

def replaceSigner (key : PublicKey) : Mutator Unit := do
  let state ← get
  if !state.signers.contains key then throw (.missingSigner key)
  let revision ← nextRevision state.revision
  modify fun state => { state with signers := state.signers.insert key revision }
  commitRevision revision

def removeSigner (key : PublicKey) : Mutator Unit := do
  let state ← get
  if !state.signers.contains key then throw (.missingSigner key)
  let revision ← nextRevision state.revision
  modify fun state => { state with signers := state.signers.erase key }
  commitRevision revision

def exec : State.Command → Mutator Unit
  | .addAccount key => addAccount key
  | .selectAccount key => selectAccount key
  | .clearCurrentAccount => clearCurrentAccount
  | .removeAccount key => removeAccount key
  | .addSigner key => addSigner key
  | .replaceSigner key => replaceSigner key
  | .removeSigner key => removeSigner key

def call (s : Locked) (command : State.Command) : Except SessionError Unit × Locked :=
  leaves (exec command) s

/-- `Session::new`, one signer after the other. -/
def attach (s : Locked) (key : PublicKey) : Except SessionError Locked :=
  if s.signers.contains key then .error (.duplicateSigner key)
  else if s.accounts.size = accountCapacity then .error (.accountCapacityExceeded accountCapacity)
  else if s.revision < 2 ^ 64 - 1 then .ok { s with
    accounts := s.accounts.insert key
    signers := s.signers.insert key (s.revision + 1)
    revision := s.revision + 1 }
  else .error .generationExhausted

def new (signers : List PublicKey) : Except SessionError Locked :=
  signers.foldlM attach ⟨∅, ∅, none, 0, 0⟩

def isCurrent (s : Locked) (key : PublicKey) (generation : Nat) : Bool :=
  s.signers[key]?.any (· = generation)

def currentAccountSnapshot (s : Locked) : Selection := (s.currentAccount, s.currentAccountRevision)

/-- Every call leaves a state, whether it succeeds or not. -/
def step (s : Locked) (command : State.Command) : Option Locked := some (s.call command).2

def ofState (s : State) : Locked :=
  ⟨s.accounts, s.signers, s.selection.1, s.selection.2, s.revision⟩

variable {s t u : Locked}

theorem leaves_nextRevision {β : Type} (s : Locked) (n : Nat) (next : Nat → Mutator β) :
    leaves (nextRevision n >>= next) s =
      if n < 2 ^ 64 - 1 then leaves (next (n + 1)) s else (.error .generationExhausted, s) := by
  by_cases room : n < 2 ^ 64 - 1
  · rw [nextRevision, if_pos room, if_pos room]
    rfl
  · rw [nextRevision, if_neg room, if_neg room]
    rfl

/-- What a call does that computes the next state or fails. -/
def settles (s : State) : Except SessionError State → Except SessionError Unit × Locked
  | .ok t => (.ok (), ofState t)
  | .error error => (.error error, ofState s)

theorem settles_ite (s : State) (c : Prop) [Decidable c] (first second : Except SessionError State) :
    settles s (if c then first else second) = if c then settles s first else settles s second := by
  split <;> rfl

theorem settles_commit (s : State) (accounts : BTreeSet PublicKey)
    (signers : Nat → BTreeMap PublicKey Nat) (select : Option (Option PublicKey)) :
    settles s (s.commit accounts signers select) =
      if s.revision < 2 ^ 64 - 1 then
        (.ok (), ⟨accounts, signers (s.revision + 1),
          (select.elim s.selection (·, s.revision + 1)).1,
          (select.elim s.selection (·, s.revision + 1)).2, s.revision + 1⟩)
      else (.error .generationExhausted, ofState s) := by
  unfold State.commit
  rw [settles_ite]
  rfl

/-- A mutator writes nothing before it is sure to succeed: it leaves the next
state or the one it found. -/
theorem call_ofState (s : State) (command : State.Command) :
    (ofState s).call command = settles s (s.apply command) := by
  cases command with
  | addAccount key =>
    simp only [call, exec, addAccount, State.apply, State.addAccount, commitRevision, settles_ite,
      settles_commit, leaves_get_bind, leaves_ite, leaves_throw_bind,
      leaves_nextRevision, leaves_modify_bind, leaves_modify]
    rfl
  | selectAccount key =>
    simp only [call, exec, selectAccount, State.apply, State.selectAccount, commitRevision,
      settles_ite, settles_commit, leaves_get_bind, leaves_ite, leaves_throw_bind,
      leaves_pure, leaves_nextRevision, leaves_modify_bind, leaves_modify]
    rfl
  | clearCurrentAccount =>
    simp only [call, exec, clearCurrentAccount, State.apply, State.clearCurrentAccount,
      commitRevision, settles_ite, settles_commit, leaves_get_bind, leaves_ite, leaves_pure,
      leaves_nextRevision, leaves_modify_bind, leaves_modify]
    rfl
  | removeAccount key =>
    simp only [call, exec, removeAccount, State.apply, State.removeAccount, commitRevision,
      settles_ite, settles_commit, leaves_get_bind, leaves_ite, leaves_throw_bind,
      leaves_nextRevision, leaves_modify_bind, leaves_modify]
    by_cases current : s.selection.1 = some key
    · have held : (ofState s).currentAccount = some key := current
      simp only [if_pos held, if_pos current]
      rfl
    · have held : ¬ (ofState s).currentAccount = some key := current
      simp only [if_neg held, if_neg current]
      rfl
  | addSigner key =>
    simp only [call, exec, addSigner, State.apply, State.addSigner, commitRevision, settles_ite,
      settles_commit, leaves_get_bind, leaves_ite, leaves_throw_bind,
      leaves_nextRevision, leaves_modify_bind, leaves_modify]
    rfl
  | replaceSigner key =>
    simp only [call, exec, replaceSigner, State.apply, State.replaceSigner, commitRevision,
      settles_ite, settles_commit, leaves_get_bind, leaves_ite, leaves_throw_bind,
      leaves_nextRevision, leaves_modify_bind, leaves_modify]
    rfl
  | removeSigner key =>
    simp only [call, exec, removeSigner, State.apply, State.removeSigner, commitRevision,
      settles_ite, settles_commit, leaves_get_bind, leaves_ite, leaves_throw_bind,
      leaves_nextRevision, leaves_modify_bind, leaves_modify]
    rfl

/-- Every signer's key and the current account are accounts, of which there are
not too many; and generations are told apart and counted by the revision. -/
structure Lawful (s : Locked) : Prop where
  attached : ∀ key ∈ s.signers, key ∈ s.accounts
  current : ∀ key, s.currentAccount = some key → key ∈ s.accounts
  capacity : s.accounts.size ≤ accountCapacity
  distinct : ∀ (key other : PublicKey) (generation : Nat), s.signers[key]? = some generation →
    s.signers[other]? = some generation → key = other
  counted : ∀ (key : PublicKey) (generation : Nat), s.signers[key]? = some generation →
    generation ≤ s.revision
  selected : s.currentAccountRevision ≤ s.revision

/-- What calls have done to the attachments, the selection and the revision: an
attachment that is new carries a new generation, and so does a selection. -/
structure Later (s t : Locked) : Prop where
  revision : s.revision ≤ t.revision
  attached : ∀ (key : PublicKey) (generation : Nat), t.signers[key]? = some generation →
    s.signers[key]? = some generation ∨ s.revision < generation
  selected : t.currentAccountSnapshot = s.currentAccountSnapshot ∨
    s.revision < t.currentAccountRevision

theorem Later.refl (s : Locked) : Later s s :=
  ⟨Nat.le_refl _, fun _ _ => .inl, .inl rfl⟩

theorem Later.trans (first : Later s t) (second : Later t u) : Later s u where
  revision := first.revision.trans second.revision
  attached key generation found := by
    obtain old | new := second.attached key generation found
    · exact first.attached key generation old
    · exact .inr (Nat.lt_of_le_of_lt first.revision new)
  selected := by
    obtain same | new := second.selected
    · obtain before | begun := first.selected
      · exact .inl (same.trans before)
      · rw [show u.currentAccountRevision = t.currentAccountRevision from congrArg Prod.snd same]
        exact .inr begun
    · exact .inr (Nat.lt_of_le_of_lt first.revision new)

variable {r q : State} {accounts : BTreeSet PublicKey} {signers : Nat → BTreeMap PublicKey Nat}
  {select : Option (Option PublicKey)} {command : State.Command} {key : PublicKey}

theorem commit_fields (committed : r.commit accounts signers select = .ok q) :
    q.accounts = accounts ∧ q.signers = signers (r.revision + 1) ∧ q.revision = r.revision + 1 ∧
      q.selection = select.elim r.selection (·, r.revision + 1) := by
  unfold State.commit at committed
  split at committed <;> cases committed
  exact ⟨rfl, rfl, rfl, rfl⟩

/-- A commit keeps the laws and is later if all it attaches is one signer, under
the new revision. -/
theorem commit_lawful (fresh : PublicKey) (lawful : Lawful (ofState r))
    (committed : r.commit accounts signers select = .ok q)
    (one : ∀ (key : PublicKey) (generation : Nat),
      (signers (r.revision + 1))[key]? = some generation →
        r.signers[key]? = some generation ∨ key = fresh ∧ generation = r.revision + 1)
    (attached : ∀ key ∈ signers (r.revision + 1), key ∈ accounts)
    (current : ∀ key, (select.elim r.selection (·, r.revision + 1)).1 = some key → key ∈ accounts)
    (capacity : accounts.size ≤ accountCapacity) : Lawful (ofState q) ∧ Later (ofState r) (ofState q) := by
  obtain ⟨has, attaches, revision, selects⟩ := commit_fields committed
  have counted : ∀ (key : PublicKey) (generation : Nat), r.signers[key]? = some generation →
    generation ≤ r.revision := lawful.counted
  have distinct : ∀ (key other : PublicKey) (generation : Nat),
    r.signers[key]? = some generation → r.signers[other]? = some generation → key = other :=
      lawful.distinct
  refine ⟨⟨?_, ?_, ?_, fun key other generation first second => ?_, fun key generation found => ?_,
    q.selected⟩, ?_, fun key generation found => ?_, ?_⟩
  · simpa only [ofState, has, attaches] using attached
  · simpa only [ofState, has, selects] using current
  · simpa only [ofState, has] using capacity
  · simp only [ofState, attaches] at first second
    obtain old | ⟨rfl, rfl⟩ := one key generation first
    · obtain before | ⟨rfl, rfl⟩ := one other generation second
      · exact distinct key other generation old before
      · exact absurd (counted key _ old) (Nat.not_succ_le_self _)
    · obtain before | ⟨rfl, -⟩ := one other _ second
      · exact absurd (counted other _ before) (Nat.not_succ_le_self _)
      · rfl
  · simp only [ofState, attaches, revision] at found ⊢
    obtain old | ⟨-, rfl⟩ := one key generation found
    · exact Nat.le_succ_of_le (counted key generation old)
    · exact Nat.le_refl _
  · simp only [ofState, revision]
    exact Nat.le_succ _
  · simp only [ofState, attaches] at found ⊢
    obtain old | ⟨-, rfl⟩ := one key generation found
    · exact .inl old
    · exact .inr (Nat.lt_succ_self _)
  · simp only [currentAccountSnapshot, ofState, selects]
    cases select with
    | none => exact .inl rfl
    | some account => exact .inr (Nat.lt_succ_self _)

theorem size_insert_le (accounts : BTreeSet PublicKey) (key : PublicKey)
    (within : accounts.size ≤ accountCapacity)
    (room : key ∈ accounts ∨ accounts.size ≠ accountCapacity) :
    (accounts.insert key).size ≤ accountCapacity := by
  rw [ExtTreeSet.size_insert]
  split
  · exact within
  · rename_i absent
    obtain present | room := room
    · exact absurd (ExtTreeSet.contains_iff_mem.mpr present) absent
    · exact Nat.lt_of_le_of_ne within room

section Apply

variable (lawful : Lawful (ofState r))
include lawful

theorem apply_addAccount (done : r.addAccount key = .ok q) :
    Lawful (ofState q) ∧ Later (ofState r) (ofState q) := by
  unfold State.addAccount at done
  split at done
  · cases done
  · split at done
    · cases done
    · rename_i room
      refine commit_lawful key lawful done (fun _ _ => .inl) ?_ ?_
        (size_insert_le r.accounts key lawful.capacity (.inr room))
      · exact fun other held => BTreeSet.mem_insert.mpr (.inr (lawful.attached other held))
      · exact fun other chosen => BTreeSet.mem_insert.mpr (.inr (lawful.current other chosen))

theorem apply_selectAccount (done : r.selectAccount key = .ok q) :
    Lawful (ofState q) ∧ Later (ofState r) (ofState q) := by
  unfold State.selectAccount at done
  split at done
  · cases done
  · rename_i present
    split at done
    · cases done
      exact ⟨lawful, .refl _⟩
    · refine commit_lawful key lawful done (fun _ _ => .inl) lawful.attached ?_
        lawful.capacity
      intro other chosen
      obtain rfl : key = other := Option.some.inj chosen
      exact ExtTreeSet.contains_iff_mem.mp (by simpa using present)

theorem apply_clearCurrentAccount (done : r.clearCurrentAccount = .ok q) :
    Lawful (ofState q) ∧ Later (ofState r) (ofState q) := by
  unfold State.clearCurrentAccount at done
  split at done
  · cases done
    exact ⟨lawful, .refl _⟩
  · refine commit_lawful 0 lawful done (fun _ _ => .inl) lawful.attached ?_
      lawful.capacity
    intro other chosen
    cases chosen

theorem apply_removeAccount (done : r.removeAccount key = .ok q) :
    Lawful (ofState q) ∧ Later (ofState r) (ofState q) := by
  unfold State.removeAccount at done
  split at done
  · cases done
  · refine commit_lawful key lawful done (fun other generation found => ?_)
      (fun other held => ?_) (fun other chosen => ?_) ?_
    · exact .inl (BTreeMap.find_of_erase found)
    · obtain ⟨apart, held⟩ := ExtTreeMap.mem_erase.mp held
      exact ExtTreeSet.mem_erase.mpr ⟨apart, lawful.attached other held⟩
    · split at chosen
      · cases chosen
      · rename_i unselected
        refine ExtTreeSet.mem_erase.mpr ⟨fun same => unselected ?_, lawful.current other chosen⟩
        rw [LawfulEqCmp.eq_of_compare same]
        exact chosen
    · exact ExtTreeSet.size_erase_le.trans lawful.capacity

/-- Attaching a signer, whose key is an account or becomes one. -/
theorem attach_lawful
    (done : r.commit accounts (r.signers.insert key) none = .ok q) (has : key ∈ accounts)
    (kept : ∀ other ∈ r.accounts, other ∈ accounts) (capacity : accounts.size ≤ accountCapacity) :
    Lawful (ofState q) ∧ Later (ofState r) (ofState q) := by
  refine commit_lawful key lawful done (fun other generation found => ?_)
    (fun other held => ?_) (fun other chosen => kept other (lawful.current other chosen)) capacity
  · rw [BTreeMap.find_insert] at found
    split at found
    · rename_i same
      exact .inr ⟨same.symm, (Option.some.inj found).symm⟩
    · exact .inl found
  · obtain same | held := ExtTreeMap.mem_insert.mp held
    · exact LawfulEqCmp.eq_of_compare same ▸ has
    · exact kept other (lawful.attached other held)

theorem apply_addSigner (done : r.addSigner key = .ok q) :
    Lawful (ofState q) ∧ Later (ofState r) (ofState q) := by
  unfold State.addSigner at done
  split at done
  · cases done
  · split at done
    · cases done
    · rename_i room
      refine attach_lawful lawful done (BTreeSet.mem_insert.mpr (.inl rfl))
        (fun other held => BTreeSet.mem_insert.mpr (.inr held))
        (size_insert_le r.accounts key lawful.capacity ?_)
      by_cases present : key ∈ r.accounts
      · exact .inl present
      · have absent : r.accounts.contains key = false := by
          rw [← Bool.not_eq_true, ExtTreeSet.contains_iff_mem]
          exact present
        refine .inr fun full => room ?_
        simp [full, absent]

theorem apply_replaceSigner (done : r.replaceSigner key = .ok q) :
    Lawful (ofState q) ∧ Later (ofState r) (ofState q) := by
  unfold State.replaceSigner at done
  split at done
  · cases done
  · rename_i present
    have held : key ∈ r.signers := ExtTreeMap.contains_iff_mem.mp (by simpa using present)
    exact attach_lawful lawful done (lawful.attached key held) (fun _ => id) lawful.capacity

theorem apply_removeSigner (done : r.removeSigner key = .ok q) :
    Lawful (ofState q) ∧ Later (ofState r) (ofState q) := by
  unfold State.removeSigner at done
  split at done
  · cases done
  · refine commit_lawful key lawful done (fun other generation found => ?_)
      (fun other held => ?_) lawful.current lawful.capacity
    · exact .inl (BTreeMap.find_of_erase found)
    · exact lawful.attached other (ExtTreeMap.mem_erase.mp held).2

theorem apply_lawful (done : r.apply command = .ok q) :
    Lawful (ofState q) ∧ Later (ofState r) (ofState q) := by
  cases command with
  | addAccount key => exact apply_addAccount lawful done
  | selectAccount key => exact apply_selectAccount lawful done
  | clearCurrentAccount => exact apply_clearCurrentAccount lawful done
  | removeAccount key => exact apply_removeAccount lawful done
  | addSigner key => exact apply_addSigner lawful done
  | replaceSigner key => exact apply_replaceSigner lawful done
  | removeSigner key => exact apply_removeSigner lawful done

end Apply

section Attach

/-- What `attach` has made of a new session's signers: each account is a signer,
nothing is selected. -/
theorem attach_ofState (lawful : Lawful (ofState r)) (attached : (ofState r).attach key = .ok t) :
    ∃ q : State, t = ofState q ∧ Lawful (ofState q) := by
  unfold attach at attached
  split at attached
  · cases attached
  · split at attached
    · cases attached
    · rename_i unsigned room
      split at attached
      · rename_i counts
        cases attached
        let q : State := ⟨r.accounts.insert key, r.signers.insert key (r.revision + 1), r.selection,
          r.revision + 1, Nat.le_succ_of_le r.selected⟩
        have committed : r.commit (r.accounts.insert key) (r.signers.insert key) none = .ok q :=
          if_pos counts
        exact ⟨q, rfl, (attach_lawful lawful committed (BTreeSet.mem_insert.mpr (.inl rfl))
          (fun other held => BTreeSet.mem_insert.mpr (.inr held))
          (size_insert_le r.accounts key lawful.capacity (.inr room))).1⟩
      · cases attached

theorem empty_lawful : Lawful (ofState State.empty) where
  attached _ held := absurd held ExtTreeMap.not_mem_empty
  current _ chosen := nomatch chosen
  capacity := Nat.zero_le _
  distinct _ _ _ found := by simp [ofState, State.empty] at found
  counted _ _ found := by simp [ofState, State.empty] at found
  selected := Nat.le_refl _

theorem foldlM_attach {keys : List PublicKey} (lawful : Lawful (ofState r))
    (made : keys.foldlM attach (ofState r) = .ok t) :
    ∃ q : State, t = ofState q ∧ Lawful (ofState q) := by
  induction keys generalizing r with
  | nil =>
    cases made
    exact ⟨r, rfl, lawful⟩
  | cons key keys ih =>
    rw [List.foldlM_cons] at made
    cases first : (ofState r).attach key with
    | error error =>
      rw [first] at made
      cases made
    | ok s =>
      obtain ⟨q, rfl, next⟩ := attach_ofState lawful first
      rw [first] at made
      exact ih next made

end Attach

/-- The states of a session: the laws hold, and a call that fails has no effect. -/
theorem step_ofState (lawful : Lawful (ofState r)) (stepped : (ofState r).step command = some t) :
    ∃ q : State, t = ofState q ∧ Lawful (ofState q) ∧ Later (ofState r) (ofState q) := by
  obtain rfl := Option.some.inj stepped
  rw [call_ofState]
  cases done : r.apply command with
  | error error => exact ⟨r, rfl, lawful, .refl _⟩
  | ok q => exact ⟨q, rfl, apply_lawful lawful done⟩

theorem run_ofState {commands : List State.Command} (lawful : Lawful (ofState r))
    (run : Run step Free (ofState r) commands t) :
    ∃ q : State, t = ofState q ∧ Lawful (ofState q) ∧ Later (ofState r) (ofState q) := by
  induction run with
  | nil => exact ⟨r, rfl, lawful, .refl _⟩
  | snoc _ _ stepped ih =>
    obtain ⟨q, rfl, before, later⟩ := ih
    obtain ⟨p, rfl, after, next⟩ := step_ofState before stepped
    exact ⟨p, rfl, after, later.trans next⟩

/-- A call that fails has written nothing. -/
theorem call_error {error : SessionError} (failed : ((ofState r).call command).1 = .error error) :
    ((ofState r).call command).2 = ofState r := by
  rw [call_ofState] at failed ⊢
  cases done : r.apply command with
  | error other => rfl
  | ok q =>
    rw [done] at failed
    cases failed

theorem isCurrent_iff {generation : Nat} :
    s.isCurrent key generation = true ↔ s.signers[key]? = some generation := by
  rw [isCurrent]
  cases s.signers[key]? <;> simp

/-- No ABA: what had been attached and no longer is does not come back. -/
theorem retired {generation : Nat} (counted : generation ≤ s.revision) (first : Later s t)
    (second : Later t u) (gone : ¬ t.isCurrent key generation) : ¬ u.isCurrent key generation := by
  intro back
  obtain old | new := second.attached key generation (isCurrent_iff.mp back)
  · exact gone (isCurrent_iff.mpr old)
  · exact absurd (Nat.lt_of_le_of_lt first.revision new) (Nat.not_lt.mpr counted)

theorem bracketed (selected : s.currentAccountRevision ≤ s.revision) (first : Later s t)
    (second : Later t u) (same : s.currentAccountSnapshot = u.currentAccountSnapshot) :
    t.currentAccountSnapshot = s.currentAccountSnapshot := by
  have revision : s.currentAccountRevision = u.currentAccountRevision := congrArg Prod.snd same
  obtain kept | changed := second.selected
  · exact kept.symm.trans same.symm
  · have later : s.revision < u.currentAccountRevision := Nat.lt_of_le_of_lt first.revision changed
    exact absurd (revision ▸ later) (Nat.not_lt.mpr selected)

/-- A session keeps its laws whatever is called on it and in whatever order;
generations that were retired stay retired, and equal snapshots are of one
selection. -/
theorem session_laws {keys : List PublicKey} {commands next last : List State.Command} {begun : Locked}
    (made : new keys = .ok begun) (before : Run step Free begun commands s)
    (between : Run step Free s next t) (after : Run step Free t last u) :
    Lawful s ∧
      (∀ (command : State.Command) (error : SessionError),
        (s.call command).1 = .error error → (s.call command).2 = s) ∧
      (∀ (key : PublicKey) (generation : Nat), s.isCurrent key generation →
        ¬ t.isCurrent key generation → ¬ u.isCurrent key generation) ∧
      (s.currentAccountSnapshot = u.currentAccountSnapshot →
        t.currentAccountSnapshot = s.currentAccountSnapshot) := by
  obtain ⟨q, rfl, start⟩ := foldlM_attach empty_lawful made
  obtain ⟨r, rfl, lawful, -⟩ := run_ofState start before
  obtain ⟨p, rfl, between, first⟩ := run_ofState lawful between
  obtain ⟨w, rfl, -, second⟩ := run_ofState between after
  refine ⟨lawful, fun command error => call_error, fun key generation held => ?_,
    bracketed lawful.selected first second⟩
  exact retired (lawful.counted key generation (isCurrent_iff.mp held)) first second

/-- A signer is replaced and removed, and attached again. -/
theorem session_laws_of_replacement :
    ∃ s t u : Locked, s.isCurrent 1 1 = true ∧ t.isCurrent 1 1 = false ∧ ¬ u.isCurrent 1 1 := by
  let begun : Locked := ⟨ExtTreeSet.insert ∅ 1, ExtTreeMap.insert ∅ 1 1, none, 0, 1⟩
  let s : Locked := ((begun.call (.addAccount 2)).2.call (.selectAccount 2)).2
  let t : Locked := (s.call (.replaceSigner 1)).2
  let u : Locked := ((t.call (.removeSigner 1)).2.call (.addSigner 1)).2
  have made : new [1] = .ok begun := rfl
  have before : Run step Free begun [.addAccount 2, .selectAccount 2] s := .of_exec rfl
  have between : Run step Free s [.replaceSigner 1] t := .of_exec rfl
  have after : Run step Free t [.removeSigner 1, .addSigner 1] u := .of_exec rfl
  have held : s.isCurrent 1 1 = true := by decide +kernel
  have gone : t.isCurrent 1 1 = false := by decide +kernel
  have laws := session_laws made before between after
  exact ⟨s, t, u, held, gone, laws.2.2.1 1 1 held (by simp [gone])⟩

end Locked

end Fava.Session
