import Fava.Lib.BTree
import Fava.Nostr.Event

namespace Fava.Session

open Std Fava.Lib Fava.Nostr

inductive SessionError
  | duplicateAccount (key : PublicKey)
  | missingAccount (key : PublicKey)
  | accountCapacityExceeded (limit : Nat)
  | duplicateSigner (key : PublicKey)
  | missingSigner (key : PublicKey)
  | generationExhausted
deriving DecidableEq

def accountCapacity : Nat := 64

/-- An account, if any, with the revision at which it was selected. -/
abbrev Selection := Option PublicKey × Nat

/-- The accounts, the generation each attached signer has, what is selected, and the
revision that counts every committed mutation. Only a mutation selects. -/
structure State where
  accounts : BTreeSet PublicKey
  signers : BTreeMap PublicKey Nat
  selection : Selection
  revision : Nat
  selected : selection.2 ≤ revision

namespace State

/-- Commit a mutation under the next revision, which is a `u64`. -/
def commit (s : State) (accounts : BTreeSet PublicKey) (signers : Nat → BTreeMap PublicKey Nat)
    (select : Option (Option PublicKey)) : Except SessionError State :=
  if s.revision < 2 ^ 64 - 1 then
    .ok
      { accounts := accounts
        signers := signers (s.revision + 1)
        selection := select.elim s.selection (·, s.revision + 1)
        revision := s.revision + 1
        selected := by
          cases select with
          | none => exact Nat.le_succ_of_le s.selected
          | some account => exact Nat.le_refl _ }
  else .error .generationExhausted

def addAccount (s : State) (key : PublicKey) : Except SessionError State :=
  if s.accounts.contains key then .error (.duplicateAccount key)
  else if s.accounts.size = accountCapacity then .error (.accountCapacityExceeded accountCapacity)
  else s.commit (s.accounts.insert key) (fun _ => s.signers) none

/-- Selecting the account that is selected already changes nothing. -/
def selectAccount (s : State) (key : PublicKey) : Except SessionError State :=
  if !s.accounts.contains key then .error (.missingAccount key)
  else if s.selection.1 = some key then .ok s
  else s.commit s.accounts (fun _ => s.signers) (some (some key))

def clearCurrentAccount (s : State) : Except SessionError State :=
  if s.selection.1 = none then .ok s
  else s.commit s.accounts (fun _ => s.signers) (some none)

def removeAccount (s : State) (key : PublicKey) : Except SessionError State :=
  if !s.accounts.contains key then .error (.missingAccount key)
  else s.commit (s.accounts.erase key) (fun _ => s.signers.erase key)
    (if s.selection.1 = some key then some none else none)

def addSigner (s : State) (key : PublicKey) : Except SessionError State :=
  if s.signers.contains key then .error (.duplicateSigner key)
  else if !s.accounts.contains key && s.accounts.size = accountCapacity then
    .error (.accountCapacityExceeded accountCapacity)
  else s.commit (s.accounts.insert key) (s.signers.insert key) none

def replaceSigner (s : State) (key : PublicKey) : Except SessionError State :=
  if !s.signers.contains key then .error (.missingSigner key)
  else s.commit s.accounts (s.signers.insert key) none

def removeSigner (s : State) (key : PublicKey) : Except SessionError State :=
  if !s.signers.contains key then .error (.missingSigner key)
  else s.commit s.accounts (fun _ => s.signers.erase key) none

/-- A session without accounts. -/
def empty : State := ⟨∅, ∅, (none, 0), 0, Nat.le_refl 0⟩

inductive Command
  | addAccount (key : PublicKey)
  | selectAccount (key : PublicKey)
  | clearCurrentAccount
  | removeAccount (key : PublicKey)
  | addSigner (key : PublicKey)
  | replaceSigner (key : PublicKey)
  | removeSigner (key : PublicKey)

def apply (s : State) : Command → Except SessionError State
  | .addAccount key => s.addAccount key
  | .selectAccount key => s.selectAccount key
  | .clearCurrentAccount => s.clearCurrentAccount
  | .removeAccount key => s.removeAccount key
  | .addSigner key => s.addSigner key
  | .replaceSigner key => s.replaceSigner key
  | .removeSigner key => s.removeSigner key

variable {s t : State} {accounts : BTreeSet PublicKey} {signers : Nat → BTreeMap PublicKey Nat}
  {select : Option (Option PublicKey)}

/-- How one command moves a session: a new revision counts every change, and whatever
selects anew carries it. -/
def Moves (s t : State) : Prop :=
  t = s ∨ t.revision = s.revision + 1 ∧ (t.selection = s.selection ∨ t.selection.2 = t.revision)

theorem commit_moves (h : s.commit accounts signers select = .ok t) : Moves s t := by
  unfold commit at h
  split at h
  · cases h
    cases select with
    | none => exact .inr ⟨rfl, .inl rfl⟩
    | some account => exact .inr ⟨rfl, .inr rfl⟩
  · cases h

theorem apply_moves {command : Command} (h : s.apply command = .ok t) : Moves s t := by
  cases command with
  | addAccount key | addSigner key =>
    simp only [apply, addAccount, addSigner] at h
    split at h
    · cases h
    · split at h
      · cases h
      · exact commit_moves h
  | selectAccount key =>
    simp only [apply, selectAccount] at h
    split at h
    · cases h
    · split at h
      · cases h
        exact .inl rfl
      · exact commit_moves h
  | clearCurrentAccount =>
    simp only [apply, clearCurrentAccount] at h
    split at h
    · cases h
      exact .inl rfl
    · exact commit_moves h
  | removeAccount key | replaceSigner key | removeSigner key =>
    simp only [apply, removeAccount, replaceSigner, removeSigner] at h
    split at h
    · cases h
    · exact commit_moves h

end State

end Fava.Session
