import Fava.Lib.Run
import Fava.Relay.Connection

namespace Fava.Transport

open Fava.Lib Fava.Nostr Fava.Relay

/-- One registered session, named by the generation of its first socket, and how
many leases are outstanding on it. -/
structure Entry where
  relay : RelayUrl
  session : Nat
  holders : Nat
  served : List Authority
  authentication : Authentication
deriving DecidableEq

def Entry.canServe (e : Entry) (authority : Authority) : Bool :=
  e.authentication.canServe authority

def Entry.hold (e : Entry) (authority : Authority) : Entry :=
  { e with holders := e.holders + 1, served := e.served.insert authority }

/-- The connection of one session has another state. -/
def Entry.moved (session : Nat) (authentication : Authentication) (e : Entry) : Entry :=
  if e.session = session then { e with authentication } else e

structure Lease where
  relay : RelayUrl
  session : Nat
deriving DecidableEq

/-- How far one call of `acquire_session` is, past its check of `shutting_down`. -/
inductive Acquiring
  | checked
  | missed
  | dialling (session : Nat)
  | connected (session : Nat)
  | returned
deriving DecidableEq

structure Acquisition where
  relay : RelayUrl
  authority : Authority
  stage : Acquiring
deriving DecidableEq

/-- How far one call of `shutdown` is: it has stored the flag, or still has
sessions to close, or returned, and whether before its deadline. -/
inductive Shutdown
  | flagged
  | closing (sessions : List Nat)
  | returned (complete : Bool)
deriving DecidableEq

/-- The registry of a `WebSocketTransport` and what goes on around it: the calls
in progress, the leases not released yet, and the tasks that were spawned to
close a session. `established` are the sessions that got as far as being
registered, `taken` those a shutdown took out of the registry, `closed` those
whose `close` was called and `left` those a shutdown had no time for. -/
structure Registry where
  entries : List Entry
  shuttingDown : Bool
  generations : Nat
  acquisitions : List Acquisition
  leases : List Lease
  scheduled : List Nat
  shutdowns : List Shutdown
  established : List Nat
  taken : List Nat
  closed : List Nat
  left : List Nat
deriving DecidableEq

namespace Registry

def empty : Registry := ⟨[], false, 0, [], [], [], [], [], [], [], []⟩

/-- The first entry of the relay that can still serve the authority, held once
more, and the entries after that. -/
def reuse (relay : RelayUrl) (authority : Authority) : List Entry → Option (Entry × List Entry)
  | [] => none
  | e :: rest =>
    if e.relay = relay ∧ e.canServe authority then some (e, e.hold authority :: rest)
    else (reuse relay authority rest).map fun (found, rest) => (found, e :: rest)

/-- `Registry::decrement`: the entries left, and whether the session is to be
closed. -/
def decrement (lease : Lease) : List Entry → Option (List Entry × Bool)
  | [] => none
  | e :: rest =>
    if e.relay = lease.relay ∧ e.session = lease.session then
      if e.holders - 1 = 0 then some (rest, true)
      else some ({ e with holders := e.holders - 1 } :: rest, false)
    else (decrement lease rest).map fun (rest, close) => (e :: rest, close)

/-- `Transport::holders`. -/
def holders (r : Registry) (relay : RelayUrl) (authority : Authority) : Option Nat :=
  (r.entries.find? fun e => e.relay = relay ∧ authority ∈ e.served).bind fun e =>
    if e.holders = 0 then none else some e.holders

inductive Action
  | acquire (relay : RelayUrl) (authority : Authority)
  | reuses (k : Nat)
  | mints (k : Nat)
  | dials (k : Nat) (reached : Bool)
  | cancels (k : Nat)
  | registers (k : Nat) (authentication : Authentication)
  | release (lease : Lease)
  | closes (session : Nat)
  | shutdown
  | takes (j : Nat)
  | shutsDown (j : Nat)
  | timesOut (j : Nat)
  | othersMint
  | moves (session : Nat) (authentication : Authentication)

def advance (r : Registry) (k : Nat) (x : Acquisition) (stage : Acquiring) : List Acquisition :=
  r.acquisitions.set k { x with stage }

/-- The winner of the registration: the lease is on its session, and this
socket, if there is one, is closed. -/
def lent (r : Registry) (k : Nat) (x : Acquisition) (e : Entry) (entries : List Entry)
    (loser : Option Nat) : Registry :=
  { r with
    entries
    acquisitions := r.advance k x .returned
    leases := ⟨e.relay, e.session⟩ :: r.leases
    scheduled := loser.toList ++ r.scheduled
    established := loser.toList ++ r.established }

/-- One atomic step of one of the calls, of a task that closes a session, or of
the sessions themselves: a driver mints a generation, a connection's
authentication changes. Establishing the socket is the one place where the
future of `acquire_session` can be dropped. -/
def step (r : Registry) : Action → Option Registry
  | .acquire relay authority =>
    if r.shuttingDown then some r
    else some { r with acquisitions := r.acquisitions ++ [⟨relay, authority, .checked⟩] }
  | .reuses k => do
    let x ← r.acquisitions[k]?
    match x.stage with
    | .checked =>
      match reuse x.relay x.authority r.entries with
      | some (e, entries) => some (r.lent k x e entries none)
      | none => some { r with acquisitions := r.advance k x .missed }
    | _ => none
  | .mints k => do
    let x ← r.acquisitions[k]?
    match x.stage with
    | .missed =>
      if r.generations + 1 < 2 ^ 64 then some { r with
        generations := r.generations + 1
        acquisitions := r.advance k x (.dialling (r.generations + 1)) }
      else some { r with acquisitions := r.advance k x .returned }
    | _ => none
  | .dials k reached => do
    let x ← r.acquisitions[k]?
    match x.stage with
    | .dialling session => some { r with
        acquisitions := r.advance k x (if reached then .connected session else .returned) }
    | _ => none
  | .cancels k => do
    let x ← r.acquisitions[k]?
    match x.stage with
    | .dialling _ => some { r with acquisitions := r.advance k x .returned }
    | _ => none
  | .registers k authentication => do
    let x ← r.acquisitions[k]?
    match x.stage with
    | .connected session =>
      match reuse x.relay x.authority r.entries with
      | some (e, entries) => some (r.lent k x e entries (some session))
      | none => some { r with
          entries := r.entries ++ [⟨x.relay, session, 1, [x.authority], authentication⟩]
          acquisitions := r.advance k x .returned
          leases := ⟨x.relay, session⟩ :: r.leases
          established := session :: r.established }
    | _ => none
  | .release lease =>
    if lease ∈ r.leases then
      match decrement lease r.entries with
      | some (entries, close) => some { r with
          entries
          leases := r.leases.erase lease
          scheduled := if close then lease.session :: r.scheduled else r.scheduled }
      | none => some { r with leases := r.leases.erase lease }
    else none
  | .closes session =>
    if session ∈ r.scheduled then some { r with
      scheduled := r.scheduled.erase session
      closed := session :: r.closed }
    else none
  | .shutdown => some { r with shuttingDown := true, shutdowns := r.shutdowns ++ [.flagged] }
  | .takes j =>
    if r.shutdowns[j]? = some .flagged then some { r with
      entries := []
      shutdowns := r.shutdowns.set j (.closing (r.entries.map Entry.session))
      taken := r.entries.map Entry.session ++ r.taken }
    else none
  | .shutsDown j =>
    match r.shutdowns[j]? with
    | some (.closing (session :: rest)) => some { r with
        shutdowns := r.shutdowns.set j (.closing rest)
        closed := session :: r.closed }
    | some (.closing []) => some { r with shutdowns := r.shutdowns.set j (.returned true) }
    | _ => none
  | .timesOut j =>
    match r.shutdowns[j]? with
    | some (.closing rest) => some { r with
        shutdowns := r.shutdowns.set j (.returned false)
        left := rest ++ r.left }
    | _ => none
  | .othersMint =>
    if r.generations + 1 < 2 ^ 64 then some { r with generations := r.generations + 1 } else none
  | .moves session authentication =>
    some { r with entries := r.entries.map (Entry.moved session authentication) }

/-- The leases on a session not released yet. -/
def outstanding (r : Registry) (session : Nat) : Nat :=
  r.leases.countP fun lease => lease.session = session

/-- The sessions a shutdown took and has not come to yet. -/
def pending : Shutdown → List Nat
  | .closing sessions => sessions
  | _ => []

/-- The sessions that were closed, or that a task or a shutdown is about to
close. -/
def ending (r : Registry) : List Nat :=
  r.scheduled ++ r.closed ++ r.shutdowns.flatMap pending

/-- Whether a shutdown has taken the registry. -/
def isTaken (r : Registry) : Bool := r.shutdowns.any (· ≠ .flagged)

/-- A registered session is held by as many leases as it counts, at least one. A
session ends when its last lease is released or a shutdown takes it, and not
before; so does one that lost the registration, and only a shutdown that could
not complete in time leaves a session it took. After a shutdown nothing is
registered. -/
structure Leased (r : Registry) : Prop where
  counted : ∀ e ∈ r.entries, e.holders = r.outstanding e.session ∧ 1 ≤ e.holders
  ended : ∀ session ∈ r.ending, (∀ e ∈ r.entries, e.session ≠ session) ∧
    (r.outstanding session = 0 ∨ session ∈ r.taken)
  unheld : ∀ session ∈ r.established, r.outstanding session = 0 ∨ session ∈ r.taken →
    session ∈ r.ending ∨ session ∈ r.left
  left : r.left ≠ [] → .returned false ∈ r.shutdowns
  stopped : r.isTaken = true → r.entries = []

/-- Holding a socket that is not registered yet. -/
def holding : Acquiring → Bool
  | .connected _ => true
  | _ => false

/-- No socket that an acquisition asked for is established once a shutdown has
taken the registry, and a shutdown takes it while none is about to be registered. -/
def Settled (r : Registry) : Action → Prop
  | .dials _ reached => reached = true → r.isTaken = false
  | .takes _ => ∀ x ∈ r.acquisitions, holding x.stage = false
  | _ => True

instance (r : Registry) : ∀ a, Decidable (Settled r a)
  | .dials .. => inferInstanceAs (Decidable (_ → _))
  | .takes _ => inferInstanceAs (Decidable (∀ x ∈ r.acquisitions, holding x.stage = false))
  | .acquire .. | .reuses _ | .mints _ | .cancels _ | .registers .. | .release _ | .closes _
  | .shutdown | .shutsDown _ | .timesOut _ | .othersMint | .moves .. => .isTrue trivial

end Registry

end Fava.Transport
