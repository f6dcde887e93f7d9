import Fava.Auth.Progress

namespace Fava.Auth

open Fava.Lib Fava.Relay Fava.Transport Fava.Transport.Driver

/-- `Transport::awaiting_authentication`: the sessions with a challenge in front
of them. -/
def awaitingAuthentication (sessions : List Session) : List Session :=
  sessions.filter fun s =>
    match s.cell.last.authentication.progress with
    | .requested _ => true
    | _ => false

/-- The authenticator, and the latest challenge of the connection about which
nothing has been recorded yet. -/
structure Watched where
  owner : Owner
  latest : Option String

namespace Watched

variable {w v : Watched} {a : Action}

def attached (session : Session) : Watched := ⟨Auth.attached session, none⟩

/-- A challenge stays the latest until another arrives, something is recorded
about it, or its connection is replaced. -/
def heard (w : Watched) : Action → Option String
  | .session (.challenge challenge) =>
    if w.owner.session.cell.sender then some challenge else w.latest
  | .session .moves => if w.owner.session.cell.sender then none else w.latest
  | a => if records w.owner a = w.latest then none else w.latest

def step (w : Watched) (a : Action) : Option Watched :=
  (Auth.step w.owner a).map fun owner => ⟨owner, w.heard a⟩

/-- The latest unanswered challenge is what the connection shows, and what it
shows is that challenge: nothing recorded about another has replaced it. -/
structure Visible (w : Watched) : Prop where
  shown : ∀ challenge, w.latest = some challenge ↔
    w.owner.session.cell.last.authentication.progress = .requested challenge
  awaiting : w.latest.isSome → ∀ sessions, w.owner.session ∈ sessions →
    w.owner.session ∈ awaitingAuthentication sessions

def arriving : Action → Option String
  | .session (.challenge challenge) => some challenge
  | _ => none

/-- The relay challenges only while whatever may still be recorded on this
connection is about that same challenge. -/
def OneChallenge (w : Watched) (a : Action) : Prop :=
  w.owner.session.cell.sender = true → ∀ challenge ∈ arriving a, ∀ x ∈ w.owner.answers,
    x.mayRecord w.owner.session.identity = true → x.demand.challenge = challenge

/-- What may still be recorded is about the challenge in front of the connection. -/
structure Agreeing (w : Watched) : Prop where
  past : Past w.owner
  shown : ∀ challenge, w.latest = some challenge ↔
    w.owner.session.cell.last.authentication.progress = .requested challenge
  agreed : ∀ challenge, w.owner.session.cell.last.authentication.progress = .requested challenge →
    ∀ x ∈ w.owner.answers, x.mayRecord w.owner.session.identity = true →
      x.demand.challenge = challenge

theorem Agreeing.visible (inv : Agreeing w) : Visible w where
  shown := inv.shown
  awaiting heard sessions member := by
    obtain ⟨challenge, latest⟩ := Option.isSome_iff_exists.mp heard
    simp [awaitingAuthentication, member, (inv.shown challenge).mp latest]

theorem attached_agreeing (relay maxFrameBytes outboundFrames reconnectAttempts generation) :
    Agreeing (attached
      (opened relay maxFrameBytes outboundFrames reconnectAttempts generation)) where
  past := attached_past ..
  shown challenge := by
    simp [attached, Auth.attached, opened, Authentication.unoffered]
  agreed challenge requested x member := by simp [attached, Auth.attached] at member

/-- The connection an answer was raised on is not one the session has later. -/
theorem mayRecord_later {x : Answer} {identity next : RelaySessionIdentity}
    (past : x.demand.session.connection ≤ identity.connection)
    (later : identity.connection < next.connection) (mayRecord : x.mayRecord next = true) :
    x.mayRecord identity = true := by
  have gone : x.demand.session ≠ next := by
    intro same
    rw [same] at past
    exact absurd past (Nat.not_le_of_lt later)
  unfold Answer.mayRecord at mayRecord ⊢
  split <;> simp_all

theorem session_authentication {s t : Session} {action : Driver.Action}
    (stepped : Driver.step s action = some t) (unasked : ∀ c, action ≠ .challenge c)
    (stays : action ≠ .moves) : t.cell.last.authentication = s.cell.last.authentication := by
  cases SessionChange.of_step stepped with
  | frame frame => exact frame.authentication
  | @challenge challenge => exact absurd rfl (unasked challenge)
  | recv | advances => rfl
  | moves => exact absurd rfl stays

theorem heard_silent (silent : records w.owner a = none)
    (unasked : ∀ challenge, a ≠ .session (.challenge challenge))
    (stays : a ≠ .session .moves) : w.heard a = w.latest := by
  have kept : (if records w.owner a = w.latest then none else w.latest) = w.latest := by
    rw [silent]
    by_cases none : none = w.latest
    · rw [if_pos none, none]
    · rw [if_neg none]
  unfold heard
  split
  · exact absurd rfl (unasked _)
  · exact absurd rfl stays
  · exact kept

theorem challenge_agreeing {challenge : String} {t : Session} (inv : Agreeing w)
    (one : OneChallenge w (.session (.challenge challenge)))
    (stepped : Driver.step w.owner.session (.challenge challenge) = some t) :
    Agreeing ⟨{ w.owner with session := t }, w.heard (.session (.challenge challenge))⟩ := by
  have past := inv.past.session stepped
  cases Stepped.of_step stepped
  cases sender : w.owner.session.cell.sender with
  | true =>
    refine ⟨past, ?_, ?_⟩
    · simp [heard, sender, Session.moved, ConnectionCell.moved, challenged]
    · simp only [Session.moved, ConnectionCell.moved, sender, if_true, challenged,
        Progress.requested.injEq]
      rintro other rfl
      exact one sender _ rfl
  | false =>
    refine ⟨past, ?_, ?_⟩
    · simpa [heard, sender, Session.moved, ConnectionCell.moved] using inv.shown
    · simpa [sender, Session.moved, ConnectionCell.moved, Session.identity] using inv.agreed

theorem moves_agreeing {t : Session} (inv : Agreeing w)
    (stepped : Driver.step w.owner.session .moves = some t) :
    Agreeing ⟨{ w.owner with session := t }, w.heard (.session .moves)⟩ := by
  have past := inv.past.session stepped
  cases Stepped.of_step stepped
  cases sender : w.owner.session.cell.sender with
  | true =>
    refine ⟨past, ?_, ?_⟩ <;>
      simp [heard, sender, Session.moved, ConnectionCell.moved, replaced,
        Authentication.unoffered]
  | false =>
    refine ⟨past, ?_, ?_⟩
    · simpa [heard, sender, Session.moved, ConnectionCell.moved] using inv.shown
    · simpa [sender, Session.moved, ConnectionCell.moved, Session.identity] using inv.agreed

theorem session_agreeing {action : Driver.Action} {t : Session} (inv : Agreeing w)
    (one : OneChallenge w (.session action))
    (stepped : Driver.step w.owner.session action = some t) :
    Agreeing ⟨{ w.owner with session := t }, w.heard (.session action)⟩ := by
  by_cases asks : ∃ challenge, action = .challenge challenge
  · obtain ⟨challenge, rfl⟩ := asks
    exact challenge_agreeing inv one stepped
  by_cases moves : action = .moves
  · subst moves
    exact moves_agreeing inv stepped
  have unasked : ∀ challenge, action ≠ .challenge challenge := fun challenge same =>
    asks ⟨challenge, same⟩
  have same := session_authentication stepped unasked moves
  have latest : w.heard (.session action) = w.latest :=
    heard_silent rfl (by simpa using unasked) (by simpa using moves)
  refine ⟨inv.past.session stepped, ?_, ?_⟩
  · rw [latest, same]
    exact inv.shown
  · intro challenge requested x member mayRecord
    rw [same] at requested
    refine inv.agreed challenge requested x member ?_
    by_cases advances : action = .advances
    · subst advances
      have later : w.owner.session.identity.connection < t.identity.connection :=
        advances_generation inv.past.minted stepped
      exact mayRecord_later (inv.past.answers x member) later mayRecord
    · rwa [session_identity stepped advances] at mayRecord

/-- An answer that records nothing goes on being about the same challenge, and
what another records is about the challenge in front of the connection. -/
theorem carries_agreeing {p : Owner} {k : Nat} {x y : Answer} (inv : Agreeing w)
    (stepped : Auth.step w.owner a = some p) (carries : Carries w.owner a p k x y) :
    Agreeing ⟨p, w.heard a⟩ := by
  have identity := carries.identity.1
  have found : x ∈ w.owner.answers := List.mem_of_getElem? carries.found
  have heard : w.heard a = if records w.owner a = w.latest then none else w.latest := by
    unfold heard
    split
    · exact absurd rfl (carries.own _)
    · exact absurd rfl (carries.own _)
    · rfl
  obtain ⟨silent, frame⟩ | ⟨what, recorded, sender, mayRecord, moved⟩ := carries.session
  · refine ⟨step_past inv.past stepped, ?_, ?_⟩
    · rw [heard_silent silent (fun _ => carries.own _) (carries.own _), frame.authentication]
      exact inv.shown
    · intro challenge requested z member mayRecord
      rw [frame.authentication] at requested
      rw [carries.answers] at member
      rw [identity] at mayRecord
      obtain old | rfl := List.mem_or_eq_of_mem_set member
      · exact inv.agreed challenge requested z old mayRecord
      · rw [carries.demand]
        exact inv.agreed challenge requested x found (carries.mayRecord mayRecord)
  · have answered : ∀ challenge, p.session.cell.last.authentication.progress ≠
        .requested challenge := by
      intro challenge
      rw [moved]
      simp only [Session.moved, ConnectionCell.moved, sender, if_true]
      exact onto_answered what _ challenge
    refine ⟨step_past inv.past stepped, fun challenge => ?_, fun challenge requested =>
      absurd requested (answered challenge)⟩
    refine iff_of_false ?_ (answered challenge)
    rw [heard, recorded]
    intro latest
    split at latest
    · cases latest
    · rename_i other
      have requested := (inv.shown challenge).mp latest
      rw [inv.agreed challenge requested x found mayRecord] at other
      exact other latest.symm

theorem step_agreeing (inv : Agreeing w) (one : OneChallenge w a) (stepped : step w a = some v) :
    Agreeing v := by
  simp only [step, Option.map_eq_some_iff] at stepped
  obtain ⟨p, stepped, rfl⟩ := stepped
  obtain ⟨action, rfl, moved, rest⟩ | ⟨people, added, -, begun, silent, own, -, rfl⟩ |
    ⟨k, x, y, carries⟩ := step_cases stepped
  · rw [rest]
    exact session_agreeing inv one moved
  · refine ⟨step_past inv.past stepped, ?_, fun challenge requested x member mayRecord => ?_⟩
    · rw [heard_silent silent (fun _ => own _) (own _)]
      exact inv.shown
    · obtain old | new := List.mem_append.mp member
      · exact inv.agreed challenge requested x old mayRecord
      · have front := (begun x new).requested
        rw [show w.owner.session.cell.last.authentication.progress = .requested challenge
          from requested, Progress.requested.injEq] at front
        exact front.symm
  · exact carries_agreeing inv stepped carries

/-- Along every run in which each challenge finds nothing about another still to
be recorded, the latest unanswered challenge is in front of the connection. -/
theorem latest_challenge_visible
    {relay maxFrameBytes outboundFrames reconnectAttempts generation} {as : List Action}
    (run : Run step OneChallenge (attached
      (opened relay maxFrameBytes outboundFrames reconnectAttempts generation)) as w) :
    Visible w :=
  (run.invariant Agreeing (attached_agreeing ..)
    fun _ _ _ inv one stepped => step_agreeing inv one stepped).visible

instance (w : Watched) (a : Action) : Decidable (OneChallenge w a) :=
  inferInstanceAs (Decidable (_ → ∀ challenge ∈ arriving a, ∀ x ∈ w.owner.answers, _ → _))

def sentAndRecorded : List Action :=
  demanded "first" ++ signedAndSent ++ [.compares 0, .writes 0]

theorem latest_challenge_visible_of_acceptance :
    ∃ as w, Run step OneChallenge (attached (opened "wss://relay" 64 4 none 1)) as w ∧
      w.latest = some "second" ∧ w.owner.session.cell.last.authentication.established = some 7 ∧
      Visible w := by
  have run : Run step OneChallenge (attached (opened "wss://relay" 64 4 none 1))
      (sentAndRecorded ++ [.settles 0 .accepted, .compares 0, .writes 0,
        .session (.challenge "second")]) _ := Run.of_exec rfl
  exact ⟨_, _, run, rfl, rfl, latest_challenge_visible run⟩

/-- The relay asks again before it answers, and its verdict on the first answer
is recorded over the second challenge. -/
theorem verdict_replaces_challenge :
    ∃ as w, Run step Free (attached (opened "wss://relay" 64 4 none 1)) as w ∧ ¬ Visible w := by
  refine ⟨sentAndRecorded ++ [.session (.challenge "second"),
    .settles 0 (.rejected (BoundedText.new "auth-required")), .compares 0, .writes 0], _,
    Run.of_exec rfl, fun visible => ?_⟩
  exact absurd ((visible.shown "second").mp rfl) (by decide)

end Watched

end Fava.Auth
