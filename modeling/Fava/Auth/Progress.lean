import Fava.Auth.AnswerInPlace
import Fava.Transport.Succession

namespace Fava.Auth

open Fava.Lib Fava.Relay Fava.Transport Fava.Transport.Driver

variable {o p : Owner} {x y : Answer} {k : Nat} {a : Action}

/-- Whether something about the answer's challenge may still be recorded on the
connection: `answer` takes up whatever challenge it finds, a write past its
identity check is made on whatever connection is there, and everything else
passes that check first. -/
def Answer.mayRecord (identity : RelaySessionIdentity) (x : Answer) : Bool :=
  match x.stage with
  | .asked | .signing _ | .signed .. | .writing _ => true
  | .takenUp .. | .handing _ | .recording _ | .awaiting _ => x.demand.session = identity
  | .done => false

/-- The challenge a step records progress about, if it records any. -/
def records (o : Owner) : Action → Option String
  | .takesUp k _ =>
    match o.session.cell.sender, o.session.cell.last.authentication.progress with
    | true, .requested _ => (o.answers[k]?).map fun x => x.demand.challenge
    | _, _ => none
  | .writes k =>
    if o.session.cell.sender then (o.answers[k]?).map fun x => x.demand.challenge else none
  | _ => none

/-- The connection whose count of answers a step advances, if it advances one. -/
def counts (o : Owner) : Action → Option RelaySessionIdentity
  | .compares k => do
    let answer ← o.answers[k]?
    match answer.stage with
    | .recording (.answering _) =>
      if o.session.identity = answer.demand.session then some o.session.identity else none
    | _ => none
  | _ => none

/-- A new answer is about the challenge in front of the connection, for the
connection itself or one that was its own when a person was found to wait. -/
structure Begun (o : Owner) (y : Answer) : Prop where
  requested : o.session.cell.last.authentication.progress = .requested y.demand.challenge
  session : y.demand.session = o.session.cell.last.identity ∨
    ∃ decision, (y.demand.session, decision) ∈ o.people

/-- One answer goes from `x` to `y`. -/
structure Carries (o : Owner) (a : Action) (p : Owner) (k : Nat) (x y : Answer) : Prop where
  found : o.answers[k]? = some x
  answers : p.answers = o.answers.set k y
  people : p.people = o.people
  demand : y.demand = x.demand
  stage : y.stage ≠ .asked
  own : ∀ action, a ≠ .session action
  mayRecord : y.mayRecord o.session.identity = true → x.mayRecord o.session.identity = true
  session : records o a = none ∧ Frame o.session p.session ∨
    ∃ what, records o a = some x.demand.challenge ∧ o.session.cell.sender = true ∧
      x.mayRecord o.session.identity = true ∧ p.session = o.session.moved (Recorded.onto what)
  driver : p.session.phase = o.session.phase ∧ p.session.generations = o.session.generations
  attempts : p.attempts = (counts o a).elim o.attempts o.spend

theorem Frame.refl (s : Session) : Frame s s :=
  .of_still ⟨rfl, rfl, Nat.le_refl _, rfl, fun _ _ held => held⟩ rfl rfl

/-- An answer that only changes its stage. -/
theorem Carries.restage (found : o.answers[k]? = some x) {stage : Stage}
    (restaged : stage ≠ .asked) (own : ∀ action, a ≠ .session action) (unrecorded : records o a = none)
    (uncounted : counts o a = none)
    (mayRecord : ({ x with stage } : Answer).mayRecord o.session.identity = true →
      x.mayRecord o.session.identity = true) :
    Carries o a (o.put k { x with stage }) k x { x with stage } where
  found := found
  answers := rfl
  people := rfl
  demand := rfl
  stage := restaged
  own := own
  mayRecord := mayRecord
  session := .inl ⟨unrecorded, .refl _⟩
  driver := ⟨rfl, rfl⟩
  attempts := by
    rw [uncounted]
    rfl

theorem resolved_asked (o : Owner) (x : Answer) (decision : Decision) :
    resolved o x decision ≠ .asked := by
  unfold resolved
  split
  · simp [unanswerable]
  · cases decision <;> simp [decided]

theorem recordedThen_asked (what : Recorded) : recordedThen what ≠ .asked := by
  cases what <;> simp [recordedThen]

theorem returnedStage_recording (asOf : Nostr.PublicKey) (detail : String)
    (outcome : HandoffOutcome) : ∃ what, returnedStage asOf detail outcome = .recording what := by
  cases outcome <;> exact ⟨_, rfl⟩

theorem moved_gone {s : Session} (gone : s.cell.sender = false) (f : Connection → Connection) :
    Frame s (s.moved f) :=
  .of_still (.moved f) (by simp [Session.moved, ConnectionCell.moved, gone]) rfl

theorem takesUp_carries {asOf : Nostr.PublicKey} {event : Nostr.Event} {detail : String}
    (found : o.answers[k]? = some x) (signed : x.stage = .signed asOf event) :
    ∃ y, Carries o (.takesUp k detail) (takeUp o k x asOf event detail) k x y := by
  have waiting : x.mayRecord o.session.identity = true := by simp [Answer.mayRecord, signed]
  unfold takeUp
  split
  · rename_i challenge sender requested
    refine ⟨{ x with stage := .takenUp asOf event, taken := some o.session.cell.last },
      found, rfl, rfl, rfl, by simp, by simp, fun _ => waiting,
      .inr ⟨.answering event.pubkey, ?_, sender, waiting, rfl⟩, ⟨rfl, rfl⟩, rfl⟩
    simp [records, sender, requested, found]
  · rename_i unasked
    refine ⟨_, .restage found (by simp [unanswerable]) (by simp) ?_ rfl fun _ => waiting⟩
    simp only [records]

theorem writes_carries {what : Recorded} (found : o.answers[k]? = some x)
    (writing : x.stage = .writing what) :
    ∃ y, Carries o (.writes k) { o.put k { x with stage := recordedThen what } with
      session := o.session.moved what.onto } k x y := by
  have past : x.mayRecord o.session.identity = true := by simp [Answer.mayRecord, writing]
  refine ⟨{ x with stage := recordedThen what }, found, rfl, rfl, rfl, recordedThen_asked what, by simp,
    fun _ => past, ?_, ⟨rfl, rfl⟩, rfl⟩
  cases sender : o.session.cell.sender with
  | true => exact .inr ⟨what, by simp [records, sender, found], rfl, past, rfl⟩
  | false => exact .inl ⟨by simp [records, sender], moved_gone sender _⟩

/-- The identity check: what fails it is dropped, and what passes it may be
written later. -/
theorem compares_carries {what : Recorded} (found : o.answers[k]? = some x)
    (recording : x.stage = .recording what) :
    ∃ y, Carries o (.compares k) (compare o k x what) k x y := by
  unfold compare
  split
  · rename_i same
    refine ⟨{ x with stage := .writing what }, found, rfl, rfl, rfl, by simp, by simp, ?_,
      .inl ⟨rfl, .refl _⟩, ⟨rfl, rfl⟩, ?_⟩
    · simp [Answer.mayRecord, recording, same]
    · cases what <;> simp [counts, found, recording, same]
  · rename_i other
    refine ⟨_, .restage found (recordedThen_asked what) (by simp) rfl ?_ ?_⟩
    · cases what <;> simp [counts, found, recording, other]
    · cases what <;> simp [Answer.mayRecord, recording, recordedThen]

/-- What every step of the authenticator does: a step of the session, a new
answer or none for a change of who is waiting, or a step of one answer. -/
theorem step_cases (stepped : step o a = some p) :
    (∃ action, a = .session action ∧ Driver.step o.session action = some p.session ∧
      p = { o with session := p.session }) ∨
    (∃ people added, (∀ e ∈ people, e ∈ o.people ∨ e.1 = o.session.identity) ∧
      (∀ y ∈ added, Begun o y) ∧ records o a = none ∧ (∀ action, a ≠ .session action) ∧
      counts o a = none ∧ p = { o with people, answers := o.answers ++ added }) ∨
    ∃ k x y, Carries o a p k x y := by
  cases a with
  | session action =>
    simp only [step, Option.map_eq_some_iff] at stepped
    obtain ⟨session, stepped, rfl⟩ := stepped
    exact .inl ⟨action, rfl, stepped, rfl⟩
  | asked =>
    simp only [step] at stepped
    split at stepped <;> cases stepped
    rename_i challenge requested
    refine .inr (.inl ⟨o.people, [_], fun _ => .inl, ?_, rfl, by simp, rfl, rfl⟩)
    simp only [List.mem_singleton, forall_eq]
    exact ⟨requested, .inl rfl⟩
  | finds connection decision =>
    simp only [step] at stepped
    split at stepped
    · split at stepped <;> cases stepped
      rename_i same
      refine .inr (.inl ⟨(connection, decision) :: o.people, [], ?_, by simp, rfl, by simp, rfl, ?_⟩)
      · intro e member
        obtain rfl | old := List.mem_cons.mp member
        · exact .inr same.1.symm
        · exact .inl old
      · simp
    · cases stepped
  | reads connection decision =>
    simp only [step, Option.ite_none_right_eq_some] at stepped
    obtain ⟨found, stepped⟩ := stepped
    have kept : ∀ e ∈ o.people.erase (connection, decision),
        e ∈ o.people ∨ e.1 = o.session.identity := fun e member =>
      .inl (List.mem_of_mem_erase member)
    split at stepped <;> cases stepped
    · rename_i challenge requested
      refine .inr (.inl ⟨_, [_], kept, ?_, rfl, by simp, rfl, rfl⟩)
      simp only [List.mem_singleton, forall_eq]
      exact ⟨requested, .inr ⟨decision, found⟩⟩
    · exact .inr (.inl ⟨_, [], kept, by simp, rfl, by simp, rfl, by simp⟩)
  | decides k decision =>
    simp only [step, Option.bind_eq_bind, Option.bind_eq_some_iff] at stepped
    obtain ⟨x, found, stepped⟩ := stepped
    split at stepped <;> cases stepped
    rename_i asked
    exact .inr (.inr ⟨k, x, _, .restage found (resolved_asked o x decision) (by simp) rfl rfl
      fun _ => by simp [Answer.mayRecord, asked]⟩)
  | signs k returned =>
    simp only [step, Option.bind_eq_bind, Option.bind_eq_some_iff] at stepped
    obtain ⟨x, found, stepped⟩ := stepped
    split at stepped <;> cases stepped
    · rename_i signing
      exact .inr (.inr ⟨k, x, _, .restage found (by simp) (by simp) rfl rfl
        fun _ => by simp [Answer.mayRecord, signing]⟩)
    · rename_i signing
      exact .inr (.inr ⟨k, x, _, .restage found (by simp [unanswerable]) (by simp) rfl rfl
        fun _ => by simp [Answer.mayRecord, signing]⟩)
  | takesUp k detail =>
    simp only [step, Option.bind_eq_bind, Option.bind_eq_some_iff] at stepped
    obtain ⟨x, found, stepped⟩ := stepped
    split at stepped <;> cases stepped
    rename_i signed
    obtain ⟨y, carries⟩ := takesUp_carries found signed
    exact .inr (.inr ⟨k, x, y, carries⟩)
  | handsOff k frame detail =>
    simp only [step, Option.bind_eq_bind, Option.bind_eq_some_iff] at stepped
    obtain ⟨x, found, stepped⟩ := stepped
    split at stepped <;> cases stepped
    · rename_i takenUp
      refine .inr (.inr ⟨k, x, _, found, rfl, rfl, rfl, by simp, by simp, ?_, .inl ⟨rfl, ?_⟩,
        ⟨handOff_phase .., handOff_generations ..⟩, rfl⟩)
      · simp [Answer.mayRecord, takenUp]
      · exact .of_still (handOff_still ..) (handOff_cell ..) (by rw [handOff_phase])
    · rename_i takenUp
      exact .inr (.inr ⟨k, x, _, .restage found (by simp [unanswerable]) (by simp) rfl rfl
        (by simp [Answer.mayRecord, takenUp, unanswerable])⟩)
  | returns k detail =>
    simp only [step, Option.bind_eq_bind, Option.bind_eq_some_iff] at stepped
    obtain ⟨x, found, ticket, -, outcome, -, stepped⟩ := stepped
    split at stepped <;> cases stepped
    rename_i asOf handing
    obtain ⟨what, returned⟩ := returnedStage_recording asOf detail outcome.2
    rw [returned]
    exact .inr (.inr ⟨k, x, _, .restage found (by simp) (by simp) rfl rfl
      (by simp [Answer.mayRecord, handing])⟩)
  | compares k =>
    simp only [step, Option.bind_eq_bind, Option.bind_eq_some_iff] at stepped
    obtain ⟨x, found, stepped⟩ := stepped
    split at stepped <;> cases stepped
    rename_i recording
    obtain ⟨y, carries⟩ := compares_carries found recording
    exact .inr (.inr ⟨k, x, y, carries⟩)
  | writes k =>
    simp only [step, Option.bind_eq_bind, Option.bind_eq_some_iff] at stepped
    obtain ⟨x, found, stepped⟩ := stepped
    split at stepped <;> cases stepped
    rename_i writing
    obtain ⟨y, carries⟩ := writes_carries found writing
    exact .inr (.inr ⟨k, x, y, carries⟩)
  | settles k settlement =>
    simp only [step, Option.bind_eq_bind, Option.bind_eq_some_iff] at stepped
    obtain ⟨x, found, stepped⟩ := stepped
    split at stepped <;> cases stepped
    rename_i awaiting
    refine .inr (.inr ⟨k, x, _, .restage found ?_ (by simp) rfl rfl ?_⟩) <;> cases settlement <;>
      simp [settled, Answer.mayRecord, awaiting]

theorem session_identity {s t : Session} {action : Driver.Action}
    (stepped : Driver.step s action = some t) (stays : action ≠ .advances) :
    t.identity = s.identity := by
  cases SessionChange.of_step stepped with
  | frame frame => simp only [Session.identity, frame.relay, frame.generation]
  | challenge | recv | moves => rfl
  | advances => exact absurd rfl stays

/-- Generations only go up. -/
theorem session_later {s t : Session} {action : Driver.Action} (minted : Minted s)
    (stepped : Driver.step s action = some t) : s.generation ≤ t.generation := by
  by_cases advances : action = .advances
  · subst advances
    exact (advances_generation minted stepped).le
  · have same := session_identity stepped advances
    simp only [Session.identity, RelaySessionIdentity.mk.injEq] at same
    exact same.2.ge

theorem session_last {s t : Session} {action : Driver.Action} (minted : Minted s)
    (last : s.cell.last.identity.connection ≤ s.generation)
    (stepped : Driver.step s action = some t) :
    t.cell.last.identity.connection ≤ t.generation := by
  have later := session_later minted stepped
  cases SessionChange.of_step stepped with
  | frame frame =>
    rw [frame.identity]
    exact last.trans later
  | challenge =>
    cases sender : s.cell.sender <;>
      simpa [Session.moved, ConnectionCell.moved, sender, challenged] using last
  | recv => exact last
  | advances => exact last.trans later
  | moves =>
    cases sender : s.cell.sender with
    | true => simp [Session.moved, ConnectionCell.moved, sender, replaced, Session.identity]
    | false => simpa [Session.moved, ConnectionCell.moved, sender] using last

/-- No connection is named that the session has not had yet. -/
structure Past (o : Owner) : Prop where
  minted : Minted o.session
  last : o.session.cell.last.identity.connection ≤ o.session.generation
  people : ∀ e ∈ o.people, e.1.connection ≤ o.session.generation
  answers : ∀ x ∈ o.answers, x.demand.session.connection ≤ o.session.generation

theorem attached_past (relay maxFrameBytes outboundFrames reconnectAttempts generation) :
    Past (attached
      (opened relay maxFrameBytes outboundFrames reconnectAttempts generation)) where
  minted := opened_minted ..
  last := Nat.le_refl _
  people := by simp [attached]
  answers := by simp [attached]

theorem Carries.identity (carries : Carries o a p k x y) :
    p.session.identity = o.session.identity ∧
      p.session.cell.last.identity = o.session.cell.last.identity := by
  obtain ⟨-, frame⟩ | ⟨what, -, sender, -, moved⟩ := carries.session
  · exact ⟨by simp only [Session.identity, frame.relay, frame.generation], frame.identity⟩
  · rw [moved]
    exact ⟨rfl, by simp [Session.moved, ConnectionCell.moved, sender, Recorded.onto]⟩

theorem Begun.past (past : Past o) (begun : Begun o y) :
    y.demand.session.connection ≤ o.session.generation := by
  obtain own | ⟨decision, waiting⟩ := begun.session
  · rw [own]
    exact past.last
  · exact past.people _ waiting

theorem Past.session {action : Driver.Action} {s : Session} (past : Past o)
    (stepped : Driver.step o.session action = some s) : Past { o with session := s } := by
  have later := session_later past.minted stepped
  exact ⟨step_minted past.minted stepped, session_last past.minted past.last stepped,
    fun e member => (past.people e member).trans later,
    fun x member => (past.answers x member).trans later⟩

theorem step_past (past : Past o) (stepped : step o a = some p) : Past p := by
  obtain ⟨action, rfl, moved, rest⟩ | ⟨people, added, kept, begun, -, -, -, rfl⟩ |
    ⟨k, x, y, carries⟩ := step_cases stepped
  · rw [rest]
    exact past.session moved
  · refine ⟨past.minted, past.last, fun e member => ?_, fun x member => ?_⟩
    · obtain old | same := kept e member
      · exact past.people e old
      · rw [same]
        rfl
    · obtain old | new := List.mem_append.mp member
      · exact past.answers x old
      · have within := (begun x new).past past
        exact within
  · obtain ⟨identity, last⟩ := carries.identity
    have generation : p.session.generation = o.session.generation :=
      congrArg RelaySessionIdentity.connection identity
    refine ⟨past.minted.keep generation carries.driver.2.ge (by rw [carries.driver.1]; simp), ?_,
      ?_, fun z member => ?_⟩
    · rw [last, generation]
      exact past.last
    · rw [carries.people, generation]
      exact past.people
    · rw [carries.answers] at member
      rw [generation]
      obtain old | rfl := List.mem_or_eq_of_mem_set member
      · exact past.answers z old
      · rw [carries.demand]
        exact past.answers x (List.mem_of_getElem? carries.found)

end Fava.Auth
