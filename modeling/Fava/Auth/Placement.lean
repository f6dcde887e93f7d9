import Fava.Auth.Authenticator

namespace Fava.Auth

open Fava.Lib Fava.Relay Fava.Transport Fava.Transport.Driver

variable {s t : Session} {x : Answer} {o p : Owner}

/-- Holding a demand and not yet inside `RelaySessionExt::answer`. -/
def Stage.waiting : Stage → Bool
  | .asked | .signing _ | .signed .. => true
  | _ => false

def Stage.up : Stage → Bool
  | .takenUp .. => true
  | _ => false

/-- The driver has switched identity and not yet reset the connection's state. -/
def switching : Phase → Bool
  | .advanced _ => true
  | _ => false

/-- The frame of this ticket is about to be queued, or queued. -/
def holds (s : Session) (ticket : Nat) : Bool :=
  s.calls.any (fun call => call.ticket = ticket) || s.queue.any (fun o => o.call.ticket = ticket)

/-- Taken up, and its frame neither written nor refused yet. -/
def Answer.unwritten (s : Session) (x : Answer) : Bool := x.stage.up || x.ticket.any (holds s)

/-- Every answer whose frame was written went out on the connection its demand
was raised for, and was taken up while that connection had exactly its
challenge in front of it. -/
def AnsweredInPlace (o : Owner) : Prop :=
  ∀ x ∈ o.answers, ∀ w ∈ o.session.written, x.ticket = some w.2.call.ticket →
    x.demand.session = ⟨o.session.relay, w.1⟩ ∧
    ∃ c, x.taken = some c ∧ c.identity = x.demand.session ∧
      c.authentication.progress = .requested x.demand.challenge

/-- The relay challenges only while every answer still being decided or signed
is for that challenge on this connection; the driver switches identity only
while no answer is taken up and unwritten; none is taken up between the switch
and the reset of the connection's state; and a person's answer reads the
challenge of the connection the person named. -/
def Undisturbed (o : Owner) : Action → Prop
  | .session (.challenge challenge) => ∀ x ∈ o.answers, x.stage.waiting = true →
      x.demand = ⟨o.session.cell.last.identity, challenge⟩
  | .session .advances => ∀ x ∈ o.answers, x.unwritten o.session = false
  | .takesUp _ _ => switching o.session.phase = false
  | .reads connection _ => o.session.cell.last.identity = connection
  | _ => True

/-- What a step leaves alone that neither switches identity nor writes. -/
structure Still (s t : Session) : Prop where
  relay : t.relay = s.relay
  generation : t.generation = s.generation
  tickets : s.tickets ≤ t.tickets
  written : t.written = s.written
  held : ∀ ticket < s.tickets, holds t ticket = true → holds s ticket = true

def Demanding (s : Session) (x : Answer) : Prop :=
  x.stage.waiting = true → ∀ challenge,
    s.cell.last.authentication.progress = .requested challenge →
      x.demand = ⟨s.cell.last.identity, challenge⟩

structure Placed (s : Session) (x : Answer) : Prop where
  demanding : Demanding s x
  taken : ∀ c, x.taken = some c →
    c.identity = x.demand.session ∧ c.authentication.progress = .requested x.demand.challenge
  up : x.stage.up = true → x.taken.isSome
  ticketed : ∀ ticket, x.ticket = some ticket → x.taken.isSome ∧ ticket < s.tickets
  here : x.unwritten s = true → x.demand.session = s.identity
  sent : ∀ w ∈ s.written, x.ticket = some w.2.call.ticket → x.demand.session = ⟨s.relay, w.1⟩

/-- The connection's state names the session's identity, but for the moment
between the two writes of a replacement and after the end. -/
def Named (s : Session) : Prop :=
  s.cell.sender = true → switching s.phase = false → s.cell.last.identity = s.identity

theorem Still.moved (f : Connection → Connection) : Still s (s.moved f) :=
  ⟨rfl, rfl, Nat.le_refl _, rfl, fun _ _ held => held⟩

theorem unwritten_of_still (still : Still s t) (placed : Placed s x)
    (unwritten : x.unwritten t = true) : x.unwritten s = true := by
  cases ticket : x.ticket with
  | none => simpa [Answer.unwritten, ticket] using unwritten
  | some n =>
    simp only [Answer.unwritten, ticket, Option.any_some, Bool.or_eq_true] at unwritten ⊢
    exact unwritten.imp_right (still.held n (placed.ticketed n ticket).2)

theorem Placed.still (placed : Placed s x) (still : Still s t) (demanding : Demanding t x) :
    Placed t x where
  demanding := demanding
  taken := placed.taken
  up := placed.up
  ticketed ticket minted :=
    ⟨(placed.ticketed ticket minted).1, Nat.lt_of_lt_of_le (placed.ticketed ticket minted).2
      still.tickets⟩
  here unwritten := by
    rw [placed.here (unwritten_of_still still placed unwritten)]
    simp only [Session.identity, still.relay, still.generation]
  sent w written := by
    rw [still.written] at written
    rw [still.relay]
    exact placed.sent w written

/-- A later stage of the same answer that is neither waiting nor taken up. -/
theorem Placed.restage (placed : Placed s x) {stage : Stage} (waits : stage.waiting = false)
    (rests : stage.up = false) : Placed s { x with stage } where
  demanding waiting := by simp [waits] at waiting
  taken := placed.taken
  up up := by simp [rests] at up
  ticketed := placed.ticketed
  here unwritten := placed.here (by
    simp only [Answer.unwritten, rests, Bool.false_or] at unwritten
    simp [Answer.unwritten, unwritten])
  sent := placed.sent

/-- A stage of an answer that waited and goes on waiting. -/
theorem Placed.wait (placed : Placed s x) {stage : Stage} (waiting : x.stage.waiting = true)
    (rests : stage.up = false) : Placed s { x with stage } where
  demanding _ := placed.demanding waiting
  taken := placed.taken
  up up := by simp [rests] at up
  ticketed := placed.ticketed
  here unwritten := placed.here (by
    simp only [Answer.unwritten, rests, Bool.false_or] at unwritten
    simp [Answer.unwritten, unwritten])
  sent := placed.sent

@[simp] theorem unanswerable_up (reason : String) : (unanswerable reason).up = false := rfl

@[simp] theorem unanswerable_waiting (reason : String) : (unanswerable reason).waiting = false :=
  rfl

theorem begin_up {demand : AuthenticationDemand} {stage : Stage} (rests : stage.up = false) :
    (begin demand stage).stage.up = false := by
  cases refused : challengeError demand.challenge <;> simp [begin, refused, rests]

theorem begin_placed {demand : AuthenticationDemand} {stage : Stage}
    (demanding : ∀ challenge, s.cell.last.authentication.progress = .requested challenge →
      demand = ⟨s.cell.last.identity, challenge⟩) (rests : stage.up = false) :
    Placed s (begin demand stage) where
  demanding _ := demanding
  taken c taken := by simp [begin] at taken
  up up := by simp [begin_up rests] at up
  ticketed ticket minted := by simp [begin] at minted
  here unwritten := by
    simp only [Answer.unwritten, begin_up rests] at unwritten
    simp [begin] at unwritten
  sent w _ ticket := by simp [begin] at ticket

theorem Demanding.of_cell (demanding : Demanding s x)
    (identity : t.cell.last.identity = s.cell.last.identity)
    (authentication : t.cell.last.authentication = s.cell.last.authentication) :
    Demanding t x := by
  intro waiting challenge requested
  rw [identity]
  exact demanding waiting challenge (authentication ▸ requested)

theorem Demanding.of_answered
    (answered : ∀ challenge, t.cell.last.authentication.progress ≠ .requested challenge) :
    Demanding t x :=
  fun _ challenge requested => absurd requested (answered challenge)

theorem onto_answered (what : Recorded) (c : Connection) (challenge : String) :
    (what.onto c).authentication.progress ≠ .requested challenge := by
  cases what <;> simp [Recorded.onto, Recorded.authentication]

/-- Recording something leaves the connection asking for nothing, or leaves it
alone once it has ended. -/
theorem Demanding.moved (demanding : Demanding s x) (what : Recorded) :
    Demanding (s.moved what.onto) x := by
  cases sender : s.cell.sender with
  | true =>
    refine .of_answered ?_
    simp only [Session.moved, ConnectionCell.moved, sender, if_true]
    exact onto_answered what _
  | false =>
    refine demanding.of_cell ?_ ?_ <;>
      simp [Session.moved, ConnectionCell.moved, sender]

/-- The steps of a session that concern no answer. -/
structure Frame (s t : Session) : Prop extends Still s t where
  identity : t.cell.last.identity = s.cell.last.identity
  authentication : t.cell.last.authentication = s.cell.last.authentication
  sender : t.cell.sender = true → s.cell.sender = true
  phase : switching t.phase = switching s.phase

theorem Frame.of_still (still : Still s t) (cell : t.cell = s.cell)
    (phase : switching t.phase = switching s.phase) : Frame s t where
  toStill := still
  identity := by rw [cell]
  authentication := by rw [cell]
  sender := by rw [cell]; exact id
  phase := phase

/-- A transition that touches only whether the relay can be reached. -/
theorem Frame.of_moved {f : Connection → Connection}
    (identity : ∀ c, (f c).identity = c.identity)
    (authentication : ∀ c, (f c).authentication = c.authentication)
    (still : Still s t) (cell : t.cell = (s.cell.moved f).1)
    (phase : switching t.phase = switching s.phase) : Frame s t := by
  cases sender : s.cell.sender with
  | true =>
    simp only [ConnectionCell.moved, sender, if_true] at cell
    exact ⟨still, by rw [cell, identity], by rw [cell, authentication], fun _ => sender, phase⟩
  | false =>
    simp only [ConnectionCell.moved, sender] at cell
    exact .of_still still cell phase

theorem shut_identity (c : Connection) : (shut c).identity = c.identity := by
  unfold shut
  split <;> rfl

theorem shut_authentication (c : Connection) : (shut c).authentication = c.authentication := by
  unfold shut
  split <;> rfl

theorem handOff_still (frame : String) (correlation : Nat) (awaited : Bool) :
    Still s (handOff s frame correlation awaited) := by
  simp only [handOff]
  split
  · exact ⟨rfl, rfl, Nat.le_succ _, rfl, fun _ _ held => held⟩
  · split
    · exact ⟨rfl, rfl, Nat.le_succ _, rfl, fun _ _ held => held⟩
    · refine ⟨rfl, rfl, Nat.le_succ _, rfl, fun ticket old held => ?_⟩
      simp only [holds, List.any_cons, Bool.or_eq_true, decide_eq_true_eq] at held ⊢
      obtain (new | calls) | queue := held
      · exact absurd new (Nat.ne_of_gt old)
      · exact .inl calls
      · exact .inr queue

theorem handOff_cell (frame : String) (correlation : Nat) (awaited : Bool) :
    (handOff s frame correlation awaited).cell = s.cell := by
  simp only [handOff]
  split
  · rfl
  · split <;> rfl

theorem trySend_still {call : Call} (member : call ∈ s.calls) : Still s (trySend s call) := by
  have fewer : ∀ ticket, (s.calls.erase call).any (fun call => call.ticket = ticket) = true →
      s.calls.any (fun call => call.ticket = ticket) = true := by
    intro ticket
    simp only [List.any_eq_true]
    rintro ⟨other, member, same⟩
    exact ⟨other, List.mem_of_mem_erase member, same⟩
  unfold trySend
  split
  · refine ⟨rfl, rfl, Nat.le_refl _, rfl, fun ticket _ held => ?_⟩
    simp only [holds, Bool.or_eq_true] at held ⊢
    exact held.imp_left (fewer ticket)
  · split
    · refine ⟨rfl, rfl, Nat.le_refl _, rfl, fun ticket _ held => ?_⟩
      simp only [holds, Bool.or_eq_true] at held ⊢
      exact held.imp_left (fewer ticket)
    · refine ⟨rfl, rfl, Nat.le_refl _, rfl, fun ticket _ held => ?_⟩
      simp only [holds, List.any_append, List.any_cons, List.any_nil, Bool.or_false,
        Bool.or_eq_true, decide_eq_true_eq] at held ⊢
      obtain calls | queue | rfl := held
      · exact .inl (fewer ticket calls)
      · exact .inr queue
      · exact .inl (List.any_eq_true.mpr ⟨call, member, by simp⟩)

theorem trySend_cell (call : Call) : (trySend s call).cell = s.cell := by
  unfold trySend
  split
  · rfl
  · split <;> rfl

/-- Every step of the session is one of the four that concern answers, or leaves
them alone. -/
inductive SessionChange (s : Session) : Driver.Action → Session → Prop
  | frame {a : Driver.Action} {t : Session} (frame : Frame s t) : SessionChange s a t
  | challenge {challenge : String} {socket : Nat} (phase : s.phase = .pumping socket) :
      SessionChange s (.challenge challenge) (s.moved (challenged challenge))
  | recv {socket : Nat} {pending : Outbound} {rest : List Outbound}
      (phase : s.phase = .pumping socket) (queue : s.queue = pending :: rest) :
      SessionChange s .recv { s with
        phase := .writing socket pending s.identity
        queue := rest
        written := s.written ++ [(socket, pending)] }
  | advances {socket : Nat} (phase : s.phase = .established socket) :
      SessionChange s .advances { s with generation := socket, phase := .advanced socket }
  | moves {socket : Nat} (phase : s.phase = .advanced socket) :
      SessionChange s .moves { s.moved (replaced s.identity) with phase := .pumping socket }

theorem SessionChange.of_step {a : Driver.Action} (stepped : Driver.step s a = some t) :
    SessionChange s a t := by
  have still {t : Session} (relay : t.relay = s.relay) (generation : t.generation = s.generation)
      (tickets : s.tickets ≤ t.tickets) (written : t.written = s.written)
      (held : ∀ ticket, ticket < s.tickets → holds t ticket = true → holds s ticket = true)
      (cell : t.cell = s.cell) (phase : switching t.phase = switching s.phase) :
      SessionChange s a t := .frame (.of_still ⟨relay, generation, tickets, written, held⟩ cell phase)
  cases Stepped.of_step stepped with
  | challenge phase => exact .challenge phase
  | recv phase queue => exact .recv phase queue
  | advances phase => exact .advances phase
  | moves phase => exact .moves phase
  | handOff | enqueue => exact .frame (.of_still (handOff_still ..) (handOff_cell ..) (by rw [handOff_phase]))
  | @trySend call member =>
    exact .frame (.of_still (trySend_still member) (trySend_cell call) (by rw [trySend_phase]))
  | close | timesOut | abandon | othersMint =>
    exact still rfl rfl (Nat.le_refl _) rfl (fun _ _ held => held) rfl rfl
  | closeRouter => exact .frame (.of_moved shut_identity shut_authentication (.moved shut) rfl rfl)
  | stops phase =>
    exact .frame (.of_moved shut_identity shut_authentication
      ⟨rfl, rfl, Nat.le_refl _, rfl, fun _ _ held => held⟩ rfl (by simp [phase, switching]))
  | @givesUp detail attempts _ phase =>
    exact .frame (.of_moved (f := exhausted attempts detail) (fun _ => rfl) (fun _ => rfl)
      ⟨rfl, rfl, Nat.le_refl _, rfl, fun _ _ held => held⟩ rfl (by simp [phase, switching]))
  | writeDone phase | writeFails phase | writeTimesOut phase | socketEnds phase | closeDone phase
  | hearsClose phase | drained phase | mints phase | spent phase | connects phase =>
    exact still rfl rfl (Nat.le_refl _) rfl (fun _ _ held => held) rfl
      (by simp [phase, switching, wrote])
  | drains _ queue =>
    refine still rfl rfl (Nat.le_refl _) rfl (fun ticket _ held => ?_) rfl rfl
    simp only [holds, Session.complete, Bool.or_eq_true] at held
    simp only [holds, queue, List.any_cons, Bool.or_eq_true]
    exact held.imp_right .inr
  | checksClosed phase | wakes phase =>
    refine still rfl rfl (Nat.le_refl _) rfl (fun _ _ held => held) rfl ?_
    cases s.closed <;> simp [phase, switching]
  | misses phase =>
    refine still rfl rfl (Nat.le_refl _) rfl (fun _ _ held => held) rfl ?_
    dsimp only
    split <;> simp [phase, switching]
  | finishes phase =>
    refine still rfl rfl (Nat.le_refl _) rfl (fun ticket _ held => ?_) rfl
      (by simp [dropReceiver, phase, switching])
    simp only [holds, dropReceiver, List.any_nil, Bool.or_false] at held
    simp [holds, held]

theorem Frame.named (frame : Frame s t) (named : Named s) : Named t := by
  intro sender phase
  have same := named (frame.sender sender) (frame.phase ▸ phase)
  simpa only [frame.identity, Session.identity, frame.relay, frame.generation] using same

theorem Named.moved {f : Connection → Connection} (named : Named s)
    (identity : ∀ c, (f c).identity = c.identity) : Named (s.moved f) := by
  intro sender phase
  cases before : s.cell.sender with
  | true =>
    have same := named before phase
    simp only [Session.moved, ConnectionCell.moved, before, if_true, identity]
    exact same
  | false => simp [Session.moved, ConnectionCell.moved, before] at sender

theorem recv_placed {socket : Nat} {pending : Outbound} {rest : List Outbound}
    (accounted : OnSocket s) (placed : Placed s x) (phase : s.phase = .pumping socket)
    (queue : s.queue = pending :: rest) : Placed { s with
      phase := .writing socket pending s.identity
      queue := rest
      written := s.written ++ [(socket, pending)] } x := by
  have held : ∀ ticket, holds { s with queue := rest } ticket = true → holds s ticket = true := by
    intro ticket held
    simp only [holds, queue, List.any_cons, Bool.or_eq_true] at held ⊢
    exact held.imp_right .inr
  have fewer := placed.still (t := { s with queue := rest })
    ⟨rfl, rfl, Nat.le_refl _, rfl, fun ticket _ => held ticket⟩ placed.demanding
  refine ⟨fewer.demanding, fewer.taken, fewer.up, fewer.ticketed, fewer.here, ?_⟩
  intro w member ticket
  obtain old | new := List.mem_append.mp member
  · exact placed.sent w old ticket
  · rw [List.mem_singleton.mp new] at ticket ⊢
    have unwritten : x.unwritten s = true := by
      simp [Answer.unwritten, ticket, holds, queue]
    rw [placed.here unwritten, accounted socket (by rw [phase]; rfl)]
    rfl

theorem advances_placed {socket : Nat} (placed : Placed s x) (written : x.unwritten s = false) :
    Placed { s with generation := socket, phase := .advanced socket } x := by
  refine ⟨placed.demanding, placed.taken, placed.up, placed.ticketed, ?_, placed.sent⟩
  intro unwritten
  exact absurd (show x.unwritten s = true from unwritten) (by simp [written])

theorem moves_placed {socket : Nat} (placed : Placed s x) :
    Placed { s.moved (replaced s.identity) with phase := .pumping socket } x := by
  refine placed.still ⟨rfl, rfl, Nat.le_refl _, rfl, fun _ _ held => held⟩ ?_
  cases sender : s.cell.sender with
  | true =>
    refine .of_answered ?_
    simp [Session.moved, ConnectionCell.moved, sender, replaced, Authentication.unoffered]
  | false =>
    refine placed.demanding.of_cell ?_ ?_ <;> simp [Session.moved, ConnectionCell.moved, sender]

theorem challenge_placed {challenge : String} (placed : Placed s x)
    (same : x.stage.waiting = true → x.demand = ⟨s.cell.last.identity, challenge⟩) :
    Placed (s.moved (challenged challenge)) x := by
  refine placed.still (.moved _) ?_
  cases sender : s.cell.sender with
  | true =>
    intro waiting other requested
    simp only [Session.moved, ConnectionCell.moved, sender, if_true, challenged,
      Progress.requested.injEq] at requested ⊢
    subst requested
    exact same waiting
  | false =>
    refine placed.demanding.of_cell ?_ ?_ <;> simp [Session.moved, ConnectionCell.moved, sender]

/-- What holds of the authenticator and its session between any two steps, as
long as no answer is disturbed. -/
structure InPlace (o : Owner) : Prop where
  accounted : Accounted o.session
  onSocket : OnSocket o.session
  named : Named o.session
  placed : ∀ x ∈ o.answers, Placed o.session x

theorem session_named {a : Driver.Action} (named : Named s) (stepped : Driver.step s a = some t) :
    Named t := by
  cases SessionChange.of_step stepped with
  | frame frame => exact frame.named named
  | challenge => exact named.moved fun _ => rfl
  | recv phase =>
    intro sender _
    exact named sender (by rw [phase]; rfl)
  | advances =>
    intro _ phase
    simp [switching] at phase
  | moves =>
    intro sender _
    cases before : s.cell.sender with
    | true => simp [Session.moved, ConnectionCell.moved, before, replaced, Session.identity]
    | false => simp [Session.moved, ConnectionCell.moved, before] at sender

theorem session_inPlace {a : Driver.Action} (inv : InPlace o) (calm : Undisturbed o (.session a))
    (stepped : Driver.step o.session a = some t) : InPlace { o with session := t } where
  accounted := step_accounted inv.accounted stepped
  onSocket := step_onSocket inv.onSocket stepped
  named := session_named inv.named stepped
  placed x member := by
    have placed := inv.placed x member
    cases SessionChange.of_step stepped with
    | frame frame =>
      exact placed.still frame.toStill (placed.demanding.of_cell frame.identity frame.authentication)
    | challenge => exact challenge_placed placed (calm x member)
    | recv phase queue => exact recv_placed inv.onSocket placed phase queue
    | advances => exact advances_placed placed (calm x member)
    | moves => exact moves_placed placed

end Fava.Auth
