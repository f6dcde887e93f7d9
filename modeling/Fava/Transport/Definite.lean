import Fava.Transport.Generation

namespace Fava.Transport.Driver

open Fava.Lib Fava.Relay Fava.Transport

variable {s t : Session} {a : Action}

def HandoffOutcome.refused : HandoffOutcome → Bool
  | .notHandedOff .. => true
  | _ => false

def HandoffOutcome.confirmed : HandoffOutcome → Bool
  | .handedOff .. => true
  | _ => false

/-- The frames whose bytes went into a socket, whole or in part. -/
def Session.wire (s : Session) : List Nat := s.written.map fun w => w.2.call.ticket

/-- The frames that are on their way to a socket, or went into one. -/
def Session.underway (s : Session) : List Nat :=
  s.calls.map Call.ticket ++ s.queue.map (fun o => o.call.ticket) ++ s.wire

/-- What a caller is told of its frame is so: a frame refused was not written and
never will be, and a frame handed off was written. -/
structure Definite (s : Session) : Prop where
  refused : ∀ r ∈ s.returned, r.2.refused = true → r.1 < s.tickets ∧ r.1 ∉ s.underway
  confirmed : ∀ r ∈ s.returned, r.2.confirmed = true → r.1 ∈ s.wire
  writing : ∀ socket pending identity, s.phase = .writing socket pending identity →
    pending.call.ticket ∈ s.wire

theorem mem_answered {returned : List (Nat × HandoffOutcome)} {call : Call}
    {outcome : HandoffOutcome} {r : Nat × HandoffOutcome}
    (member : r ∈ Session.answered returned call outcome) :
    r ∈ returned ∨ r = (call.ticket, outcome) := by
  unfold Session.answered at member
  split at member
  · simpa using member
  · exact .inl member

/-- What a step adds to what callers were told is as definite as the rest, and it
brings no frame back. -/
theorem Definite.grow (definite : Definite s) (tickets : s.tickets ≤ t.tickets)
    (underway : ∀ n ∈ t.underway, n ∈ s.underway ∨ s.tickets ≤ n)
    (wire : ∀ n ∈ s.wire, n ∈ t.wire)
    (returned : ∀ r ∈ t.returned, r ∈ s.returned ∨
      (r.2.refused = true → r.1 < t.tickets ∧ r.1 ∉ t.underway) ∧
      (r.2.confirmed = true → r.1 ∈ t.wire))
    (writing : ∀ socket pending identity, t.phase = .writing socket pending identity →
      s.phase = .writing socket pending identity ∨ pending.call.ticket ∈ t.wire) :
    Definite t where
  refused r member refused := by
    obtain old | new := returned r member
    · obtain ⟨minted, away⟩ := definite.refused r old refused
      refine ⟨minted.trans_le tickets, fun back => ?_⟩
      obtain still | fresh := underway r.1 back
      · exact away still
      · exact absurd minted (Nat.not_lt_of_le fresh)
    · exact new.1 refused
  confirmed r member confirmed := by
    obtain old | new := returned r member
    · exact wire _ (definite.confirmed r old confirmed)
    · exact new.2 confirmed
  writing socket pending identity phase := by
    obtain old | new := writing socket pending identity phase
    · exact wire _ (definite.writing socket pending identity old)
    · exact new

theorem opened_definite (relay maxFrameBytes outboundFrames reconnectAttempts generation) :
    Definite (opened relay maxFrameBytes outboundFrames reconnectAttempts generation) where
  refused := by simp [opened]
  confirmed := by simp [opened]
  writing := by simp [opened]

/-- A frame is underway once, and under a ticket that was minted. -/
theorem Accounted.underway (accounted : Accounted s) :
    s.underway.Nodup ∧ ∀ n ∈ s.underway, n < s.tickets := by
  have places := accounted.places.symm.map fun o => o.call.ticket
  rw [List.map_append, List.map_append, List.map_map] at places
  have same : s.used.Perm (s.underway ++ s.discarded.map fun o => o.call.ticket) := by
    rw [Session.underway, List.append_assoc, List.append_assoc, ← List.append_assoc (List.map _ s.queue)]
    exact places.append_left _
  refine ⟨(List.nodup_append.mp (same.nodup_iff.mp accounted.once)).1, fun n member => ?_⟩
  exact accounted.minted n (same.mem_iff.mpr (List.mem_append_left _ member))

/-- A frame that leaves is gone: it was underway once. -/
theorem away_of_perm (accounted : Accounted s) {n : Nat} (left : s.underway.Perm (n :: t.underway)) :
    n < s.tickets ∧ n ∉ t.underway := by
  obtain ⟨once, minted⟩ := accounted.underway
  exact ⟨minted n (left.mem_iff.mpr List.mem_cons_self),
    (List.nodup_cons.mp (left.nodup_iff.mp once)).1⟩

theorem handOff_definite (accounted : Accounted s) (definite : Definite s) (frame : String)
    (correlation : Nat) (awaited : Bool) : Definite (handOff s frame correlation awaited) := by
  have fresh : s.tickets ∉ s.underway := fun back =>
    Nat.lt_irrefl _ (accounted.underway.2 _ back)
  have told : ∀ (reason : TransportFailure) (r : Nat × HandoffOutcome),
      r ∈ Session.answered s.returned ⟨s.tickets, frame, correlation, awaited, s.identity⟩
        (.notHandedOff s.identity correlation reason) → r ∈ s.returned ∨
      (r.2.refused = true → r.1 < s.tickets + 1 ∧ r.1 ∉ s.underway) ∧
      (r.2.confirmed = true → r.1 ∈ s.wire) := by
    intro reason r member
    obtain old | rfl := mem_answered member
    · exact .inl old
    · exact .inr ⟨fun _ => ⟨Nat.lt_succ_self _, fresh⟩, nofun⟩
  simp only [handOff]
  split
  · exact definite.grow (Nat.le_succ _) (fun n back => .inl back) (fun n old => old) (told _)
      fun _ _ _ phase => .inl phase
  · split
    · exact definite.grow (Nat.le_succ _) (fun n back => .inl back) (fun n old => old) (told _)
        fun _ _ _ phase => .inl phase
    · refine definite.grow (Nat.le_succ _) (fun n back => ?_) (fun n old => old)
        (fun r old => .inl old) fun _ _ _ phase => .inl phase
      simp only [Session.underway, List.map_cons, List.cons_append, List.mem_cons] at back
      obtain rfl | back := back
      · exact .inr (Nat.le_refl _)
      · exact .inl back

theorem trySend_definite (accounted : Accounted s) (definite : Definite s) {call : Call}
    (member : call ∈ s.calls) : Definite (trySend s call) := by
  have calls : (s.calls.map Call.ticket).Perm
      (call.ticket :: (s.calls.erase call).map Call.ticket) :=
    (List.perm_cons_erase member).map Call.ticket
  have left : ∀ t : Session, t.calls = s.calls.erase call → t.queue = s.queue →
      t.written = s.written → s.underway.Perm (call.ticket :: t.underway) := by
    intro t rest queue written
    rw [Session.underway, Session.underway, Session.wire, Session.wire, rest, queue, written,
      List.append_assoc, List.append_assoc, ← List.cons_append]
    exact calls.append_right _
  have refuses : ∀ (reason : TransportFailure), Definite
      { s.complete call (.notHandedOff call.identity call.correlation reason) with
        calls := s.calls.erase call } := by
    intro reason
    have away := left { s.complete call (.notHandedOff call.identity call.correlation reason) with
      calls := s.calls.erase call } rfl rfl rfl
    refine definite.grow (Nat.le_refl _) (fun n back => ?_) (fun n old => old) (fun r told => ?_)
      fun _ _ _ phase => .inl phase
    · exact .inl (away.mem_iff.mpr (List.mem_cons_of_mem _ back))
    · obtain old | rfl := mem_answered told
      · exact .inl old
      · exact .inr ⟨fun _ => away_of_perm accounted away, nofun⟩
  unfold trySend
  split
  · exact refuses _
  · split
    · exact refuses _
    · refine definite.grow (Nat.le_refl _) (fun n back => .inl ?_) (fun n old => old)
        (fun r old => .inl old) fun _ _ _ phase => .inl phase
      simp only [Session.underway, List.map_append, List.map_cons, List.map_nil, List.mem_append,
        List.mem_singleton] at back ⊢
      obtain (kept | queued | rfl) | wire := back
      · exact .inl (.inl (calls.mem_iff.mpr (List.mem_cons_of_mem _ kept)))
      · exact .inl (.inr queued)
      · exact .inl (.inl (List.mem_map_of_mem member))
      · exact .inr wire

/-- The end of a write: the outcome is no refusal, and a confirmation is of the
frame that was written. -/
theorem wrote_definite (definite : Definite s) {socket : Nat} {pending : Outbound}
    {identity : RelaySessionIdentity} (phase : s.phase = .writing socket pending identity)
    {outcome : HandoffOutcome} (unrefused : outcome.refused = false) {next : Phase}
    (ends : ∀ socket pending identity, next ≠ .writing socket pending identity) :
    Definite (wrote s pending.call outcome next) := by
  refine definite.grow (Nat.le_refl _) (fun n back => .inl back) (fun n old => old)
    (fun r told => ?_) fun _ _ _ writing => absurd writing (ends _ _ _)
  obtain old | rfl := mem_answered told
  · exact .inl old
  · refine .inr ⟨fun refused => ?_, fun _ => definite.writing socket pending identity phase⟩
    rw [unrefused] at refused
    cases refused

/-- A step that moves no frame and tells no caller anything. -/
theorem Definite.keep (definite : Definite s) (tickets : t.tickets = s.tickets)
    (calls : t.calls = s.calls) (queue : t.queue = s.queue) (written : t.written = s.written)
    (returned : t.returned = s.returned) (writing : ∀ socket pending identity,
      t.phase = .writing socket pending identity → s.phase = .writing socket pending identity) :
    Definite t := by
  have underway : t.underway = s.underway := by
    rw [Session.underway, Session.underway, Session.wire, Session.wire, calls, queue, written]
  refine definite.grow tickets.ge (fun n back => .inl (underway ▸ back)) (fun n old => ?_)
    (fun r old => .inl (returned ▸ old)) fun _ _ _ phase => .inl (writing _ _ _ phase)
  rw [Session.wire, written]
  exact old

theorem recv_definite (definite : Definite s) {socket : Nat} {pending : Outbound}
    {rest : List Outbound} (queue : s.queue = pending :: rest) : Definite { s with
      phase := .writing socket pending s.identity
      queue := rest
      written := s.written ++ [(socket, pending)] } := by
  have wire : ∀ n, n ∈ (s.written ++ [(socket, pending)]).map (fun w => w.2.call.ticket) ↔
      n ∈ s.wire ∨ n = pending.call.ticket := by
    simp [Session.wire]
  refine definite.grow (Nat.le_refl _) (fun n back => .inl ?_) (fun n old => (wire n).mpr (.inl old))
    (fun r old => .inl old) fun _ _ _ writing => .inr ?_
  · simp only [Session.underway, List.mem_append, queue, List.map_cons, List.mem_cons] at back ⊢
    obtain (call | queued) | written := back
    · exact .inl (.inl call)
    · exact .inl (.inr (.inr queued))
    · exact ((wire n).mp written).elim .inr fun same => .inl (.inr (.inl same))
  · cases writing
    exact (wire _).mpr (.inr rfl)

/-- What is drained was underway, and is not any more. -/
theorem drains_definite (accounted : Accounted s) (definite : Definite s)
    {identity : RelaySessionIdentity} {reason : TransportFailure} {pending : Outbound}
    {rest : List Outbound} (queue : s.queue = pending :: rest) : Definite
      { s.complete pending.call (.notHandedOff identity pending.call.correlation reason) with
        queue := rest, discarded := s.discarded ++ [pending] } := by
  have left : s.underway.Perm (pending.call.ticket ::
      (s.calls.map Call.ticket ++ rest.map (fun o => o.call.ticket) ++ s.wire)) := by
    rw [Session.underway, queue]
    simp
  refine definite.grow (Nat.le_refl _) (fun n back => .inl ?_) (fun n old => old)
    (fun r told => ?_) fun _ _ _ phase => .inl phase
  · exact left.mem_iff.mpr (List.mem_cons_of_mem _ back)
  · obtain old | rfl := mem_answered told
    · exact .inl old
    · exact .inr ⟨fun _ => away_of_perm accounted left, fun confirmed => by cases confirmed⟩

theorem mem_dropped {queue : List Outbound} {returned : List (Nat × HandoffOutcome)}
    {r : Nat × HandoffOutcome} (member : r ∈ queue.foldl (fun returned o =>
      Session.answered returned o.call
        (.notHandedOff o.call.identity o.call.correlation .sessionClosed)) returned) :
    r ∈ returned ∨ (∃ o ∈ queue, r.1 = o.call.ticket) ∧ r.2.confirmed = false := by
  induction queue generalizing returned with
  | nil => exact .inl member
  | cons o rest ih =>
    obtain told | ⟨⟨other, queued, same⟩, unconfirmed⟩ := ih member
    · obtain old | rfl := mem_answered told
      · exact .inl old
      · exact .inr ⟨⟨o, List.mem_cons_self, rfl⟩, rfl⟩
    · exact .inr ⟨⟨other, List.mem_cons_of_mem _ queued, same⟩, unconfirmed⟩

theorem finishes_definite (accounted : Accounted s) (definite : Definite s) :
    Definite (dropReceiver s) := by
  obtain ⟨once, minted⟩ := accounted.underway
  refine definite.grow (Nat.le_refl _) (fun n back => .inl ?_) (fun n old => old)
    (fun r told => ?_) fun _ _ _ phase => by cases phase
  · simp only [Session.underway, dropReceiver, List.map_nil, List.append_nil, List.mem_append] at back ⊢
    exact back.imp_left .inl
  · obtain old | ⟨⟨o, queued, same⟩, unconfirmed⟩ := mem_dropped told
    · exact .inl old
    · refine .inr ⟨fun _ => ?_, fun confirmed => by rw [unconfirmed] at confirmed; cases confirmed⟩
      have here : r.1 ∈ s.queue.map fun o => o.call.ticket :=
        same ▸ List.mem_map_of_mem (f := fun o : Outbound => o.call.ticket) queued
      refine ⟨minted _ (List.mem_append_left _ (List.mem_append_right _ here)), fun back => ?_⟩
      simp only [Session.underway, dropReceiver, List.map_nil, List.append_nil,
        List.mem_append] at back
      rw [Session.underway, List.append_assoc] at once
      obtain ⟨-, once', apart⟩ := List.nodup_append.mp once
      obtain call | wire := back
      · exact apart _ call _ (List.mem_append_left _ here) rfl
      · exact (List.nodup_append.mp once').2.2 _ here _ wire rfl

theorem step_definite (accounted : Accounted s) (definite : Definite s)
    (stepped : step s a = some t) : Definite t := by
  cases Stepped.of_step stepped with
  | recv _ queue => exact recv_definite definite queue
  | drains _ queue => exact drains_definite accounted definite queue
  | handOff | enqueue => exact handOff_definite accounted definite ..
  | trySend member => exact trySend_definite accounted definite member
  | timesOut =>
    refine definite.grow (Nat.le_refl _) (fun n back => .inl back) (fun n old => old)
      (fun r told => ?_) fun _ _ _ phase => .inl phase
    obtain old | rfl := mem_answered told
    · exact .inl old
    · exact .inr ⟨(fun refused => by cases refused), fun confirmed => by cases confirmed⟩
  | finishes => exact finishes_definite accounted definite
  | writeDone phase | writeFails phase | writeTimesOut phase =>
    exact wrote_definite definite phase rfl (by simp)
  | close | closeRouter | abandon | othersMint | challenge =>
    exact definite.keep rfl rfl rfl rfl rfl fun _ _ _ phase => phase
  | checksClosed | wakes =>
    refine definite.keep rfl rfl rfl rfl rfl ?_
    cases s.closed <;> simp
  | misses =>
    refine definite.keep rfl rfl rfl rfl rfl ?_
    dsimp only
    split <;> simp
  | stops | socketEnds | closeDone | moves | givesUp | advances | hearsClose | mints | spent | connects
  | drained => exact definite.keep rfl rfl rfl rfl rfl (by simp)

/-- Along every run, a frame whose caller was told `NotHandedOff` is in no socket. -/
theorem not_handed_off_unwritten
    {relay maxFrameBytes outboundFrames reconnectAttempts generation} {as : List Action}
    (run : Run step Free
      (opened relay maxFrameBytes outboundFrames reconnectAttempts generation) as s) :
    ∀ ticket identity correlation reason,
      (ticket, .notHandedOff identity correlation reason) ∈ s.returned →
        ∀ w ∈ s.written, w.2.call.ticket ≠ ticket := by
  have kept := run.invariant (fun s => Accounted s ∧ Definite s)
    ⟨opened_accounted .., opened_definite ..⟩ fun _ _ _ ⟨accounted, definite⟩ _ stepped =>
      ⟨step_accounted accounted stepped, step_definite accounted definite stepped⟩
  rintro ticket identity correlation reason told w written rfl
  refine (kept.2.refused _ told rfl).2 (List.mem_append_right _ ?_)
  exact List.mem_map_of_mem (f := fun w : Nat × Outbound => w.2.call.ticket) written

/-- One frame is written, and one waits behind it when the socket is lost. -/
theorem not_handed_off_unwritten_of_lost :
    ∃ as s, Run step Free (opened "wss://relay" 64 4 none 1) as s ∧ s.wire = [0] ∧
      (1, HandoffOutcome.notHandedOff ⟨"wss://relay", 1⟩ 0 .idleTimeout) ∈ s.returned ∧
      ∀ ticket identity correlation reason,
        (ticket, .notHandedOff identity correlation reason) ∈ s.returned →
          ∀ w ∈ s.written, w.2.call.ticket ≠ ticket := by
  have run : Run step Free (opened "wss://relay" 64 4 none 1)
      (handedOff 0 "REQ" 1 ++ handedOff 1 "CLOSE" 1 ++ [.recv, .writeDone] ++
        [.socketEnds .idleTimeout, .drains]) _ :=
    Run.of_exec rfl
  exact ⟨_, _, run, rfl, by decide, not_handed_off_unwritten run⟩

end Fava.Transport.Driver
