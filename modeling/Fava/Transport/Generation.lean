import Mathlib.Data.List.Nodup
import Fava.Transport.Driver

namespace Fava.Transport.Driver

open Fava.Lib Fava.Relay Fava.Transport

variable {s t : Session} {a : Action}

/-- The socket the driver holds while it can still write to it or is about to. -/
def Phase.socket : Phase → Option Nat
  | .pumping socket | .writing socket _ _ | .closing socket | .advanced socket => some socket
  | _ => none

def Session.used (s : Session) : List Nat :=
  s.calls.map Call.ticket ++ s.accepted.map (fun o => o.call.ticket)

/-- Every accepted frame is in one of the three places, once. -/
structure Accounted (s : Session) : Prop where
  places : (s.queue ++ s.written.map Prod.snd ++ s.discarded).Perm s.accepted
  once : s.used.Nodup
  minted : ∀ ticket ∈ s.used, ticket < s.tickets

/-- The socket the driver holds is the one of the current generation. -/
def OnSocket (s : Session) : Prop :=
  ∀ socket, s.phase.socket = some socket → socket = s.generation

/-- The queue holds frames of the current generation only. -/
structure Current (s : Session) : Prop where
  queued : ∀ o ∈ s.queue, o.queuedAt = s.generation
  own : ∀ w ∈ s.written, w.1 = w.2.queuedAt

theorem NoCrossing.of_accounted (accounted : Accounted s) (current : Current s) :
    NoCrossing s where
  own := current.own
  accounted := by
    intro o member
    have place := accounted.places.mem_iff.mpr member
    simp only [List.mem_append, List.mem_map] at place
    obtain (queued | ⟨w, written, rfl⟩) | discarded := place
    · exact .inl queued
    · rw [← current.own w written]
      exact .inr (.inl written)
    · exact .inr (.inr discarded)
  unwritten := by
    intro o discarded socket written
    have distinct : s.accepted.Nodup := 
      List.Nodup.of_map _ (List.nodup_append.mp accounted.once).2.1
    have disjoint := (List.nodup_append.mp (accounted.places.nodup_iff.mpr distinct)).2.2
    have among := List.mem_append_right s.queue (List.mem_map_of_mem (f := Prod.snd) written)
    exact disjoint o among o discarded rfl

theorem opened_accounted (relay maxFrameBytes outboundFrames reconnectAttempts generation) :
    Accounted (opened relay maxFrameBytes outboundFrames reconnectAttempts generation) where
  places := .refl _
  once := .nil
  minted := by simp [Session.used, opened]

theorem opened_current (relay maxFrameBytes outboundFrames reconnectAttempts generation) :
    Current (opened relay maxFrameBytes outboundFrames reconnectAttempts generation) where
  queued := by simp [opened]
  own := by simp [opened]

theorem opened_onSocket (relay maxFrameBytes outboundFrames reconnectAttempts generation) :
    OnSocket (opened relay maxFrameBytes outboundFrames reconnectAttempts generation) := by
  simp [OnSocket, opened, Phase.socket]

/-- A step that touches no frame and no call. -/
theorem Accounted.keep (accounted : Accounted s) (queue : t.queue = s.queue)
    (written : t.written = s.written) (discarded : t.discarded = s.discarded)
    (accepted : t.accepted = s.accepted) (calls : t.calls = s.calls)
    (tickets : t.tickets = s.tickets) : Accounted t where
  places := by simpa only [queue, written, discarded, accepted] using accounted.places
  once := by simpa only [Session.used, accepted, calls] using accounted.once
  minted := by simpa only [Session.used, accepted, calls, tickets] using accounted.minted

theorem handOff_accounted (accounted : Accounted s) (frame : String) (correlation : Nat)
    (awaited : Bool) : Accounted (handOff s frame correlation awaited) := by
  have later : ∀ ticket ∈ s.used, ticket < s.tickets + 1 :=
    fun ticket used => Nat.lt_succ_of_lt (accounted.minted ticket used)
  simp only [handOff]
  split
  · exact ⟨accounted.places, accounted.once, later⟩
  · split
    · exact ⟨accounted.places, accounted.once, later⟩
    · refine ⟨accounted.places, ?_, ?_⟩
      · refine List.nodup_cons.mpr ⟨?_, accounted.once⟩
        intro used
        exact Nat.lt_irrefl _ (accounted.minted _ used)
      · intro ticket used
        obtain rfl | used := List.mem_cons.mp used
        · exact Nat.lt_succ_self _
        · exact later ticket used

theorem trySend_accounted {call : Call} (accounted : Accounted s) (member : call ∈ s.calls) :
    Accounted (trySend s call) := by
  have fewer : List.Sublist
      ((s.calls.erase call).map Call.ticket ++ s.accepted.map fun o => o.call.ticket) s.used :=
    (List.erase_sublist.map _).append (.refl _)
  unfold trySend
  split
  · exact ⟨accounted.places, accounted.once.sublist fewer,
      fun ticket used => accounted.minted ticket (fewer.subset used)⟩
  · split
    · exact ⟨accounted.places, accounted.once.sublist fewer,
        fun ticket used => accounted.minted ticket (fewer.subset used)⟩
    · have same : List.Perm
          ((s.calls.erase call).map Call.ticket ++
            (s.accepted ++ [Outbound.mk call s.generation]).map fun o => o.call.ticket) s.used := by
        have moved := (List.perm_cons_erase member).map Call.ticket
        rw [List.map_append, ← List.append_assoc]
        refine List.perm_append_comm.trans ?_
        exact (moved.append_right _).symm
      refine ⟨?_, same.nodup_iff.mpr accounted.once,
        fun ticket used => accounted.minted ticket (same.mem_iff.mp used)⟩
      have last := accounted.places.append_right [⟨call, s.generation⟩]
      refine List.Perm.trans ?_ last
      simp only [List.append_assoc]
      exact List.perm_append_left_iff _ |>.mpr
        (List.perm_append_comm.trans (by simp))

theorem step_accounted (accounted : Accounted s) (stepped : step s a = some t) :
    Accounted t := by
  cases Stepped.of_step stepped with
  | handOff | enqueue => exact handOff_accounted accounted ..
  | trySend member => exact trySend_accounted accounted member
  | recv _ queue =>
    have places := accounted.places
    refine ⟨List.Perm.trans ?_ places, accounted.once, accounted.minted⟩
    rw [queue, List.map_append, ← List.append_assoc]
    refine List.Perm.append_right _ ?_
    exact List.perm_append_singleton _ _
  | drains _ queue =>
    refine ⟨List.Perm.trans ?_ accounted.places, accounted.once, accounted.minted⟩
    simp only [Session.complete]
    rw [queue, ← List.append_assoc]
    exact List.perm_append_singleton _ _
  | finishes =>
    refine ⟨List.Perm.trans ?_ accounted.places, accounted.once, accounted.minted⟩
    simp only [dropReceiver, List.nil_append, ← List.append_assoc]
    exact List.perm_append_comm.trans (by simp)
  | _ => exact accounted.keep rfl rfl rfl rfl rfl rfl

theorem trySend_phase (call : Call) : (trySend s call).phase = s.phase := by
  unfold trySend
  split
  · rfl
  · split <;> rfl

theorem trySend_generation (call : Call) : (trySend s call).generation = s.generation := by
  unfold trySend
  split
  · rfl
  · split <;> rfl

theorem handOff_phase (frame : String) (correlation : Nat) (awaited : Bool) :
    (handOff s frame correlation awaited).phase = s.phase := by
  simp only [handOff]
  split
  · rfl
  · split <;> rfl

theorem handOff_generation (frame : String) (correlation : Nat) (awaited : Bool) :
    (handOff s frame correlation awaited).generation = s.generation := by
  simp only [handOff]
  split
  · rfl
  · split <;> rfl

theorem OnSocket.keep (onSocket : OnSocket s) (phase : t.phase.socket = s.phase.socket)
    (generation : t.generation = s.generation) : OnSocket t := by
  intro socket held
  rw [generation]
  exact onSocket socket (phase ▸ held)

theorem step_onSocket (onSocket : OnSocket s) (stepped : step s a = some t) : OnSocket t := by
  cases Stepped.of_step stepped with
  | handOff | enqueue => exact onSocket.keep (by rw [handOff_phase]) (handOff_generation ..)
  | @trySend call => exact onSocket.keep (by rw [trySend_phase]) (trySend_generation call)
  | close | timesOut | closeRouter | abandon | othersMint | challenge | drains => exact onSocket
  | recv phase | writeDone phase | moves phase => exact onSocket.keep (by rw [phase]; rfl) rfl
  | hearsClose phase => exact onSocket.keep (by simp [phase, Phase.socket]) rfl
  | checksClosed | wakes => cases s.closed <;> simp [OnSocket, Phase.socket]
  | misses =>
    intro socket held
    dsimp only at held
    split at held <;> simp [Phase.socket] at held
  | writeFails | writeTimesOut | socketEnds | closeDone | givesUp | drained | mints | spent | connects
  | advances | stops | finishes => simp [OnSocket, Phase.socket, wrote, dropReceiver]

theorem trySend_current (current : Current s) (call : Call) : Current (trySend s call) := by
  unfold trySend
  split
  · exact ⟨current.queued, current.own⟩
  · split
    · exact ⟨current.queued, current.own⟩
    · refine ⟨?_, current.own⟩
      intro o member
      obtain queued | new := List.mem_append.mp member
      · exact current.queued o queued
      · rw [List.mem_singleton.mp new]

theorem handOff_current (current : Current s) (frame : String) (correlation : Nat)
    (awaited : Bool) : Current (handOff s frame correlation awaited) := by
  simp only [handOff]
  split
  · exact ⟨current.queued, current.own⟩
  · split <;> exact ⟨current.queued, current.own⟩

theorem step_current (current : Current s) (onSocket : OnSocket s) (quiet : Quiet s a)
    (stepped : step s a = some t) : Current t := by
  obtain ⟨queued, own⟩ := current
  cases Stepped.of_step stepped with
  | handOff | enqueue => exact handOff_current ⟨queued, own⟩ ..
  | @trySend call => exact trySend_current ⟨queued, own⟩ call
  | @recv g pending rest phase queue =>
    refine ⟨fun o member => queued o (by simp [queue, member]), ?_⟩
    intro w member
    obtain old | new := List.mem_append.mp member
    · exact own w old
    · have now : g = s.generation := onSocket g (by rw [phase]; rfl)
      rw [List.mem_singleton.mp new, now]
      exact (queued pending (by simp [queue])).symm
  | drains _ queue => exact ⟨fun o member => queued o (by simp [queue, member]), own⟩
  | advances =>
    have empty : s.queue = [] := quiet
    exact ⟨by simp [empty], own⟩
  | finishes => exact ⟨by simp [dropReceiver], own⟩
  | _ => exact ⟨queued, own⟩

/-- Along every run in which the queue is empty at each switch of identity, no
frame is written on another generation than the one it was queued under. -/
theorem no_frame_crosses {relay maxFrameBytes outboundFrames reconnectAttempts generation}
    {as : List Action}
    (run : Run step Quiet
      (opened relay maxFrameBytes outboundFrames reconnectAttempts generation) as s) :
    NoCrossing s := by
  have kept := run.invariant (fun s => Accounted s ∧ OnSocket s ∧ Current s)
    ⟨opened_accounted .., opened_onSocket _ _ _ _ _, opened_current ..⟩
    fun _ _ _ ⟨accounted, onSocket, current⟩ quiet stepped =>
      ⟨step_accounted accounted stepped, step_onSocket onSocket stepped,
        step_current current onSocket quiet stepped⟩
  exact .of_accounted kept.1 kept.2.2

instance (s : Session) : ∀ a, Decidable (Quiet s a)
  | .advances => inferInstanceAs (Decidable (s.queue = []))
  | .handOff .. | .enqueue _ | .trySend _ | .timesOut _ | .close | .closeRouter | .abandon
  | .othersMint | .recv | .writeDone | .writeFails _ | .writeTimesOut | .socketEnds _
  | .challenge _ | .hearsClose | .closeDone _ | .drains | .checksClosed | .mints | .wakes
  | .dials _ | .moves | .givesUp _ | .stops | .finishes => .isTrue trivial

def handedOff (ticket : Nat) (frame : String) (generation : Nat) : List Action :=
  [.handOff frame 0, .trySend ⟨ticket, frame, 0, true, ⟨"wss://relay", generation⟩⟩]

def lose : List Action := [.socketEnds .idleTimeout, .drains, .checksClosed, .mints]

def reconnect : List Action := [.wakes, .dials none, .advances, .moves]

theorem no_frame_crosses_of_reconnect :
    ∃ as s, Run step Quiet (opened "wss://relay" 64 4 none 1) as s ∧
      s.written.map Prod.fst = [1, 2] ∧ NoCrossing s := by
  have run : Run step Quiet (opened "wss://relay" 64 4 none 1)
      (handedOff 0 "REQ" 1 ++ [.recv, .writeDone] ++ lose ++ reconnect ++
        handedOff 1 "CLOSE" 2 ++ [.recv]) _ := Run.of_exec rfl
  exact ⟨_, _, run, rfl, no_frame_crosses run⟩

/-- A frame queued during the back-off, while the dead connection is still the
session's identity, goes out on the replacement. -/
theorem frame_crosses :
    ∃ as s, Run step Free (opened "wss://relay" 64 4 none 1) as s ∧ ¬ NoCrossing s := by
  refine ⟨lose ++ handedOff 0 "CLOSE" 1 ++ reconnect ++ [.recv], _, Run.of_exec rfl,
    fun kept => ?_⟩
  exact absurd (kept.own _ (List.mem_singleton.mpr rfl)) (by decide)

end Fava.Transport.Driver
