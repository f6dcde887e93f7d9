import Fava.Auth.Placement

namespace Fava.Auth

open Fava.Lib Fava.Relay Fava.Transport Fava.Transport.Driver

variable {s t : Session} {x : Answer} {o p : Owner}

theorem InPlace.put (inv : InPlace o) (k : Nat) (placed : Placed o.session x) :
    InPlace (o.put k x) := by
  refine ⟨inv.accounted, inv.onSocket, inv.named, fun y member => ?_⟩
  obtain old | rfl := List.mem_or_eq_of_mem_set member
  · exact inv.placed y old
  · exact placed

theorem InPlace.add (inv : InPlace o) (placed : Placed o.session x)
    (people : List (RelaySessionIdentity × Decision)) :
    InPlace { o with people, answers := o.answers ++ [x] } := by
  refine ⟨inv.accounted, inv.onSocket, inv.named, fun y member => ?_⟩
  obtain old | new := List.mem_append.mp member
  · exact inv.placed y old
  · rw [List.mem_singleton.mp new]
    exact placed

theorem InPlace.moved (inv : InPlace o) (what : Recorded) :
    InPlace { o with session := o.session.moved what.onto } where
  accounted := inv.accounted.keep rfl rfl rfl rfl rfl rfl
  onSocket := inv.onSocket
  named := inv.named.moved fun _ => rfl
  placed x member := (inv.placed x member).still (.moved _) ((inv.placed x member).demanding.moved _)

theorem takenUp_placed {asOf : Nostr.PublicKey} {event : Nostr.Event} {challenge : String}
    (named : Named s) (placed : Placed s x) (signed : x.stage = .signed asOf event)
    (sender : s.cell.sender = true) (calm : switching s.phase = false)
    (requested : s.cell.last.authentication.progress = .requested challenge) :
    Placed (s.moved (Recorded.onto (.answering event.pubkey)))
      { x with stage := .takenUp asOf event, taken := some s.cell.last } := by
  have demand := placed.demanding (by simp [signed, Stage.waiting]) challenge requested
  refine ⟨fun waiting => by simp [Stage.waiting] at waiting, ?_, fun _ => rfl, ?_, ?_, placed.sent⟩
  · rintro c ⟨rfl⟩
    rw [demand]
    exact ⟨rfl, requested⟩
  · intro ticket minted
    exact ⟨rfl, (placed.ticketed ticket minted).2⟩
  · intro _
    rw [demand]
    exact named sender calm

theorem handOff_tickets (frame : String) (correlation : Nat) (awaited : Bool) :
    (handOff s frame correlation awaited).tickets = s.tickets + 1 := by
  simp only [handOff]
  split
  · rfl
  · split <;> rfl

theorem written_minted (accounted : Accounted s) {w : Nat × Outbound}
    (written : w ∈ s.written) : w.2.call.ticket < s.tickets := by
  have place : w.2 ∈ s.queue ++ s.written.map Prod.snd ++ s.discarded :=
    List.mem_append_left _ (List.mem_append_right _ (List.mem_map_of_mem written))
  have accepted := accounted.places.mem_iff.mp place
  exact accounted.minted _ (List.mem_append_right _ (List.mem_map.mpr ⟨w.2, accepted, rfl⟩))

theorem handing_placed {asOf : Nostr.PublicKey} (accounted : Accounted s) (placed : Placed s x)
    (up : x.stage.up = true) (frame : String) :
    Placed (handOff s frame 0 true)
      { x with stage := .handing asOf, ticket := some s.tickets } := by
  have still := handOff_still (s := s) frame 0 true
  refine ⟨fun waiting => by simp [Stage.waiting] at waiting, placed.taken,
    fun up => by simp [Stage.up] at up, ?_, ?_, ?_⟩
  · rintro ticket ⟨rfl⟩
    exact ⟨placed.up up, by rw [handOff_tickets]; exact Nat.lt_succ_self _⟩
  · intro _
    have here := placed.here (by simp [Answer.unwritten, up])
    simpa only [Session.identity, still.relay, still.generation] using here
  · intro w written ticket
    rw [still.written] at written
    have old := written_minted accounted written
    rw [← Option.some.inj ticket] at old
    exact absurd old (Nat.lt_irrefl _)

theorem handsOff_inPlace {asOf : Nostr.PublicKey} {k : Nat} (inv : InPlace o)
    (placed : Placed o.session x) (up : x.stage.up = true) (frame : String) :
    InPlace { o.put k { x with stage := .handing asOf, ticket := some o.session.tickets } with
      session := handOff o.session frame 0 true } := by
  have framed : Frame o.session (handOff o.session frame 0 true) :=
    .of_still (handOff_still ..) (handOff_cell ..) (by rw [handOff_phase])
  refine ⟨handOff_accounted inv.accounted .., inv.onSocket.keep (by rw [handOff_phase])
    (handOff_generation ..), framed.named inv.named, fun y member => ?_⟩
  obtain old | rfl := List.mem_or_eq_of_mem_set member
  · have kept := inv.placed y old
    exact kept.still framed.toStill (kept.demanding.of_cell framed.identity framed.authentication)
  · exact handing_placed inv.accounted placed up frame

theorem decided_up (decision : Decision) : (decided decision).up = false := by
  cases decision <;> rfl

theorem recordedThen_waiting (what : Recorded) : (recordedThen what).waiting = false := by
  cases what <;> rfl

theorem recordedThen_up (what : Recorded) : (recordedThen what).up = false := by
  cases what <;> rfl

theorem step_inPlace {a : Action} (inv : InPlace o) (calm : Undisturbed o a)
    (stepped : step o a = some p) : InPlace p := by
  cases a with
  | session action =>
    simp only [step, Option.map_eq_some_iff] at stepped
    obtain ⟨session, stepped, rfl⟩ := stepped
    exact session_inPlace inv calm stepped
  | asked =>
    simp only [step] at stepped
    split at stepped <;> cases stepped
    rename_i challenge requested
    refine inv.add (begin_placed ?_ rfl) o.people
    intro other same
    rw [requested, Progress.requested.injEq] at same
    rw [same]
  | finds connection decision =>
    simp only [step] at stepped
    split at stepped
    · split at stepped <;> cases stepped
      exact ⟨inv.accounted, inv.onSocket, inv.named, inv.placed⟩
    · cases stepped
  | reads connection decision =>
    simp only [step, Option.ite_none_right_eq_some] at stepped
    obtain ⟨-, stepped⟩ := stepped
    split at stepped <;> cases stepped
    · rename_i challenge requested
      refine inv.add (begin_placed ?_ (decided_up decision)) _
      intro other same
      rw [requested, Progress.requested.injEq] at same
      rw [same, show o.session.cell.last.identity = connection from calm]
    · exact ⟨inv.accounted, inv.onSocket, inv.named, inv.placed⟩
  | decides k decision =>
    simp only [step, Option.bind_eq_bind, Option.bind_eq_some_iff] at stepped
    obtain ⟨x, found, stepped⟩ := stepped
    have placed := inv.placed x (List.mem_of_getElem? found)
    split at stepped <;> cases stepped
    rename_i asked
    refine inv.put k (placed.wait (by simp [asked, Stage.waiting]) ?_)
    unfold resolved
    split
    · rfl
    · exact decided_up decision
  | signs k returned =>
    simp only [step, Option.bind_eq_bind, Option.bind_eq_some_iff] at stepped
    obtain ⟨x, found, stepped⟩ := stepped
    have placed := inv.placed x (List.mem_of_getElem? found)
    split at stepped <;> cases stepped
    · rename_i signing
      exact inv.put k (placed.wait (by simp [signing, Stage.waiting]) rfl)
    · exact inv.put k (placed.restage rfl rfl)
  | takesUp k detail =>
    simp only [step, Option.bind_eq_bind, Option.bind_eq_some_iff] at stepped
    obtain ⟨x, found, stepped⟩ := stepped
    have placed := inv.placed x (List.mem_of_getElem? found)
    split at stepped <;> cases stepped
    rename_i asOf event signed
    unfold takeUp
    split
    · rename_i challenge sender requested
      exact (inv.moved (.answering event.pubkey)).put k
        (takenUp_placed inv.named placed signed sender calm requested)
    · exact inv.put k (placed.restage rfl rfl)
  | handsOff k frame detail =>
    simp only [step, Option.bind_eq_bind, Option.bind_eq_some_iff] at stepped
    obtain ⟨x, found, stepped⟩ := stepped
    have placed := inv.placed x (List.mem_of_getElem? found)
    split at stepped <;> cases stepped
    · rename_i up
      exact handsOff_inPlace inv placed (by simp [up, Stage.up]) _
    · exact inv.put k (placed.restage rfl rfl)
  | returns k detail =>
    simp only [step, Option.bind_eq_bind, Option.bind_eq_some_iff] at stepped
    obtain ⟨x, found, ticket, -, outcome, -, stepped⟩ := stepped
    have placed := inv.placed x (List.mem_of_getElem? found)
    split at stepped <;> cases stepped
    refine inv.put k (placed.restage ?_ ?_) <;> cases outcome.2 <;> rfl
  | compares k =>
    simp only [step, Option.bind_eq_bind, Option.bind_eq_some_iff] at stepped
    obtain ⟨x, found, stepped⟩ := stepped
    have placed := inv.placed x (List.mem_of_getElem? found)
    split at stepped <;> cases stepped
    rename_i what _
    unfold compare
    split
    · have writing : Placed o.session { x with stage := .writing what } := placed.restage rfl rfl
      have put := inv.put k writing
      exact ⟨put.accounted, put.onSocket, put.named, put.placed⟩
    · exact inv.put k (placed.restage (recordedThen_waiting what) (recordedThen_up what))
  | writes k =>
    simp only [step, Option.bind_eq_bind, Option.bind_eq_some_iff] at stepped
    obtain ⟨x, found, stepped⟩ := stepped
    have placed := inv.placed x (List.mem_of_getElem? found)
    split at stepped <;> cases stepped
    rename_i what _
    exact (inv.put k
      (placed.restage (recordedThen_waiting what) (recordedThen_up what))).moved what
  | settles k settlement =>
    simp only [step, Option.bind_eq_bind, Option.bind_eq_some_iff] at stepped
    obtain ⟨x, found, stepped⟩ := stepped
    have placed := inv.placed x (List.mem_of_getElem? found)
    split at stepped <;> cases stepped
    refine inv.put k (placed.restage ?_ ?_) <;> cases settlement <;> rfl

/-- An authenticator that has seen nothing yet, on a session just opened. -/
def attached (session : Session) : Owner := ⟨session, [], [], []⟩

theorem attached_inPlace (relay maxFrameBytes outboundFrames reconnectAttempts generation) :
    InPlace (attached
      (opened relay maxFrameBytes outboundFrames reconnectAttempts generation)) where
  accounted := opened_accounted ..
  onSocket := opened_onSocket _ _ _ _ _
  named _ _ := rfl
  placed := by simp [attached]

/-- Along every run that disturbs no answer, each `AUTH` is written on the
connection that asked, and was taken up under exactly the challenge it was
signed for. -/
theorem auth_answered_in_place {relay maxFrameBytes outboundFrames reconnectAttempts generation}
    {as : List Action}
    (run : Run step Undisturbed (attached
      (opened relay maxFrameBytes outboundFrames reconnectAttempts generation)) as o) :
    AnsweredInPlace o := by
  have inv := run.invariant InPlace (attached_inPlace ..)
    fun _ _ _ inv calm stepped => step_inPlace inv calm stepped
  intro x member w written ticket
  have placed := inv.placed x member
  have taken := (placed.ticketed _ ticket).1
  obtain ⟨c, taken⟩ := Option.isSome_iff_exists.mp taken
  exact ⟨placed.sent w written ticket, c, taken, placed.taken c taken⟩

instance (o : Owner) : ∀ a, Decidable (Undisturbed o a)
  | .session (.challenge challenge) => inferInstanceAs (Decidable
      (∀ x ∈ o.answers, x.stage.waiting = true →
        x.demand = ⟨o.session.cell.last.identity, challenge⟩))
  | .session .advances => inferInstanceAs (Decidable
      (∀ x ∈ o.answers, x.unwritten o.session = false))
  | .takesUp _ _ => inferInstanceAs (Decidable (switching o.session.phase = false))
  | .reads connection _ => inferInstanceAs (Decidable
      (o.session.cell.last.identity = connection))
  | .session (.handOff ..) | .session (.enqueue _) | .session (.trySend _)
  | .session (.timesOut _) | .session .close | .session .closeRouter | .session .abandon
  | .session .othersMint | .session .recv | .session .writeDone | .session (.writeFails _)
  | .session .writeTimesOut | .session (.socketEnds _) | .session .hearsClose
  | .session (.closeDone _) | .session .drains | .session .checksClosed | .session .mints
  | .session .wakes | .session (.dials _) | .session .moves | .session (.givesUp _)
  | .session .stops | .session .finishes | .asked | .finds .. | .decides .. | .signs ..
  | .handsOff .. | .returns .. | .compares _ | .writes _ | .settles .. => .isTrue trivial

def demanded (challenge : String) : List Action :=
  [.session (.challenge challenge), .asked, .decides 0 (.authenticate 7)]

/-- What the signer of account 7 returns. -/
def proof : Nostr.Event := ⟨5, 7, 0, 22242, [["relay", "wss://relay"], ["challenge", "nonce"]], "", 0⟩

def signedAndSent : List Action :=
  [.signs 0 (.ok proof), .takesUp 0 "", .handsOff 0 (some "AUTH") "",
   .session (.trySend ⟨0, "AUTH", 0, true, ⟨"wss://relay", 1⟩⟩), .session .recv,
   .session .writeDone, .returns 0 ""]

theorem auth_answered_in_place_of_one_challenge :
    ∃ as o, Run step Undisturbed (attached (opened "wss://relay" 64 4 none 1)) as o ∧
      o.answers.map Answer.ticket = [some 0] ∧
      o.session.written.map (fun w => w.2.call.ticket) = [0] ∧ AnsweredInPlace o := by
  have run : Run step Undisturbed (attached (opened "wss://relay" 64 4 none 1))
      (demanded "nonce" ++ signedAndSent) _ := Run.of_exec rfl
  exact ⟨_, _, run, rfl, rfl, auth_answered_in_place run⟩

/-- The relay asks again while the first answer is being signed: the answer is
taken up under a challenge it does not prove. -/
theorem auth_answers_another_challenge :
    ∃ as o, Run step Free (attached (opened "wss://relay" 64 4 none 1)) as o ∧
      ¬ AnsweredInPlace o := by
  refine ⟨demanded "first" ++ [.session (.challenge "second")] ++ signedAndSent, _,
    Run.of_exec rfl, fun answered => ?_⟩
  obtain ⟨-, c, taken, -, progress⟩ :=
    answered _ (List.mem_singleton.mpr rfl) _ (List.mem_singleton.mpr rfl) rfl
  rw [← Option.some.inj taken] at progress
  exact absurd progress (by decide)

end Fava.Auth
