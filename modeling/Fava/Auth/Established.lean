import Fava.Auth.Verdicts

namespace Fava.Auth

open Fava.Lib Fava.Nostr Fava.Relay Fava.Transport Fava.Transport.Driver

variable {s t : Session} {n : Nat}

/-- A connection the session has had, and an earlier one while the driver has
switched and not yet reset the connection's state. -/
def Behind (s : Session) (n : Nat) : Prop :=
  n ≤ s.generation ∧ (switching s.phase = true → n < s.generation)

theorem step_switching {action : Driver.Action} (stepped : Driver.step s action = some t)
    (stays : action ≠ .advances) (switched : switching t.phase = true) :
    switching s.phase = true := by
  cases SessionChange.of_step stepped with
  | frame frame => rwa [← frame.phase]
  | challenge => exact switched
  | recv | moves => cases switched
  | advances => exact absurd rfl stays

theorem Behind.step {action : Driver.Action} (behind : Behind s n) (minted : Minted s)
    (stepped : Driver.step s action = some t) : Behind t n := by
  by_cases advances : action = .advances
  · subst advances
    have later := Nat.lt_of_le_of_lt behind.1 (advances_generation minted stepped)
    exact ⟨later.le, fun _ => later⟩
  · have same := congrArg RelaySessionIdentity.connection (session_identity stepped advances)
    rw [Behind, show t.generation = s.generation from same]
    exact ⟨behind.1, fun switched => behind.2 (step_switching stepped advances switched)⟩

theorem last_behind {action : Driver.Action} (minted : Minted s)
    (last : Behind s s.cell.last.identity.connection) (stepped : Driver.step s action = some t) :
    Behind t t.cell.last.identity.connection := by
  have kept := last.step minted stepped
  cases SessionChange.of_step stepped with
  | frame frame => rwa [frame.identity]
  | challenge =>
    cases sender : s.cell.sender <;>
      simpa [Session.moved, ConnectionCell.moved, sender, challenged] using kept
  | recv | advances => exact kept
  | moves =>
    cases sender : s.cell.sender with
    | true =>
      simp only [Session.moved, ConnectionCell.moved, sender, if_true, replaced, Session.identity]
      exact ⟨Nat.le_refl _, fun switched => by cases switched⟩
    | false => simpa [Session.moved, ConnectionCell.moved, sender] using kept

/-- Only `recv` writes, and it writes on the connection of the moment. -/
theorem step_written {action : Driver.Action} (onSocket : OnSocket s)
    (stepped : Driver.step s action = some t) :
    s.written ⊆ t.written ∧ ∀ w ∈ t.written, w ∈ s.written ∨ w.1 = s.generation := by
  cases SessionChange.of_step stepped with
  | frame frame =>
    rw [frame.written]
    exact ⟨List.Subset.refl _, fun _ => .inl⟩
  | challenge | advances | moves => exact ⟨List.Subset.refl _, fun _ => .inl⟩
  | @recv socket pending rest phase queue =>
    refine ⟨List.subset_append_left _ _, fun w member => ?_⟩
    obtain old | new := List.mem_append.mp member
    · exact .inl old
    · rw [List.mem_singleton.mp new]
      exact .inr (onSocket socket (by rw [phase]; rfl))

/-- Where the session stands: what it wrote, what it told its callers, and the
connections the relay's verdicts were heard on. -/
structure Rooted (s : Session) (accepted : List (RelaySessionIdentity × EventId)) : Prop where
  minted : Minted s
  accounted : Accounted s
  definite : Definite s
  onSocket : OnSocket s
  named : Named s
  last : Behind s s.cell.last.identity.connection
  written : ∀ w ∈ s.written, w.1 ≤ s.generation
  heard : ∀ e ∈ accepted, e.1.relay = s.relay ∧ Behind s e.1.connection

theorem opened_rooted (relay maxFrameBytes outboundFrames reconnectAttempts generation) :
    Rooted (opened relay maxFrameBytes outboundFrames reconnectAttempts generation) [] where
  minted := opened_minted ..
  accounted := opened_accounted ..
  definite := opened_definite ..
  onSocket := opened_onSocket _ _ _ _ _
  named _ _ := rfl
  last := ⟨Nat.le_refl _, nofun⟩
  written := by simp [opened]
  heard := by simp

variable {accepted : List (RelaySessionIdentity × EventId)}

theorem step_relay {action : Driver.Action} (stepped : Driver.step s action = some t) :
    t.relay = s.relay := by
  cases SessionChange.of_step stepped with
  | frame frame => exact frame.relay
  | challenge | recv | advances | moves => rfl

theorem Rooted.step {action : Driver.Action} (rooted : Rooted s accepted)
    (stepped : Driver.step s action = some t) : Rooted t accepted where
  minted := step_minted rooted.minted stepped
  accounted := step_accounted rooted.accounted stepped
  definite := step_definite rooted.accounted rooted.definite stepped
  onSocket := step_onSocket rooted.onSocket stepped
  named := session_named rooted.named stepped
  last := last_behind rooted.minted rooted.last stepped
  written w member := by
    have later := session_later rooted.minted stepped
    obtain old | here := (step_written rooted.onSocket stepped).2 w member
    · exact (rooted.written w old).trans later
    · exact here.le.trans later
  heard e member := by
    obtain ⟨relay, behind⟩ := rooted.heard e member
    exact ⟨relay.trans (step_relay stepped).symm, behind.step rooted.minted stepped⟩

theorem Rooted.moved (rooted : Rooted s accepted) (what : Recorded) :
    Rooted (s.moved what.onto) accepted where
  minted := rooted.minted.keep rfl (Nat.le_refl _) fun _ next => next
  accounted := rooted.accounted.keep rfl rfl rfl rfl rfl rfl
  definite := rooted.definite.keep rfl rfl rfl rfl rfl fun _ _ _ phase => phase
  onSocket := rooted.onSocket
  named := rooted.named.moved fun _ => rfl
  last := by
    have same : (s.moved what.onto).cell.last.identity = s.cell.last.identity := by
      cases sender : s.cell.sender <;>
        simp [Session.moved, ConnectionCell.moved, sender, Recorded.onto]
    rw [same]
    exact rooted.last
  written := rooted.written
  heard := rooted.heard

theorem Rooted.handOff (rooted : Rooted s accepted) (frame : String) :
    Rooted (Driver.handOff s frame 0 true) accepted := by
  have still := handOff_still (s := s) frame 0 true
  have framed : Frame s (Driver.handOff s frame 0 true) :=
    .of_still still (handOff_cell ..) (by rw [handOff_phase])
  have behind : ∀ n, Behind s n → Behind (Driver.handOff s frame 0 true) n := by
    intro n behind
    rwa [Behind, still.generation, handOff_phase]
  refine ⟨rooted.minted.keep (handOff_generation ..) (handOff_generations ..).ge
      (by simp [handOff_phase]), handOff_accounted rooted.accounted ..,
    handOff_definite rooted.accounted rooted.definite .., rooted.onSocket.keep
      (by rw [handOff_phase]) (handOff_generation ..), framed.named rooted.named, ?_, ?_, ?_⟩
  · rw [framed.identity]
    exact behind _ rooted.last
  · rw [still.written, still.generation]
    exact rooted.written
  · intro e member
    rw [still.relay]
    exact ⟨(rooted.heard e member).1, behind _ (rooted.heard e member).2⟩

/-- Nothing but a reset changes whose connection it is or what is established on
it, and the end of the watch is for good. -/
theorem step_standing {action : Driver.Action} (stepped : Driver.step s action = some t)
    (stays : action ≠ .moves) : (t.cell.sender = true → s.cell.sender = true) ∧
    t.cell.last.identity = s.cell.last.identity ∧
      t.cell.last.authentication.established = s.cell.last.authentication.established := by
  cases SessionChange.of_step stepped with
  | frame frame => exact ⟨frame.sender, frame.identity, by rw [frame.authentication]⟩
  | challenge =>
    cases sender : s.cell.sender <;> simp [Session.moved, ConnectionCell.moved, sender, challenged]
  | recv | advances => exact ⟨id, rfl, rfl⟩
  | moves => exact absurd rfl stays

/-- The reset writes a later connection with nothing established on it, unless
the watch has ended. -/
theorem moves_standing (stepped : Driver.step s .moves = some t) :
    s.cell.sender = false ∧ t.cell = s.cell ∨ s.cell.sender = true ∧
      t.cell.last = ⟨s.identity, .connected, .unoffered⟩ ∧ switching s.phase = true := by
  cases Stepped.of_step stepped with
  | moves phase =>
    cases sender : s.cell.sender with
    | true =>
      exact .inr ⟨rfl, by simp [Session.moved, ConnectionCell.moved, sender, replaced],
        by rw [phase]; rfl⟩
    | false => exact .inl ⟨rfl, by simp [Session.moved, ConnectionCell.moved, sender]⟩

namespace Verdicts

variable {b c : Verdicts} {k : Nat} {x y : Answer} {mailbox : Option Acknowledgement}

/-- The answer's frame went out as this event, signed by the account. -/
def Framed (b : Verdicts) (x : Answer) (account : PublicKey) (event : EventId) : Prop :=
  ∃ m ∈ b.sent, x.ticket = some m.ticket ∧ m.event.pubkey = account ∧ m.event.id = event

def Written (b : Verdicts) (x : Answer) : Prop :=
  ∃ w ∈ b.owner.session.written, x.ticket = some w.2.call.ticket

/-- The relay accepted the event on a connection no earlier than the answer's. -/
def Vouched (b : Verdicts) (x : Answer) (event : EventId) : Prop :=
  ∃ i, (i, event) ∈ b.accepted ∧ x.demand.session.connection ≤ i.connection

/-- What stands behind an answer at each stage; an acceptance that has passed its
identity check was proved on the connection it is about to be written onto. -/
def Supported (b : Verdicts) (x : Answer) (mailbox : Option Acknowledgement) : Prop :=
  match x.stage with
  | .asked | .signing _ => mailbox = none
  | .signed asOf event => mailbox = none ∧ event.pubkey = asOf
  | .takenUp asOf event => event.pubkey = asOf ∧ ∀ m ∈ mailbox, m.event = event.id
  | .handing asOf => ∃ m ∈ mailbox, b.Framed x asOf m.event
  | .recording (.answering asOf) | .writing (.answering asOf) | .awaiting asOf =>
    (∃ m ∈ mailbox, b.Framed x asOf m.event) ∧ b.Written x
  | .recording (.accepted account) =>
    ∃ event, b.Framed x account event ∧ b.Written x ∧ b.Vouched x event
  | .writing (.accepted account) => b.Proven x.demand.session account ∧
    (b.owner.session.cell.sender = true → b.connection.identity = x.demand.session)
  | _ => True

structure Backed (b : Verdicts) (x : Answer) (mailbox : Option Acknowledgement) : Prop where
  later : ∀ w ∈ b.owner.session.written, x.ticket = some w.2.call.ticket →
    x.demand.session.connection ≤ w.1
  vouched : ∀ m ∈ mailbox, m.settlement = some .accepted → b.Vouched x m.event
  supported : b.Supported x mailbox

/-- What was sent, written and accepted only grows. -/
structure Grown (b c : Verdicts) : Prop where
  sent : b.sent ⊆ c.sent
  accepted : b.accepted ⊆ c.accepted
  written : b.owner.session.written ⊆ c.owner.session.written
  relay : c.owner.session.relay = b.owner.session.relay

theorem Proven.grow {identity : RelaySessionIdentity} {account : PublicKey}
    (proven : b.Proven identity account) (grown : Grown b c) : c.Proven identity account := by
  obtain ⟨m, sent, author, accepted, w, written, ticket, same⟩ := proven
  exact ⟨m, grown.sent sent, author, grown.accepted accepted, w, grown.written written, ticket,
    by rw [same, grown.relay]⟩

theorem Framed.grow {account : PublicKey} {event : EventId} (framed : b.Framed x account event)
    (grown : Grown b c) : c.Framed x account event := by
  obtain ⟨m, sent, rest⟩ := framed
  exact ⟨m, grown.sent sent, rest⟩

theorem Written.grow (written : b.Written x) (grown : Grown b c) : c.Written x := by
  obtain ⟨w, member, ticket⟩ := written
  exact ⟨w, grown.written member, ticket⟩

theorem Vouched.grow {event : EventId} (vouched : b.Vouched x event) (grown : Grown b c) :
    c.Vouched x event := by
  obtain ⟨i, accepted, later⟩ := vouched
  exact ⟨i, grown.accepted accepted, later⟩

theorem Supported.grow (supported : b.Supported x mailbox) (grown : Grown b c)
    (standing : ∀ account, x.stage = .writing (.accepted account) →
      c.owner.session.cell.sender = true → b.owner.session.cell.sender = true ∧
        c.connection.identity = b.connection.identity) : c.Supported x mailbox := by
  unfold Supported at supported ⊢
  split at supported
  all_goals rename_i stage
  · exact supported
  · exact supported
  · exact supported
  · exact supported
  · obtain ⟨m, here, framed⟩ := supported
    exact ⟨m, here, framed.grow grown⟩
  · obtain ⟨⟨m, here, framed⟩, written⟩ := supported
    exact ⟨⟨m, here, framed.grow grown⟩, written.grow grown⟩
  · obtain ⟨⟨m, here, framed⟩, written⟩ := supported
    exact ⟨⟨m, here, framed.grow grown⟩, written.grow grown⟩
  · obtain ⟨⟨m, here, framed⟩, written⟩ := supported
    exact ⟨⟨m, here, framed.grow grown⟩, written.grow grown⟩
  · obtain ⟨event, framed, written, vouched⟩ := supported
    exact ⟨event, framed.grow grown, written.grow grown, vouched.grow grown⟩
  · obtain ⟨proven, same⟩ := supported
    refine ⟨proven.grow grown, fun sender => ?_⟩
    obtain ⟨before, kept⟩ := standing _ stage sender
    rw [kept, same before]
  · trivial

theorem Backed.grow (backed : Backed b x mailbox) (grown : Grown b c)
    (fresh : ∀ w ∈ c.owner.session.written, w ∈ b.owner.session.written ∨
      x.demand.session.connection ≤ w.1)
    (standing : ∀ account, x.stage = .writing (.accepted account) →
      c.owner.session.cell.sender = true → b.owner.session.cell.sender = true ∧
        c.connection.identity = b.connection.identity) : Backed c x mailbox where
  later w member ticket := (fresh w member).elim (fun old => backed.later w old ticket) id
  vouched m here accepted := (backed.vouched m here accepted).grow grown
  supported := backed.supported.grow grown standing

/-- An answer at another stage, with the mailbox it had or none. -/
theorem Backed.restage (backed : Backed b x mailbox) {stage : Stage}
    {kept : Option Acknowledgement} (fewer : ∀ m ∈ kept, m ∈ mailbox)
    (supported : b.Supported { x with stage } kept) : Backed b { x with stage } kept where
  later := backed.later
  vouched m here accepted := backed.vouched m (fewer m here) accepted
  supported := supported

/-- What holds between any two steps whose resets divide no verdict from its
write. -/
structure Grounded (b : Verdicts) : Prop where
  past : Past b.owner
  rooted : Rooted b.owner.session b.accepted
  within : ∀ k, b.owner.answers.length ≤ k → b.acknowledgements k = none
  backed : ∀ k x, b.owner.answers[k]? = some x → Backed b x (b.acknowledgements k)
  established : ∀ account, b.connection.authentication.established = some account →
    b.Proven b.connection.identity account

theorem attached_grounded (relay maxFrameBytes outboundFrames reconnectAttempts generation) :
    Grounded (attached
      (opened relay maxFrameBytes outboundFrames reconnectAttempts generation)) where
  past := attached_past ..
  rooted := opened_rooted ..
  within _ _ := rfl
  backed k x found := by simp [attached, Auth.attached] at found
  established account established := by
    simp [connection, attached, Auth.attached, opened, Authentication.unoffered] at established

/-- Offers change what a mailbox holds, not whose it is. -/
theorem Backed.offered (backed : Backed b x mailbox) {f : Acknowledgement → Acknowledgement}
    (event : ∀ m, (f m).event = m.event)
    (vouched : ∀ m ∈ mailbox, (f m).settlement = some .accepted →
      m.settlement = some .accepted ∨ b.Vouched x m.event) : Backed b x (mailbox.map f) where
  later := backed.later
  vouched := by
    intro m here accepted
    obtain ⟨old, before, rfl⟩ := Option.map_eq_some_iff.mp here
    rw [event]
    exact (vouched old before accepted).elim (backed.vouched old before) id
  supported := by
    have supported := backed.supported
    unfold Supported at supported ⊢
    split at supported
    · rw [supported, Option.map_none]
    · rw [supported, Option.map_none]
    · rw [supported.1, Option.map_none]
      exact ⟨rfl, supported.2⟩
    · refine ⟨supported.1, fun m here => ?_⟩
      obtain ⟨old, before, rfl⟩ := Option.map_eq_some_iff.mp here
      rw [event]
      exact supported.2 old before
    · obtain ⟨m, here, framed⟩ := supported
      exact ⟨f m, Option.mem_map_of_mem f here, by rwa [event]⟩
    · obtain ⟨⟨m, here, framed⟩, written⟩ := supported
      exact ⟨⟨f m, Option.mem_map_of_mem f here, by rwa [event]⟩, written⟩
    · obtain ⟨⟨m, here, framed⟩, written⟩ := supported
      exact ⟨⟨f m, Option.mem_map_of_mem f here, by rwa [event]⟩, written⟩
    · obtain ⟨⟨m, here, framed⟩, written⟩ := supported
      exact ⟨⟨f m, Option.mem_map_of_mem f here, by rwa [event]⟩, written⟩
    · exact supported
    · exact supported
    · trivial

theorem Grown.of_accepted (acknowledgements : Nat → Option Acknowledgement)
    {accepted : List (RelaySessionIdentity × EventId)} (grows : b.accepted ⊆ accepted) :
    Grown b { b with acknowledgements, accepted } where
  sent := List.Subset.refl _
  accepted := grows
  written := List.Subset.refl _
  relay := rfl

theorem awaits_grounded (inv : Grounded b) (stepped : step b (.awaits k) = some c) :
    Grounded c := by
  simp only [step, Option.bind_eq_bind, Option.bind_eq_some_iff] at stepped
  obtain ⟨x, found, stepped⟩ := stepped
  split at stepped <;> cases stepped
  rename_i asOf event takenUp empty
  refine ⟨inv.past, inv.rooted, fun j beyond => ?_, fun j y here => ?_, inv.established⟩
  · have other : j ≠ k := by
      rintro rfl
      simp [List.getElem?_eq_none beyond] at found
    simp only [Function.update_of_ne other]
    exact inv.within j beyond
  · by_cases other : j = k
    · subst other
      have same : y = x := Option.some.inj (here.symm.trans found)
      subst same
      have backed := inv.backed j y found
      simp only [Function.update_self]
      refine ⟨backed.later, ?_, ?_⟩
      · rintro m ⟨rfl⟩ accepted
        cases accepted
      · have supported := backed.supported
        simp only [Supported, takenUp] at supported ⊢
        refine ⟨supported.1, ?_⟩
        rintro m ⟨rfl⟩
        rfl
    · simp only [Function.update_of_ne other]
      have backed := inv.backed j y here
      exact ⟨backed.later, backed.vouched, backed.supported⟩

/-- A verdict or an ending reaches the mailboxes. -/
theorem offered_grounded {settlement : Settlement} {about : Acknowledgement → Bool}
    {accepted : List (RelaySessionIdentity × EventId)} (inv : Grounded b)
    (grows : b.accepted ⊆ accepted) (rooted : Rooted b.owner.session accepted)
    (vouched : settlement = .accepted → ∀ x ∈ b.owner.answers, ∀ m, about m = true →
      Vouched { b with accepted } x m.event) :
    Grounded { b with acknowledgements := b.offerAll settlement about, accepted } := by
  have grown := Grown.of_accepted (b.offerAll settlement about) grows
  refine ⟨inv.past, rooted, fun j beyond => ?_, fun j y here => ?_, fun account established =>
    (inv.established account established).grow grown⟩
  · simp [offerAll, inv.within j beyond]
  · have backed := (inv.backed j y here).grow grown (fun _ => .inl) fun _ _ sender => ⟨sender, rfl⟩
    refine backed.offered (fun m => ?_) fun m here' settled => ?_
    · split <;> rfl
    · split at settled
      · rename_i concerned
        cases before : m.settlement with
        | some old =>
          simp only [Acknowledgement.offer, before, Option.some_or] at settled
          exact .inl settled
        | none =>
          simp only [Acknowledgement.offer, before, Option.none_or, Option.some.injEq] at settled
          exact .inr (vouched settled y (List.mem_of_getElem? here) m concerned)
      · exact .inl settled

theorem ok_grounded {event : EventId} {status : Bool} {message : BoundedText} (inv : Grounded b)
    (stepped : step b (.ok event status message) = some c) : Grounded c := by
  simp only [step] at stepped
  split at stepped <;> cases stepped
  rename_i socket phase
  have here : socket = b.owner.session.generation := inv.rooted.onSocket socket (by rw [phase]; rfl)
  cases status with
  | false =>
    exact offered_grounded inv (List.Subset.refl _) inv.rooted (by simp)
  | true =>
    refine offered_grounded inv (List.subset_cons_self _ _) ?_ fun _ x member m concerned => ?_
    · refine { inv.rooted with heard := fun e member => ?_ }
      obtain rfl | old := List.mem_cons.mp member
      · exact ⟨rfl, here.le, by simp [phase, switching]⟩
      · exact inv.rooted.heard e old
    · refine ⟨⟨b.owner.session.relay, socket⟩, ?_, ?_⟩
      · rw [of_decide_eq_true concerned]
        exact List.mem_cons_self
      · rw [here]
        exact inv.past.answers x member

theorem ended_grounded {reason : SessionEnded} (inv : Grounded b)
    (stepped : step b (.ended reason) = some c) : Grounded c := by
  simp only [step, Option.ite_none_right_eq_some, Option.some.injEq] at stepped
  obtain ⟨-, rfl⟩ := stepped
  exact offered_grounded inv (List.Subset.refl _) inv.rooted nofun

/-- One answer goes on: what it needs of the new state is that it is backed there,
and that whatever the connection newly says is established was proved on it. -/
theorem Grounded.put (inv : Grounded b) (past : Past c.owner)
    (rooted : Rooted c.owner.session c.accepted) (grown : Grown b c)
    (written : c.owner.session.written = b.owner.session.written)
    (found : b.owner.answers[k]? = some x) (answers : c.owner.answers = b.owner.answers.set k y)
    (others : ∀ j, j ≠ k → c.acknowledgements j = b.acknowledgements j)
    (identity : c.connection.identity = b.connection.identity)
    (sender : c.owner.session.cell.sender = true → b.owner.session.cell.sender = true)
    (backed : Backed c y (c.acknowledgements k))
    (established : ∀ account, c.connection.authentication.established = some account →
      b.connection.authentication.established = some account ∨
        c.Proven c.connection.identity account) : Grounded c where
  past := past
  rooted := rooted
  within j beyond := by
    rw [answers, List.length_set] at beyond
    have other : j ≠ k := by
      rintro rfl
      simp [List.getElem?_eq_none beyond] at found
    rw [others j other]
    exact inv.within j beyond
  backed j z here := by
    rw [answers, List.getElem?_set] at here
    by_cases same : k = j
    · subst same
      rw [if_pos rfl] at here
      split at here <;> cases here
      exact backed
    · rw [if_neg same] at here
      rw [others j (Ne.symm same)]
      refine (inv.backed j z here).grow grown (fun w member => ?_) fun _ _ up => ⟨sender up, identity⟩
      rw [written] at member
      exact .inl member
  established account said := by
    obtain old | new := established account said
    · rw [identity]
      exact (inv.established account old).grow grown
    · exact new

@[simp] theorem release_none : b.release none = b.acknowledgements := by
  funext j
  simp [release]

theorem release_self : b.release (some k) k = none := by simp [release]

theorem release_other {j : Nat} (other : j ≠ k) :
    b.release (some k) j = b.acknowledgements j := by
  simp [release, Ne.symm other]

/-- An answer goes on without the session: its mailbox stays or is released. -/
theorem Grounded.restage {p : Owner} {stage : Stage} {released : Option Nat} (inv : Grounded b)
    (past : Past p) (session : p.session = b.owner.session) (found : b.owner.answers[k]? = some x)
    (answers : p.answers = b.owner.answers.set k { x with stage })
    (own : released = none ∨ released = some k)
    (supported : ∀ kept, kept = b.acknowledgements k ∨ released = some k →
      b.Supported { x with stage } kept) :
    Grounded { b with owner := p, acknowledgements := b.release released } := by
  have grown : Grown b { b with owner := p, acknowledgements := b.release released } :=
    ⟨List.Subset.refl _, List.Subset.refl _, by rw [session]; exact List.Subset.refl _,
      by rw [session]⟩
  have fewer : ∀ m ∈ b.release released k, m ∈ b.acknowledgements k := by
    obtain rfl | rfl := own
    · simp
    · simp [release_self]
  refine inv.put past (by rw [session]; exact inv.rooted) grown (by rw [session]) found answers
    (fun j other => ?_) (by simp only [connection, session]) (by rw [session]; exact id) ?_
    fun account said => .inl ?_
  · obtain rfl | rfl := own
    · exact congrFun release_none j
    · exact release_other other
  · have kept : b.release released k = b.acknowledgements k ∨ released = some k :=
      own.imp_left fun none => by rw [none, release_none]
    have backed := (inv.backed k x found).restage fewer (supported _ kept)
    refine backed.grow grown (fun w member => ?_) fun _ _ up => ⟨?_, ?_⟩
    · rw [session] at member
      exact .inl member
    · rwa [session] at up
    · simp only [connection, session]
  · simpa only [connection, session] using said

theorem begin_supported {demand : AuthenticationDemand} {stage : Stage}
    (supported : b.Supported ⟨demand, stage, none, none⟩ none) :
    b.Supported (begin demand stage) none := by
  unfold begin
  cases challengeError demand.challenge with
  | none => exact supported
  | some text => trivial

theorem decided_supported (demand : AuthenticationDemand) (decision : Decision) :
    b.Supported ⟨demand, decided decision, none, none⟩ none := by
  cases decision with
  | authenticate asOf => rfl
  | decline | defer => trivial

/-- A new answer has no frame and no mailbox. -/
theorem Grounded.add {demand : AuthenticationDemand} {stage : Stage}
    {people : List (RelaySessionIdentity × Decision)} (inv : Grounded b)
    (past : Past { b.owner with people, answers := b.owner.answers ++ [begin demand stage] })
    (supported : b.Supported ⟨demand, stage, none, none⟩ none) :
    Grounded { b with
      owner := { b.owner with people, answers := b.owner.answers ++ [begin demand stage] } } := by
  refine ⟨past, inv.rooted, fun j beyond => ?_, fun j y here => ?_, inv.established⟩
  · simp only [List.length_append, List.length_singleton] at beyond
    exact inv.within j (Nat.le_of_succ_le beyond)
  · by_cases old : j < b.owner.answers.length
    · rw [List.getElem?_append_left old] at here
      have backed := inv.backed j y here
      exact ⟨backed.later, backed.vouched, backed.supported⟩
    · rw [List.getElem?_append_right (Nat.le_of_not_lt old), List.getElem?_singleton] at here
      split at here <;> cases here
      have empty : b.acknowledgements j = none := inv.within j (Nat.le_of_not_lt old)
      refine ⟨by simp [begin], by simp [empty], ?_⟩
      rw [empty]
      exact begin_supported supported

theorem session_grounded {action : Driver.Action} {t : Session} (inv : Grounded b)
    (undivided : Undivided b (.auth (.session action)))
    (stepped : Driver.step b.owner.session action = some t) :
    Grounded { b with owner := { b.owner with session := t } } := by
  obtain ⟨grows, fresh⟩ := step_written inv.rooted.onSocket stepped
  have grown : Grown b { b with owner := { b.owner with session := t } } :=
    ⟨List.Subset.refl _, List.Subset.refl _, grows, step_relay stepped⟩
  refine ⟨inv.past.session stepped, inv.rooted.step stepped, inv.within, fun j y here => ?_, ?_⟩
  · have member := List.mem_of_getElem? here
    refine (inv.backed j y here).grow grown (fun w written => ?_) fun account writing up => ?_
    · refine (fresh w written).imp_right fun now => ?_
      rw [show w.1 = b.owner.session.generation from now]
      exact inv.past.answers y member
    · by_cases moves : action = .moves
      · subst moves
        obtain ⟨gone, same⟩ | ⟨sender, -⟩ := moves_standing stepped
        · rw [show t.cell = b.owner.session.cell from same, gone] at up
          cases up
        · have unwritten := undivided sender y member
          rw [writing] at unwritten
          cases unwritten
      · exact ⟨(step_standing stepped moves).1 up, (step_standing stepped moves).2.1⟩
  · intro account said
    by_cases moves : action = .moves
    · subst moves
      obtain ⟨-, same⟩ | ⟨-, last, -⟩ := moves_standing stepped
      · simp only [connection, same] at said ⊢
        exact (inv.established account said).grow grown
      · simp [connection, last, Authentication.unoffered] at said
    · obtain ⟨-, identity, established⟩ := step_standing stepped moves
      simp only [connection, identity, established] at said ⊢
      exact (inv.established account said).grow grown

/-- A connection keeps what is established on it while anything but an acceptance
is recorded. -/
theorem moved_established (what : Recorded) (account : PublicKey)
    (said : (s.moved what.onto).cell.last.authentication.established = some account) :
    s.cell.last.authentication.established = some account ∨
      s.cell.sender = true ∧ what = .accepted account := by
  cases sender : s.cell.sender with
  | true =>
    cases what <;>
      simp_all [Session.moved, ConnectionCell.moved, Recorded.onto, Recorded.authentication]
  | false => simp_all [Session.moved, ConnectionCell.moved]

theorem moved_identity (what : Recorded) :
    (s.moved what.onto).cell.last.identity = s.cell.last.identity := by
  cases sender : s.cell.sender <;> simp [Session.moved, ConnectionCell.moved, sender, Recorded.onto]

theorem moved_sender {f : Connection → Connection} (up : (s.moved f).cell.sender = true) :
    s.cell.sender = true := by
  cases sender : s.cell.sender with
  | true => rfl
  | false => simp [Session.moved, ConnectionCell.moved, sender] at up

/-- Something is recorded on the connection for an answer. -/
theorem Grounded.record {what : Recorded} {y : Answer} (inv : Grounded b)
    (found : b.owner.answers[k]? = some x)
    (past : Past { b.owner.put k y with session := b.owner.session.moved what.onto })
    (backed : Backed b y (b.acknowledgements k))
    (elsewhere : ∀ account, y.stage ≠ .writing (.accepted account))
    (proven : ∀ account, what = .accepted account → b.owner.session.cell.sender = true →
      b.Proven b.connection.identity account) :
    Grounded { b with
      owner := { b.owner.put k y with session := b.owner.session.moved what.onto } } := by
  have grown : Grown b { b with
      owner := { b.owner.put k y with session := b.owner.session.moved what.onto } } :=
    ⟨List.Subset.refl _, List.Subset.refl _, List.Subset.refl _, rfl⟩
  refine inv.put past (inv.rooted.moved what) grown rfl found rfl (fun _ _ => rfl)
    (moved_identity what) moved_sender ?_ fun account said => ?_
  · exact backed.grow grown (fun _ => .inl) fun account writing => absurd writing (elsewhere account)
  · obtain old | ⟨sender, same⟩ := moved_established what account said
    · exact .inl old
    · refine .inr ?_
      rw [connection, moved_identity]
      exact (proven account same sender).grow grown

theorem takesUp_grounded {asOf : PublicKey} {event : Event} {detail : String} (inv : Grounded b)
    (found : b.owner.answers[k]? = some x) (signed : x.stage = .signed asOf event)
    (past : Past (takeUp b.owner k x asOf event detail)) :
    Grounded { b with owner := takeUp b.owner k x asOf event detail } := by
  have backed := inv.backed k x found
  obtain ⟨empty, own⟩ : b.acknowledgements k = none ∧ event.pubkey = asOf := by
    simpa only [Supported, signed] using backed.supported
  unfold takeUp at past ⊢
  split at past
  · rename_i sender requested
    refine inv.record found past ⟨backed.later, backed.vouched, ?_⟩ (by simp) (by simp)
    simp only [Supported, empty]
    exact ⟨own, nofun⟩
  · have put := inv.restage past rfl found rfl (.inl rfl) fun _ _ => trivial
    rwa [release_none] at put

theorem handsOff_grounded {asOf : PublicKey} {event : Event} {frame : String}
    {m : Acknowledgement} (inv : Grounded b) (found : b.owner.answers[k]? = some x)
    (up : x.stage = .takenUp asOf event) (mailbox : b.acknowledgements k = some m)
    (past : Past { b.owner.put k { x with
      stage := .handing asOf, ticket := some b.owner.session.tickets } with
        session := handOff b.owner.session frame 0 true }) :
    Grounded { b with
      owner := { b.owner.put k { x with
        stage := .handing asOf, ticket := some b.owner.session.tickets } with
          session := handOff b.owner.session frame 0 true }
      sent := ⟨b.owner.session.tickets, event⟩ :: b.sent } := by
  have still := handOff_still (s := b.owner.session) frame 0 true
  have cell := handOff_cell (s := b.owner.session) frame 0 true
  have backed := inv.backed k x found
  obtain ⟨own, registered⟩ : event.pubkey = asOf ∧ ∀ m ∈ b.acknowledgements k, m.event = event.id := by
    simpa only [Supported, up] using backed.supported
  refine inv.put past (inv.rooted.handOff frame) ⟨List.subset_cons_self _ _, List.Subset.refl _,
    by rw [still.written]; exact List.Subset.refl _, still.relay⟩ still.written found rfl
    (fun _ _ => rfl) (by rw [connection, connection, cell]) (by rw [cell]; exact id) ?_
    fun account said => .inl ?_
  · refine ⟨fun w member ticket => ?_, fun m here accepted => ?_, ?_⟩
    · rw [still.written] at member
      have old := written_minted inv.rooted.accounted member
      rw [← Option.some.inj ticket] at old
      exact absurd old (Nat.lt_irrefl _)
    · exact backed.vouched m here accepted
    · exact ⟨m, mailbox, _, List.mem_cons_self, rfl, own, (registered m mailbox).symm⟩
  · rw [connection, cell] at said
    exact said

theorem returns_grounded {asOf : PublicKey} {detail : String} {ticket : Nat}
    {outcome : Nat × HandoffOutcome} (inv : Grounded b) (found : b.owner.answers[k]? = some x)
    (handing : x.stage = .handing asOf) (ticketed : x.ticket = some ticket)
    (told : b.owner.session.returned.find? (fun r => r.1 = ticket) = some outcome)
    (past : Past (b.owner.put k { x with stage := returnedStage asOf detail outcome.2 })) :
    Grounded { b with
      owner := b.owner.put k { x with stage := returnedStage asOf detail outcome.2 }
      acknowledgements := b.release (releasedAfter
        (b.owner.put k { x with stage := returnedStage asOf detail outcome.2 })
          (.returns k detail)) } := by
  have within : k < b.owner.answers.length := (List.getElem?_eq_some_iff.mp found).1
  have supported := (inv.backed k x found).supported
  simp only [Supported, handing] at supported
  cases outcome with
  | mk n outcome =>
    cases outcome with
    | handedOff identity correlation =>
      refine inv.restage past rfl found rfl (.inl ?_) fun kept same => ?_
      · simp [releasedAfter, Owner.put, within, returnedStage]
      · obtain rfl | gone := same
        · refine ⟨supported, ?_⟩
          have wire := inv.rooted.definite.confirmed _ (List.mem_of_find?_eq_some told) rfl
          obtain ⟨w, written, same⟩ := List.mem_map.mp wire
          have own : n = ticket := by simpa using List.find?_some told
          exact ⟨w, written, by rw [ticketed, same, own]⟩
        · simp [releasedAfter, Owner.put, within, returnedStage] at gone
    | notHandedOff | ambiguous =>
      refine inv.restage past rfl found rfl (.inr ?_) fun _ _ => trivial
      simp [releasedAfter, Owner.put, within, returnedStage, unanswerable]

/-- The identity check: an acceptance that passes it was proved on the connection
of the moment, which is the one the watch shows. -/
theorem accepted_proven {account : PublicKey} (inv : Grounded b)
    (found : b.owner.answers[k]? = some x) (recording : x.stage = .recording (.accepted account))
    (same : b.owner.session.identity = x.demand.session) :
    b.Proven x.demand.session account ∧
      (b.owner.session.cell.sender = true → b.connection.identity = x.demand.session) := by
  have backed := inv.backed k x found
  have supported := backed.supported
  simp only [Supported, recording] at supported
  obtain ⟨event, ⟨m, sent, ticket, author, rfl⟩, ⟨w, written, framed⟩, i, accepted, later⟩ :=
    supported
  obtain ⟨relay, heard⟩ := inv.rooted.heard _ accepted
  rw [← same] at later ⊢
  have whole : i = b.owner.session.identity := by
    cases i
    simp only [Session.identity, RelaySessionIdentity.mk.injEq]
    exact ⟨relay, Nat.le_antisymm heard.1 later⟩
  have here : w.1 = b.owner.session.generation := by
    have own := backed.later w written framed
    rw [← same] at own
    exact Nat.le_antisymm (inv.rooted.written w written) own
  constructor
  · refine ⟨m, sent, author, ?_, w, written, ?_, ?_⟩
    · rwa [whole] at accepted
    · exact Option.some.inj (framed.symm.trans ticket)
    · rw [Session.identity, here]
  · intro sender
    refine inv.rooted.named sender ?_
    cases switched : switching b.owner.session.phase with
    | false => rfl
    | true => exact absurd (heard.2 switched) (Nat.not_lt_of_le later)

theorem compares_grounded {what : Recorded} (inv : Grounded b)
    (found : b.owner.answers[k]? = some x) (recording : x.stage = .recording what)
    (past : Past (compare b.owner k x what)) :
    Grounded { b with owner := compare b.owner k x what } := by
  have supported := (inv.backed k x found).supported
  simp only [Supported, recording] at supported
  rw [← release_none]
  by_cases same : b.owner.session.identity = x.demand.session
  · simp only [compare, if_pos same] at past ⊢
    refine inv.restage past rfl found rfl (.inl rfl) fun kept mailbox => ?_
    obtain rfl | gone := mailbox
    · cases what with
      | accepted account =>
        have proven := accepted_proven inv found recording same
        exact proven
      | answering asOf => exact supported
      | declined | refused | unanswerable => trivial
    · cases gone
  · simp only [compare, if_neg same] at past ⊢
    refine inv.restage past rfl found rfl (.inl rfl) fun kept mailbox => ?_
    obtain rfl | gone := mailbox
    · cases what with
      | answering asOf => exact supported
      | accepted | declined | refused | unanswerable => trivial
    · cases gone

theorem writes_grounded {what : Recorded} (inv : Grounded b)
    (found : b.owner.answers[k]? = some x) (writing : x.stage = .writing what)
    (past : Past { b.owner.put k { x with stage := recordedThen what } with
      session := b.owner.session.moved what.onto }) :
    Grounded { b with owner := { b.owner.put k { x with stage := recordedThen what } with
      session := b.owner.session.moved what.onto } } := by
  have backed := inv.backed k x found
  have supported := backed.supported
  simp only [Supported, writing] at supported
  refine inv.record found past (backed.restage (fun _ => id) ?_) (fun account => ?_) ?_
  · cases what with
    | answering asOf => exact supported
    | accepted | declined | refused | unanswerable => trivial
  · cases what <;> simp [recordedThen]
  · rintro account rfl sender
    rw [supported.2 sender]
    exact supported.1

theorem settles_grounded {account : PublicKey} {settlement : Settlement} {m : Acknowledgement}
    (inv : Grounded b) (found : b.owner.answers[k]? = some x)
    (awaiting : x.stage = .awaiting account) (mailbox : b.acknowledgements k = some m)
    (settled_so : m.settlement = some settlement)
    (past : Past (b.owner.put k { x with stage := settled account settlement })) :
    Grounded { b with
      owner := b.owner.put k { x with stage := settled account settlement }
      acknowledgements := b.release (some k) } := by
  have backed := inv.backed k x found
  have supported := backed.supported
  simp only [Supported, awaiting, mailbox] at supported
  obtain ⟨⟨_, ⟨rfl⟩, framed⟩, written⟩ := supported
  refine inv.restage past rfl found rfl (.inr rfl) fun _ _ => ?_
  cases settlement with
  | accepted => exact ⟨m.event, framed, written, backed.vouched m mailbox settled_so⟩
  | rejected | ended => trivial

/-- Whom a connection waits for says nothing of what was answered on it. -/
theorem Grounded.people {people : List (RelaySessionIdentity × Decision)} (inv : Grounded b)
    (past : Past { b.owner with people := people }) :
    Grounded { b with owner := { b.owner with people := people } } := by
  refine ⟨past, inv.rooted, inv.within, fun j y here => ?_, inv.established⟩
  have backed := inv.backed j y here
  exact ⟨backed.later, backed.vouched, backed.supported⟩

theorem auth_grounded {a : Auth.Action} (inv : Grounded b) (undivided : Undivided b (.auth a))
    (genuine : Genuine b (.auth a)) (stepped : step b (.auth a) = some c) : Grounded c := by
  simp only [step, Option.ite_none_right_eq_some, Option.map_eq_some_iff] at stepped
  obtain ⟨enabled, p, stepped, rfl⟩ := stepped
  have past := step_past inv.past stepped
  cases a with
  | session action =>
    simp only [Auth.step, Option.map_eq_some_iff] at stepped
    obtain ⟨session, stepped, rfl⟩ := stepped
    simpa [releasedAfter, sentAfter] using session_grounded inv undivided stepped
  | asked =>
    simp only [Auth.step] at stepped
    split at stepped <;> cases stepped
    simpa [releasedAfter, sentAfter] using inv.add past rfl
  | finds connection decision =>
    simp only [Auth.step] at stepped
    split at stepped
    · split at stepped <;> cases stepped
      simpa [releasedAfter, sentAfter] using inv.people past
    · cases stepped
  | reads connection decision =>
    simp only [Auth.step, Option.ite_none_right_eq_some] at stepped
    obtain ⟨-, stepped⟩ := stepped
    split at stepped <;> cases stepped
    · simpa [releasedAfter, sentAfter] using inv.add past (decided_supported _ decision)
    · simpa [releasedAfter, sentAfter] using inv.people past
  | decides k decision =>
    simp only [Auth.step, Option.bind_eq_bind, Option.bind_eq_some_iff] at stepped
    obtain ⟨x, found, stepped⟩ := stepped
    split at stepped <;> cases stepped
    rename_i asked
    refine inv.restage past rfl found rfl (.inl rfl) fun kept mailbox => ?_
    have supported := (inv.backed k x found).supported
    simp only [Supported, asked] at supported
    obtain rfl | gone := mailbox
    · unfold resolved
      split
      · trivial
      · cases decision with
        | authenticate asOf => exact supported
        | decline | defer => trivial
    · cases gone
  | signs k returned =>
    simp only [Auth.step, Option.bind_eq_bind, Option.bind_eq_some_iff] at stepped
    obtain ⟨x, found, stepped⟩ := stepped
    have supported := (inv.backed k x found).supported
    split at stepped <;> cases stepped
    · rename_i signing
      simp only [Supported, signing] at supported
      refine inv.restage past rfl found rfl (.inl rfl) fun kept mailbox => ?_
      obtain rfl | gone := mailbox
      · exact ⟨supported, genuine x found _ (by rw [signing]; rfl)⟩
      · cases gone
    · exact inv.restage past rfl found rfl (.inl rfl) fun _ _ => trivial
  | takesUp k detail =>
    simp only [Auth.step, Option.bind_eq_bind, Option.bind_eq_some_iff] at stepped
    obtain ⟨x, found, stepped⟩ := stepped
    split at stepped <;> cases stepped
    rename_i asOf event signed
    simpa [releasedAfter, sentAfter] using takesUp_grounded inv found signed past
  | handsOff k frame detail =>
    simp only [Auth.step, Option.bind_eq_bind, Option.bind_eq_some_iff] at stepped
    obtain ⟨x, found, stepped⟩ := stepped
    split at stepped <;> cases stepped
    · rename_i asOf event frame up
      obtain ⟨m, mailbox⟩ := Option.isSome_iff_exists.mp enabled
      simpa [releasedAfter, sentAfter, found, up, Stage.takenUpEvent]
        using handsOff_grounded inv found up mailbox past
    · exact inv.restage past rfl found rfl (.inr rfl) fun _ _ => trivial
  | returns k detail =>
    simp only [Auth.step, Option.bind_eq_bind, Option.bind_eq_some_iff] at stepped
    obtain ⟨x, found, ticket, ticketed, outcome, told, stepped⟩ := stepped
    split at stepped <;> cases stepped
    rename_i asOf handing
    exact returns_grounded inv found handing ticketed told past
  | compares k =>
    simp only [Auth.step, Option.bind_eq_bind, Option.bind_eq_some_iff] at stepped
    obtain ⟨x, found, stepped⟩ := stepped
    split at stepped <;> cases stepped
    rename_i what recording
    simpa [releasedAfter, sentAfter] using compares_grounded inv found recording past
  | writes k =>
    simp only [Auth.step, Option.bind_eq_bind, Option.bind_eq_some_iff] at stepped
    obtain ⟨x, found, stepped⟩ := stepped
    split at stepped <;> cases stepped
    rename_i what writing
    simpa [releasedAfter, sentAfter] using writes_grounded inv found writing past
  | settles k settlement =>
    simp only [Auth.step, Option.bind_eq_bind, Option.bind_eq_some_iff] at stepped
    obtain ⟨x, found, stepped⟩ := stepped
    split at stepped <;> cases stepped
    rename_i account awaiting
    simp only [Verdicts.enabled, Option.any_eq_true, decide_eq_true_eq] at enabled
    obtain ⟨m, mailbox, settled_so⟩ := enabled
    exact settles_grounded inv found awaiting mailbox settled_so past

theorem step_grounded {a : Action} (inv : Grounded b) (faithful : Faithful b a)
    (stepped : step b a = some c) : Grounded c := by
  cases a with
  | awaits k => exact awaits_grounded inv stepped
  | ok event status message => exact ok_grounded inv stepped
  | ended reason => exact ended_grounded inv stepped
  | auth a => exact auth_grounded inv faithful.1 faithful.2 stepped

/-- Only a reset takes away what is established, and it names another connection. -/
theorem step_kept {a : Action} (rooted : Rooted b.owner.session b.accepted)
    (stepped : step b a = some c) (identity : c.connection.identity = b.connection.identity)
    (established : b.connection.authentication.established.isSome) :
    c.connection.authentication.established.isSome := by
  have recorded : ∀ (s : Session) (what : Recorded),
      s.cell.last.authentication.established.isSome →
        (s.moved what.onto).cell.last.authentication.established.isSome := by
    intro s what some
    cases sender : s.cell.sender <;> cases what <;>
      simp_all [Session.moved, ConnectionCell.moved, Recorded.onto, Recorded.authentication]
  cases a with
  | awaits k =>
    simp only [step, Option.bind_eq_bind, Option.bind_eq_some_iff] at stepped
    obtain ⟨x, -, stepped⟩ := stepped
    split at stepped <;> cases stepped
    exact established
  | ok event status message =>
    simp only [step] at stepped
    split at stepped <;> cases stepped
    exact established
  | ended reason =>
    simp only [step, Option.ite_none_right_eq_some, Option.some.injEq] at stepped
    obtain ⟨-, rfl⟩ := stepped
    exact established
  | auth a =>
    simp only [step, Option.ite_none_right_eq_some, Option.map_eq_some_iff] at stepped
    obtain ⟨-, p, stepped, rfl⟩ := stepped
    simp only [connection] at identity established ⊢
    obtain ⟨action, rfl, moved, -⟩ | ⟨people, added, -, -, -, -, -, rfl⟩ | ⟨k, x, y, carries⟩ :=
      step_cases stepped
    · by_cases moves : action = .moves
      · subst moves
        obtain ⟨-, same⟩ | ⟨-, last, switched⟩ := moves_standing moved
        · rwa [same]
        · -- while it is switching the session shows a connection it no longer has
          rw [last] at identity
          have before := rooted.last.2 switched
          rw [← identity] at before
          exact absurd before (Nat.lt_irrefl _)
      · rwa [(step_standing moved moves).2.2]
    · exact established
    · obtain ⟨-, frame⟩ | ⟨what, -, -, -, moved⟩ := carries.session
      · rwa [frame.authentication]
      · rw [moved]
        exact recorded _ what established

theorem Grounded.sound (inv : Grounded b) : Sound b where
  proven := inv.established
  kept _ _ stepped identity established := step_kept inv.rooted stepped identity established

/-- Along every run whose resets divide no verdict from its write and whose signers
sign for the account they are asked for, an identity is established only by an
`AUTH` of its own written and accepted on the same connection, and for as long as
the connection lasts. -/
theorem established_proven {relay maxFrameBytes outboundFrames reconnectAttempts generation}
    {as : List Action}
    (run : Run step Faithful (attached
      (opened relay maxFrameBytes outboundFrames reconnectAttempts generation)) as b) :
    Sound b :=
  (run.invariant Grounded (attached_grounded ..) fun _ _ _ inv faithful stepped =>
    step_grounded inv faithful stepped).sound

/-- The signer of account 7 returns the event, and its frame is written. -/
def answering (event : Event) : List Action :=
  (demanded "nonce").map .auth ++
    ([.signs 0 (.ok event), .takesUp 0 ""] : List Auth.Action).map .auth ++ [.awaits 0] ++
    (signedAndSent.drop 2).map .auth

/-- The relay accepts the answer, the verdict passes its identity check. -/
def accepting (event : Event) : List Action :=
  ([.compares 0, .writes 0] : List Auth.Action).map .auth ++
    [.ok event.id true (BoundedText.new "")] ++
    ([.settles 0 .accepted, .compares 0] : List Auth.Action).map .auth

def shows (account : PublicKey) (b : Verdicts) : Bool :=
  b.connection.authentication.established = some account

theorem established_proven_of_accepted :
    ∃ as b, Run step Faithful (attached (opened "wss://relay" 64 4 none 1)) as b ∧
      shows 7 b = true ∧ Sound b := by
  obtain ⟨b, run, shown⟩ : ∃ b, Run step Faithful (attached (opened "wss://relay" 64 4 none 1))
      (answering proof ++ accepting proof ++ [.auth (.writes 0)]) b ∧ shows 7 b = true :=
    Run.of_any (by decide +kernel)
  exact ⟨_, b, run, shown, established_proven run⟩

/-- The connection is replaced between the identity check and the write: the new
connection shows somebody established on it who never answered there. -/
theorem established_unproven :
    ∃ as b, Run step Genuine (attached (opened "wss://relay" 64 4 none 1)) as b ∧ ¬ Sound b := by
  obtain ⟨b, run, shown⟩ : ∃ b, Run step Genuine (attached (opened "wss://relay" 64 4 none 1))
      (answering proof ++ accepting proof ++
        (lose ++ reconnect).map (fun a => .auth (.session a)) ++ [.auth (.writes 0)]) b ∧
      (shows 7 b && b.accepted.all fun e => e.1 ≠ b.connection.identity) = true :=
    Run.of_any (by decide +kernel)
  refine ⟨_, b, run, fun sound => ?_⟩
  simp only [shows, Bool.and_eq_true, decide_eq_true_eq, List.all_eq_true] at shown
  obtain ⟨m, -, -, accepted, -⟩ := sound.proven 7 shown.1
  exact shown.2 _ accepted rfl

/-- The signer of account 7 answers with an event of account 9: nothing compares
the two, and the relay's acceptance of the one establishes the other. -/
theorem established_by_another :
    ∃ as b, Run step Undivided (attached (opened "wss://relay" 64 4 none 1)) as b ∧ ¬ Sound b := by
  obtain ⟨b, run, shown⟩ : ∃ b, Run step Undivided (attached (opened "wss://relay" 64 4 none 1))
      (answering { proof with pubkey := 9 } ++ accepting { proof with pubkey := 9 } ++
        [.auth (.writes 0)]) b ∧
      (shows 7 b && b.sent.all fun m => m.event.pubkey ≠ 7) = true :=
    Run.of_any (by decide +kernel)
  refine ⟨_, b, run, fun sound => ?_⟩
  simp only [shows, Bool.and_eq_true, decide_eq_true_eq, List.all_eq_true] at shown
  obtain ⟨m, sent, author, -⟩ := sound.proven 7 shown.1
  exact shown.2 m sent author

end Verdicts

end Fava.Auth
