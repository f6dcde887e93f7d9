import Fava.Lib.Log
import Fava.Publication.Signing
import Fava.WriteStore.Memory.Signatures

namespace Fava.Publication

open Std Fava.Lib Fava.Nostr Fava.Relay Fava.Routing Fava.Session Fava.Write Fava.WriteStore
open Fava.WriteStore.Memory

/-- The receipt a task works on. -/
def SigningTask.receipt : SigningTask → Receipt
  | .started receipt => receipt
  | .selected signing | .authorized signing | .asked signing | .completed signing _
  | .refused signing _ => signing.receipt

/-- There was a session since the attachment was selected, and it was current in each. -/
def Signing.Throughout (signing : Signing) : Prop :=
  signing.sessions ≠ [] ∧ ∀ session ∈ signing.sessions,
    session.isCurrent signing.unsigned.pubkey signing.generation = true

/-- The attachment was counted in the first session, and the others come between it and
the session there is. -/
def Signing.Awaits (signing : Signing) (session : Locked) : Prop :=
  ∃ first ∈ signing.sessions, signing.generation ≤ first.revision ∧ Locked.Later first session ∧
    ∀ seen ∈ signing.sessions, Locked.Later first seen ∧ Locked.Later seen session

/-- The receipt was read unsigned, with the event that is to be signed. -/
def Signing.Holds (signing : Signing) : Prop :=
  signing.receipt.current.event = .unsigned signing.unsigned

/-- What a task may rely on. -/
inductive SigningTask.Sound (session : Locked) : SigningTask → Prop
  | started {receipt : Receipt} : Sound session (.started receipt)
  | selected {signing : Signing} (holds : signing.Holds) (awaits : signing.Awaits session) :
      Sound session (.selected signing)
  | authorized {signing : Signing} (holds : signing.Holds) (awaits : signing.Awaits session) :
      Sound session (.authorized signing)
  | asked {signing : Signing} (holds : signing.Holds) (awaits : signing.Awaits session) :
      Sound session (.asked signing)
  | completed {signing : Signing} {completion : Except SignerError Event} (holds : signing.Holds)
      (throughout : signing.Throughout) : Sound session (.completed signing completion)
  | refused {signing : Signing} {refusal : String} : Sound session (.refused signing refusal)

section Session

variable {signing : Signing} {task : SigningTask} {session next : Locked}

theorem SigningTask.receipt_sees (session : Locked) (task : SigningTask) :
    (task.sees session).receipt = task.receipt := by
  cases task <;> rfl

theorem Signing.Awaits.sees (awaits : signing.Awaits session) (later : Locked.Later session next) :
    Signing.Awaits { signing with sessions := signing.sessions ++ [next] } next := by
  obtain ⟨first, begun, counted, lasting, between⟩ := awaits
  refine ⟨first, List.mem_append_left _ begun, counted, lasting.trans later, fun seen member => ?_⟩
  obtain old | new := List.mem_append.mp member
  · exact ⟨(between seen old).1, (between seen old).2.trans later⟩
  · cases List.mem_singleton.mp new
    exact ⟨lasting.trans later, .refl _⟩

theorem SigningTask.Sound.sees (sound : task.Sound session) (later : Locked.Later session next) :
    (task.sees next).Sound next := by
  cases sound with
  | started => exact .started
  | selected holds awaits => exact .selected holds (awaits.sees later)
  | authorized holds awaits => exact .authorized holds (awaits.sees later)
  | asked holds awaits => exact .asked holds (awaits.sees later)
  | completed holds throughout => exact .completed holds throughout
  | refused => exact .refused

/-- An attachment that is current now was so in every session since: it cannot have gone
and come back. -/
theorem Signing.Awaits.throughout (awaits : signing.Awaits session)
    (current : session.isCurrent signing.unsigned.pubkey signing.generation = true) :
    signing.Throughout := by
  obtain ⟨first, begun, counted, -, between⟩ := awaits
  refine ⟨List.ne_nil_of_mem begun, fun seen member => ?_⟩
  by_contra gone
  obtain ⟨earlier, later⟩ := between seen member
  exact Locked.retired counted earlier later gone current

end Session

namespace Signings

variable {N : Library} {capacity : Nat} {s t u : Signings} {action : Action} {task : SigningTask}
  {next : Option SigningTask} {signing : Signing} {receipt : Receipt} {ledger : WriteState}
  {session : Locked} {index : Nat} {goneOn : SigningTask}

/-- What a task asks of the store, of the receipt it works on: to install is asked only for what
the signer answered. -/
inductive Asks : SigningTask → WriteStore.Memory.Action → Prop
  | install {signing : Signing} {event : Event} : Asks (.completed signing (.ok event))
      (.installSigned signing.receipt.writeId signing.receipt.receiptId
        signing.receipt.current.publication.revisionId signing.receipt.current.id event)
  | authorize {signing : Signing} : Asks (.selected signing)
      (.authorizeSigning signing.receipt.writeId signing.receipt.receiptId
        signing.receipt.current.publication.revisionId signing.receipt.current.id)
  | retry {task : SigningTask} {reason : String} : Asks task
      (.recordSignerRetryable task.receipt.writeId task.receipt.receiptId
        task.receipt.current.publication.revisionId task.receipt.current.id reason)
  | refuse {signing : Signing} {refusal : String} : Asks (.refused signing refusal)
      (.recordSignerRefusal signing.receipt.writeId signing.receipt.receiptId
        signing.receipt.current.publication.revisionId signing.receipt.current.id refusal)

/-- The evidence is as before, or there is a completion more of the receipt that came too late. -/
inductive Evidenced (receipt : Receipt) (s u : Signings) : Prop
  | kept (stale : u.stale = s.stale) (rejected : u.rejected = s.rejected)
  | more (reason : String) (stale : u.stale = (s.rejectStaleCompletion receipt reason).stale)
      (rejected : u.rejected = (s.rejectStaleCompletion receipt reason).rejected)

/-- What a task leaves as it is when it goes on, and what it does to the ledger and to the
evidence. -/
structure Touched (N : Library) (capacity : Nat) (s : Signings) (task : SigningTask) (u : Signings) :
    Prop where
  session : u.session = s.session
  tasks : u.tasks = s.tasks
  ledger : u.ledger = s.ledger ∨ ∃ asked, Asks task asked ∧ u.ledger = perform N capacity s.ledger asked
  evidence : Evidenced task.receipt s u

/-- How a task goes on, in a session and with a ledger. -/
inductive Next (session : Locked) (ledger : WriteState) : SigningTask → Option SigningTask → Prop
  | over {task : SigningTask} : Next session ledger task none
  | selected {receipt : Receipt} {unsigned : UnsignedEvent} {generation : Nat}
      (holding : receipt.current.event = .unsigned unsigned)
      (attached : session.signers[unsigned.pubkey]? = some generation) :
      Next session ledger (.started receipt) (some (.selected ⟨receipt, unsigned, generation, [session]⟩))
  | authorized {signing : Signing} {receipt : Receipt}
      (found : ledger.writes[signing.receipt.receiptId]? = some receipt)
      (revision : receipt.current.publication.revisionId =
        signing.receipt.current.publication.revisionId)
      (unsigned : ∃ body, receipt.current.event = .unsigned body) :
      Next session ledger (.selected signing) (some (.authorized { signing with receipt }))
  | asked {signing : Signing} : Next session ledger (.authorized signing) (some (.asked signing))
  | completed {signing : Signing} {completion : Except SignerError Event}
      (current : session.isCurrent signing.unsigned.pubkey signing.generation = true) :
      Next session ledger (.asked signing) (some (.completed signing completion))
  | refused {signing : Signing} {completion : Except SignerError Event} {refusal : String} :
      Next session ledger (.completed signing completion) (some (.refused signing refusal))

section Parts

theorem touched_self : Touched N capacity s task s := ⟨rfl, rfl, .inl rfl, .kept rfl rfl⟩

theorem touched_of_asked {asked : WriteStore.Memory.Action} (asks : Asks task asked)
    (performed : ledger = perform N capacity s.ledger asked) :
    Touched N capacity s task { s with ledger } :=
  ⟨rfl, rfl, .inr ⟨asked, asks, performed⟩, .kept rfl rfl⟩

theorem touched_of_rejected {asked : WriteStore.Memory.Action} (asks : Asks task asked)
    (performed : ledger = perform N capacity s.ledger asked) (reason : String) :
    Touched N capacity s task (({ s with ledger } : Signings).rejectStaleCompletion task.receipt reason) :=
  ⟨rfl, rfl, .inr ⟨asked, asks, performed⟩, .more reason rfl rfl⟩

theorem touched_retryLater (is : task.receipt = receipt) (reason refused : String) :
    Touched N capacity s task (s.retryLater N receipt reason refused) := by
  have asks : Asks task (.recordSignerRetryable receipt.writeId receipt.receiptId
    receipt.current.publication.revisionId receipt.current.id reason) := is ▸ .retry
  unfold retryLater
  split
  · rename_i done
    exact touched_of_asked asks (congrArg Prod.snd done).symm
  · rename_i done
    rw [← is] at asks ⊢
    exact touched_of_rejected asks (is ▸ (congrArg Prod.snd done).symm) _

theorem touched_cancel (receipt : Receipt) (generation : Option Nat) (cause : String) :
    Touched N capacity s (.started receipt) (s.cancelAuthorizedSigning N receipt generation cause) := by
  unfold cancelAuthorizedSigning
  split
  · exact touched_retryLater rfl _ _
  · exact touched_self

theorem next_select (availability : SignerAvailability) : Next s.session ledger (.started receipt)
    ((s.select receipt availability).map SigningTask.selected) := by
  unfold select
  split
  · exact .over
  · rename_i holding
    split
    · rename_i attached
      exact .selected holding attached
    · exact .over

theorem goes_authorize : Touched N capacity s (.selected signing) (s.authorize N signing).1 ∧
    Next s.session (s.authorize N signing).1.ledger (.selected signing) (s.authorize N signing).2 := by
  unfold authorize
  split
  · rename_i done
    exact ⟨touched_of_asked .authorize (congrArg Prod.snd done).symm, .over⟩
  · rename_i done
    refine ⟨touched_of_asked .authorize (congrArg Prod.snd done).symm, ?_⟩
    obtain ⟨found, revision, unsigned⟩ := authorizeSigning_of_ok done
    dsimp only
    split
    · exact .authorized found revision unsigned
    · exact .over

theorem goes_invoke : Touched N capacity s (.authorized signing) (s.invokeSigner N signing).1 ∧
    Next s.session (s.invokeSigner N signing).1.ledger (.authorized signing)
      (s.invokeSigner N signing).2 := by
  unfold invokeSigner
  split
  · exact ⟨touched_self, .asked⟩
  · exact ⟨touched_retryLater rfl _ _, .over⟩

theorem goes_complete (completion : Except SignerError Event) :
    Touched N capacity s (.asked signing) (s.complete N signing completion).1 ∧
      Next s.session (s.complete N signing completion).1.ledger (.asked signing)
        (s.complete N signing completion).2 := by
  unfold complete
  split
  · rename_i current
    exact ⟨touched_self, .completed current⟩
  · exact ⟨⟨rfl, rfl, .inl rfl, .more _ rfl rfl⟩, .over⟩

theorem goes_conclude (completion : Except SignerError Event) :
    Touched N capacity s (.completed signing completion) (s.conclude N signing completion).1 ∧
      Next s.session (s.conclude N signing completion).1.ledger (.completed signing completion)
        (s.conclude N signing completion).2 := by
  have retries : ∀ reason, Asks (.completed signing completion) (.recordSignerRetryable
      signing.receipt.writeId signing.receipt.receiptId
      signing.receipt.current.publication.revisionId signing.receipt.current.id reason) :=
    fun _ => .retry
  unfold conclude
  dsimp only
  split
  · split
    · rename_i done
      exact ⟨touched_of_asked .install (congrArg Prod.snd done).symm, .over⟩
    · rename_i done
      exact ⟨touched_of_asked .install (congrArg Prod.snd done).symm, .refused⟩
  · exact ⟨touched_of_asked (retries _) rfl, .over⟩
  · exact ⟨touched_of_asked (retries _) rfl, .over⟩
  · exact ⟨touched_self, .refused⟩

theorem touched_refuse (refusal : String) :
    Touched N capacity s (.refused signing refusal) (s.refuse N signing refusal) := by
  have asks : Asks (.refused signing refusal) (.recordSignerRefusal signing.receipt.writeId
    signing.receipt.receiptId signing.receipt.current.publication.revisionId
    signing.receipt.current.id refusal) := .refuse
  have performed : (refuseSigning N signing.receipt refusal s.ledger).2 = perform N capacity s.ledger
      (.recordSignerRefusal signing.receipt.writeId signing.receipt.receiptId
        signing.receipt.current.publication.revisionId signing.receipt.current.id refusal) := by
    unfold refuseSigning
    split
    · rename_i done
      exact (congrArg Prod.snd done).symm
    · rename_i done
      exact (congrArg Prod.snd done).symm
  unfold refuse
  split
  · rename_i done
    exact touched_of_asked asks ((congrArg Prod.snd done).symm.trans performed)
  · rename_i done
    exact touched_of_rejected asks ((congrArg Prod.snd done).symm.trans performed) _

theorem goes_advance {gone : Signings × Option SigningTask} (advanced : s.advance N task = some gone) :
    Touched N capacity s task gone.1 ∧ Next s.session gone.1.ledger task gone.2 := by
  cases task with
  | started | asked => cases advanced
  | selected signing =>
    cases Option.some.inj advanced
    exact goes_authorize
  | authorized signing =>
    cases Option.some.inj advanced
    exact goes_invoke
  | completed signing completion =>
    cases Option.some.inj advanced
    exact goes_conclude completion
  | refused signing refusal =>
    cases Option.some.inj advanced
    exact ⟨touched_refuse refusal, .over⟩

end Parts

/-- What one step can do. -/
inductive Stepped (N : Library) (capacity : Nat) (s : Signings) : Signings → Prop
  | session {command : State.Command} {t : Signings}
      (session : s.session.step command = some t.session) (ledger : t.ledger = s.ledger)
      (tasks : t.tasks = s.tasks.map (SigningTask.sees t.session))
      (evidence : t.stale = s.stale ∧ t.rejected = s.rejected) : Stepped N capacity s t
  | store {asked : WriteStore.Memory.Action} {t : Signings} (plain : isSigning asked = false)
      (session : t.session = s.session) (ledger : t.ledger = perform N capacity s.ledger asked)
      (tasks : t.tasks = s.tasks) (evidence : t.stale = s.stale ∧ t.rejected = s.rejected) :
      Stepped N capacity s t
  | start {receiptId : ReceiptId} {receipt : Receipt} {t : Signings}
      (found : s.ledger.writes[receiptId]? = some receipt) (session : t.session = s.session)
      (ledger : t.ledger = s.ledger) (tasks : t.tasks = s.tasks ++ [.started receipt])
      (evidence : t.stale = s.stale ∧ t.rejected = s.rejected) : Stepped N capacity s t
  | task {index : Nat} {task : SigningTask} {next : Option SigningTask} {u : Signings}
      (found : s.tasks[index]? = some task) (touched : Touched N capacity s task u)
      (goes : Next s.session u.ledger task next) :
      Stepped N capacity s { u with tasks := proceed s.tasks index next }

theorem goes_of_step (stepped : step N capacity s action = some t) (about : action.about = some index) :
    ∃ task u next, s.tasks[index]? = some task ∧ Touched N capacity s task u ∧
      Next s.session u.ledger task next ∧ t = { u with tasks := proceed s.tasks index next } := by
  cases action with
  | session | store | start => cases about
  | select index availability =>
    cases about
    obtain ⟨task, found, done⟩ := Option.bind_eq_some_iff.mp stepped
    split at done
    · cases Option.some.inj done
      exact ⟨_, _, _, found, touched_self, next_select availability, rfl⟩
    · cases done
  | cancel index generation cause =>
    cases about
    obtain ⟨task, found, done⟩ := Option.bind_eq_some_iff.mp stepped
    split at done
    · cases Option.some.inj done
      exact ⟨_, _, _, found, touched_cancel _ generation cause, .over, rfl⟩
    · cases done
  | advance index =>
    cases about
    obtain ⟨task, found, done⟩ := Option.bind_eq_some_iff.mp stepped
    obtain ⟨⟨u, next⟩, advanced, done⟩ := Option.bind_eq_some_iff.mp done
    cases Option.some.inj done
    have gone : Touched N capacity s task u ∧ Next s.session u.ledger task next :=
      goes_advance advanced
    rw [gone.1.tasks]
    exact ⟨_, _, _, found, gone.1, gone.2, rfl⟩
  | complete index completion =>
    cases about
    obtain ⟨task, found, done⟩ := Option.bind_eq_some_iff.mp stepped
    split at done
    · rename_i signing
      have gone : Touched N capacity s (.asked signing) (s.complete N signing completion).1 ∧
          Next s.session (s.complete N signing completion).1.ledger (.asked signing)
            (s.complete N signing completion).2 := goes_complete completion
      generalize s.complete N signing completion = completed at done gone
      obtain ⟨u, next⟩ := completed
      cases Option.some.inj done
      have same : u.tasks = s.tasks := gone.1.tasks
      rw [same]
      exact ⟨_, _, _, found, gone.1, gone.2, rfl⟩
    · cases done

theorem stepped_of_step (stepped : step N capacity s action = some t) : Stepped N capacity s t := by
  cases about : action.about with
  | some index =>
    obtain ⟨task, u, next, found, touched, goes, rfl⟩ := goes_of_step stepped about
    exact .task found touched goes
  | none =>
    cases action with
    | select | cancel | advance | complete => cases about
    | session command =>
      cases Option.some.inj stepped
      exact .session (show s.session.step command = _ from rfl) rfl rfl ⟨rfl, rfl⟩
    | store asked =>
      unfold step at stepped
      dsimp only at stepped
      split at stepped
      · cases stepped
      · rename_i plain
        cases Option.some.inj stepped
        exact .store (Bool.not_eq_true _ ▸ plain) rfl rfl rfl ⟨rfl, rfl⟩
    | start receiptId =>
      obtain ⟨receipt, found, done⟩ := Option.bind_eq_some_iff.mp stepped
      cases Option.some.inj done
      exact .start found rfl rfl rfl ⟨rfl, rfl⟩

/-- The session's laws hold, the ledger is one that operations of the store make, and every
task works on a receipt that was read from it and may rely on what it found. -/
structure Ruled (N : Library) (capacity : Nat) (s : Signings) : Prop where
  session : ∃ q : State, s.session = Locked.ofState q ∧ Locked.Lawful (Locked.ofState q)
  ledger : ∃ actions, Run (Memory.step N capacity) Free .default actions s.ledger
  tasks : ∀ task ∈ s.tasks, WasRead s.ledger task.receipt ∧ task.Sound s.session

section Ruled

theorem Touched.wasRead (touched : Touched N capacity s task u) (held : WasRead s.ledger receipt) :
    WasRead u.ledger receipt := by
  obtain same | ⟨asked, -, performed⟩ := touched.ledger
  · rw [same]
    exact held
  · rw [performed]
    exact held.perform asked

/-- What was read from the ledger, it was before the next step too. -/
theorem Stepped.wasRead (stepped : Stepped N capacity s t) (held : WasRead s.ledger receipt) :
    WasRead t.ledger receipt := by
  cases stepped with
  | session _ ledger | start _ _ ledger =>
    rw [ledger]
    exact held
  | store _ _ ledger =>
    rw [ledger]
    exact held.perform _
  | task _ touched => exact touched.wasRead held

theorem Ruled.lawful (ruled : Ruled N capacity s) : Locked.Lawful s.session := by
  obtain ⟨q, is, lawful⟩ := ruled.session
  rw [is]
  exact lawful

theorem Ruled.performs (ruled : Ruled N capacity s) (asked : WriteStore.Memory.Action) :
    ∃ actions, Run (Memory.step N capacity) Free .default actions (perform N capacity s.ledger asked) := by
  obtain ⟨actions, run⟩ := ruled.ledger
  exact ⟨_, run.snoc trivial rfl⟩

theorem Ruled.touched (ruled : Ruled N capacity s) (touched : Touched N capacity s task u) :
    ∃ actions, Run (Memory.step N capacity) Free .default actions u.ledger := by
  obtain same | ⟨asked, -, performed⟩ := touched.ledger
  · rw [same]
    exact ruled.ledger
  · rw [performed]
    exact ruled.performs asked

/-- What a task goes on as may rely on what it found. -/
theorem Next.sound (goes : Next session ledger task (some goneOn))
    (lawful : Locked.Lawful session)
    (reached : ∃ actions, Run (Memory.step N capacity) Free .default actions ledger)
    (held : WasRead ledger task.receipt) (sound : task.Sound session) :
    WasRead ledger goneOn.receipt ∧ goneOn.Sound session := by
  obtain ⟨actions, run⟩ := reached
  cases goes with
  | selected holding attached =>
    refine ⟨held, .selected holding ⟨session, List.mem_singleton_self _, lawful.counted _ _ attached,
      .refl _, fun seen member => ?_⟩⟩
    cases List.mem_singleton.mp member
    exact ⟨.refl _, .refl _⟩
  | authorized found revision unsigned =>
    cases sound with
    | selected holds awaits =>
      obtain ⟨body, now⟩ := unsigned
      -- The event is still the one that was read: unsigned it is what it was.
      have before := (held.ages _ found).unsigned revision now
      have same := holds.symm.trans before
      exact ⟨(WasRead.of_run run found).2, .authorized (now.trans same.symm) awaits⟩
  | asked =>
    cases sound with
    | authorized holds awaits => exact ⟨held, .asked holds awaits⟩
  | completed current =>
    cases sound with
    | asked holds awaits => exact ⟨held, .completed holds (awaits.throughout current)⟩
  | refused => exact ⟨held, .refused⟩

theorem Ruled.step (ruled : Ruled N capacity s) (stepped : Stepped N capacity s t) :
    Ruled N capacity t := by
  have held : ∀ task ∈ s.tasks, WasRead t.ledger task.receipt := fun task member =>
    stepped.wasRead (ruled.tasks task member).1
  cases stepped with
  | session called ledger tasks =>
    obtain ⟨q, is, lawful⟩ := ruled.session
    rw [is] at called
    obtain ⟨p, is', lawful', later⟩ := Locked.step_ofState lawful called
    rw [← is, ← is'] at later
    refine ⟨⟨p, is', lawful'⟩, ledger ▸ ruled.ledger, fun task member => ?_⟩
    rw [tasks] at member
    obtain ⟨earlier, old, rfl⟩ := List.mem_map.mp member
    rw [SigningTask.receipt_sees]
    exact ⟨held earlier old, (ruled.tasks earlier old).2.sees later⟩
  | store plain session ledger tasks =>
    refine ⟨session ▸ ruled.session, ledger ▸ ruled.performs _, fun task member => ?_⟩
    rw [tasks] at member
    rw [session]
    exact ⟨held task member, (ruled.tasks task member).2⟩
  | start found session ledger tasks =>
    refine ⟨session ▸ ruled.session, ledger ▸ ruled.ledger, fun task member => ?_⟩
    rw [session, ledger]
    rw [tasks] at member
    obtain old | new := List.mem_append.mp member
    · exact ruled.tasks task old
    · cases List.mem_singleton.mp new
      obtain ⟨actions, run⟩ := ruled.ledger
      exact ⟨(WasRead.of_run run found).2, .started⟩
  | task found touched goes =>
    have reached := ruled.touched touched
    refine ⟨touched.session ▸ ruled.session, reached, ?_⟩
    rw [touched.session]
    have here := List.mem_of_getElem? found
    refine forall_mem_proceed (fun other member => ⟨held other member, (ruled.tasks other member).2⟩)
      found fun goneOn is => ?_
    rw [is] at goes
    exact goes.sound ruled.lawful reached (held _ here) (ruled.tasks _ here).2

theorem ruled_of_run {keys : List PublicKey} {begun : Locked} {actions : List Action}
    (made : Locked.new keys = .ok begun) (run : Run (step N capacity) Free (new begun) actions s) :
    Ruled N capacity s := by
  refine run.invariant (Ruled N capacity) ?_ fun s action t ruled _ stepped =>
    ruled.step (stepped_of_step stepped)
  obtain ⟨q, is, lawful⟩ := Locked.foldlM_attach Locked.empty_lawful made
  exact ⟨⟨q, is, lawful⟩, ⟨[], .nil⟩, fun task member => by cases member⟩

end Ruled

/-- Whatever is called in whatever order, a receipt that gets a signature it did not have gets
it from the signer that was asked for it: of the event the receipt holds in the generation
it is in, and with the attachment that was selected current in every session from then on,
until its answer was taken. -/
theorem signed_by_current_signer {keys : List PublicKey} {begun : Locked} {actions : List Action}
    {r : ReceiptId} {before after : Receipt} {event : Event} (made : Locked.new keys = .ok begun)
    (run : Run (step N capacity) Free (new begun) actions s) (stepped : step N capacity s action = some t)
    (found : s.ledger.writes[r]? = some before) (now : t.ledger.writes[r]? = some after)
    (signed : after.current.event = .signed event) (unsigned : before.current.event ≠ .signed event) :
    ∃ signing : Signing, .completed signing (.ok event) ∈ s.tasks ∧ signing.receipt.receiptId = r ∧
      signing.receipt.current.publication.revisionId = before.current.publication.revisionId ∧
      before.current.event = .unsigned signing.unsigned ∧ signs event signing.unsigned ∧
      N.verify event = .ok () ∧ signing.Throughout := by
  have ruled := ruled_of_run made run
  obtain ⟨history, reached⟩ := ruled.ledger
  have used := (run_coherent reached).used found
  have unchanged : t.ledger ≠ s.ledger := by
    intro same
    rw [same, found] at now
    cases now
    exact unsigned signed
  cases stepped_of_step stepped with
  | session called ledger | start _ _ ledger => exact absurd ledger unchanged
  | store plain session ledger =>
    rw [ledger] at now
    obtain ⟨_, _, _, _, rfl, -⟩ := installed_of_signed found now used signed unsigned
    cases plain
  | task here touched =>
    obtain same | ⟨asked, asks, performed⟩ := touched.ledger
    · exact absurd same unchanged
    · dsimp only at now
      rw [performed] at now
      obtain ⟨writeId, revisionId, eventId, body, rfl, holding, signs, verified, -, -⟩ :=
        installed_of_signed found now used signed unsigned
      cases asks with
      | install =>
        have apart : after ≠ before := fun same => unsigned (same ▸ signed)
        have revision := current_of_installed found now apart
        obtain ⟨held, sound⟩ := ruled.tasks _ (List.mem_of_getElem? here)
        cases sound with
        | completed holds throughout =>
          have same := holds.symm.trans ((held.ages before found).unsigned revision holding)
          refine ⟨_, List.mem_of_getElem? here, rfl, revision.symm, ?_, ?_, verified, throughout⟩
          · rw [holding, same]
          · cases same
            exact signs

/-- An unsigned note, and what its author's signer makes of it. -/
def signedNote : Event := ⟨18, 7, 10, 1, [], "", 0⟩

/-- The note is written and handed to the signer, an account is added, and the signer
answers. -/
def signsNote : List Action :=
  [.store (.accept ⟨.event ⟨some 18, 7, 10, 1, [], ""⟩, .automatic, .unauthenticated⟩), .start 1,
    .select 0 .available, .advance 0, .advance 0, .session (.addAccount 2),
    .complete 0 (.ok signedNote)]

theorem signsNote_by_signer : ∃ begun s t : _, Locked.new [7] = .ok begun ∧
    Run (step plainLibrary 10) Free (new begun) signsNote s ∧
    step plainLibrary 10 s (.advance 0) = some t ∧ ∃ signing : Signing,
      .completed signing (.ok signedNote) ∈ s.tasks ∧ signing.Throughout := by
  let begun : Locked := ⟨ExtTreeSet.insert ∅ 7, ExtTreeMap.insert ∅ 7 1, none, 0, 1⟩
  have made : Locked.new [7] = .ok begun := rfl
  obtain ⟨s, run, checked⟩ := Run.of_any (show (exec (step plainLibrary 10) Free (new begun)
    signsNote).any (fun s => (s.ledger.writes[1]?).any (fun before =>
      !decide (before.current.event = .signed signedNote)) &&
      (step plainLibrary 10 s (.advance 0)).any fun t => (t.ledger.writes[1]?).any fun after =>
        decide (after.current.event = .signed signedNote)) = true by decide +kernel)
  rw [Bool.and_eq_true, Option.any_eq_true, Option.any_eq_true] at checked
  obtain ⟨⟨before, found, unsigned⟩, t, stepped, written⟩ := checked
  obtain ⟨after, now, signed⟩ := (Option.any_eq_true _ _).mp written
  rw [Bool.not_eq_true', decide_eq_false_iff_not] at unsigned
  obtain ⟨signing, asked, -, -, -, -, -, throughout⟩ :=
    signed_by_current_signer made run stepped found now (of_decide_eq_true signed) unsigned
  exact ⟨begun, s, t, made, run, stepped, signing, asked, throughout⟩

/-- Evidence of a completion that came too late: it is of a receipt that was read from the
ledger, as it was then. -/
def Told (ledger : WriteState) (entry : StaleCompletion) : Prop :=
  ∃ (receipt : Receipt) (reason : String), WasRead ledger receipt ∧
    entry = (receipt.receiptId, receipt.writeId, receipt.current.publication.revisionId,
      receipt.current.id, reason)

/-- The newest completions that came too late are kept, and each tells what it was of. -/
structure Evident (s : Signings) : Prop where
  newest : s.stale = s.rejected.rtake staleCompletionCapacity
  told : ∀ entry ∈ s.rejected, Told s.ledger entry

section Evidence

theorem Evidenced.newest (evidenced : Evidenced receipt s u)
    (newest : s.stale = s.rejected.rtake staleCompletionCapacity) :
    u.stale = u.rejected.rtake staleCompletionCapacity := by
  cases evidenced with
  | kept stale rejected => rw [stale, rejected, newest]
  | more reason stale rejected =>
    rw [stale, rejected]
    unfold rejectStaleCompletion
    dsimp only
    rw [newest]
    exact evict_concat 255 s.rejected _

theorem Evidenced.rejected (evidenced : Evidenced receipt s u) : s.rejected <+: u.rejected ∧
    ∀ entry ∈ u.rejected, entry ∈ s.rejected ∨ ∃ reason, entry = (receipt.receiptId, receipt.writeId,
      receipt.current.publication.revisionId, receipt.current.id, reason) := by
  cases evidenced with
  | kept stale rejected =>
    rw [rejected]
    exact ⟨List.prefix_rfl, fun entry => .inl⟩
  | more reason stale rejected =>
    rw [rejected]
    refine ⟨List.prefix_append _ _, fun entry member => ?_⟩
    obtain old | new := List.mem_append.mp member
    · exact .inl old
    · exact .inr ⟨reason, List.mem_singleton.mp new⟩

theorem Evident.step (evident : Evident s) (ruled : Ruled N capacity s) (stepped : Stepped N capacity s t) :
    Evident t ∧ s.rejected <+: t.rejected := by
  have kept : ∀ entry, Told s.ledger entry → Told t.ledger entry := fun entry told => by
    obtain ⟨receipt, reason, held, is⟩ := told
    exact ⟨receipt, reason, stepped.wasRead held, is⟩
  cases stepped with
  | session _ _ _ same | store _ _ _ _ same | start _ _ _ _ same =>
    obtain ⟨stale, rejected⟩ := same
    refine ⟨⟨?_, fun entry member => ?_⟩, ?_⟩
    · rw [stale, rejected]
      exact evident.newest
    · rw [rejected] at member
      exact kept entry (evident.told entry member)
    · exact rejected ▸ List.prefix_rfl
  | task found touched =>
    obtain ⟨grows, told⟩ := touched.evidence.rejected
    refine ⟨⟨touched.evidence.newest evident.newest, fun entry member => ?_⟩, grows⟩
    obtain old | ⟨reason, is⟩ := told entry member
    · exact kept entry (evident.told entry old)
    · exact ⟨_, reason, touched.wasRead (ruled.tasks _ (List.mem_of_getElem? found)).1, is⟩

theorem evident_of_run {actions : List Action} (ruled : Ruled N capacity s) (evident : Evident s)
    (run : Run (step N capacity) Free s actions t) :
    Ruled N capacity t ∧ Evident t ∧ s.rejected <+: t.rejected := by
  refine run.invariant (fun t => Ruled N capacity t ∧ Evident t ∧ s.rejected <+: t.rejected)
    ⟨ruled, evident, List.prefix_rfl⟩ fun t action u held _ stepped => ?_
  obtain ⟨ruled, evident, grows⟩ := held
  have does := stepped_of_step stepped
  obtain ⟨next, more⟩ := evident.step ruled does
  exact ⟨ruled.step does, next, grows.trans more⟩

end Evidence

/-- The answers that came too late are all told of, in order: the newest are kept, and what
is kept of one names the receipt, a generation it had, and the event of that generation. -/
theorem stale_completions_kept {keys : List PublicKey} {begun : Locked} {actions later : List Action}
    (made : Locked.new keys = .ok begun) (run : Run (step N capacity) Free (new begun) actions s)
    (onwards : Run (step N capacity) Free s later t) :
    s.rejected <+: t.rejected ∧ t.stale = t.rejected.rtake staleCompletionCapacity ∧
      ∀ receiptId writeId revisionId eventId reason,
        (receiptId, writeId, revisionId, eventId, reason) ∈ t.rejected →
          writeId = receiptId ∧ receiptId < t.ledger.nextIdentity ∧
            ∀ now : Receipt, t.ledger.writes[receiptId]? = some now →
              revisionId ≤ now.current.publication.revisionId ∧
                (now.current.publication.revisionId = revisionId → now.current.id = eventId) := by
  have start : Evident (new begun) := ⟨(List.rtake_nil _).symm, fun entry member => by cases member⟩
  obtain ⟨ruled, evident, -⟩ := evident_of_run (ruled_of_run made .nil) start run
  obtain ⟨-, final, grows⟩ := evident_of_run ruled evident onwards
  refine ⟨grows, final.newest, fun receiptId writeId revisionId eventId reason member => ?_⟩
  obtain ⟨receipt, _, held, is⟩ := final.told _ member
  cases is
  exact ⟨held.regular.named.1, held.used, fun now found =>
    ⟨(held.ages now found).revision, (held.ages now found).id⟩⟩

/-- The signer is replaced while it signs the note. -/
theorem replaced_signer_told : ∃ begun s t : _, Locked.new [7] = .ok begun ∧
    Run (step plainLibrary 10) Free (new begun) (signsNote.take 5) s ∧
    Run (step plainLibrary 10) Free s [.session (.replaceSigner 7), .complete 0 (.ok signedNote)] t ∧
    t.rejected.length = 1 ∧ t.stale = t.rejected.rtake staleCompletionCapacity := by
  let begun : Locked := ⟨ExtTreeSet.insert ∅ 7, ExtTreeMap.insert ∅ 7 1, none, 0, 1⟩
  have made : Locked.new [7] = .ok begun := rfl
  obtain ⟨s, run, checked⟩ := Run.of_any (show (exec (step plainLibrary 10) Free (new begun)
    (signsNote.take 5)).any (fun s => (exec (step plainLibrary 10) Free s
      [.session (.replaceSigner 7), .complete 0 (.ok signedNote)]).any fun t =>
        decide (t.rejected.length = 1)) = true by decide +kernel)
  obtain ⟨t, onwards, counted⟩ := Run.of_any checked
  exact ⟨begun, s, t, made, run, onwards, of_decide_eq_true counted,
    (stale_completions_kept made run onwards).2.1⟩

section Outdated

variable {asked : WriteStore.Memory.Action} {refusal : String}

/-- Nothing is granted that is asked of the store for a generation that is over. -/
theorem Asks.denied (asks : Asks task asked) (outdated : Outdated ledger task.receipt) :
    perform N capacity ledger asked = ledger := by
  cases asks with
  | install =>
    obtain ⟨error, denied⟩ := outdated.installs
    exact congrArg Prod.snd denied
  | authorize =>
    obtain ⟨error, denied⟩ := outdated.authorizes
    exact congrArg Prod.snd denied
  | retry =>
    obtain ⟨error, denied⟩ := outdated.retries
    exact congrArg Prod.snd denied
  | refuse =>
    obtain ⟨error, denied⟩ := outdated.refuses
    exact congrArg Prod.snd denied

theorem Touched.denied (touched : Touched N capacity s task u) (outdated : Outdated s.ledger task.receipt) :
    u.ledger = s.ledger := by
  obtain same | ⟨asked, asks, performed⟩ := touched.ledger
  · exact same
  · exact performed.trans (asks.denied outdated)

theorem refuse_outdated (outdated : Outdated s.ledger signing.receipt) :
    ∃ reason, s.refuse N signing refusal = s.rejectStaleCompletion signing.receipt reason := by
  obtain ⟨error, denied⟩ := outdated.refuses
  rw [refuse_eq, refuseSigning, denied]
  exact ⟨_, rfl⟩

theorem refuse_of_step (stepped : step N capacity s action = some t) (about : action.about = some index)
    (found : s.tasks[index]? = some (.refused signing refusal)) :
    t.rejected = (s.refuse N signing refusal).rejected := by
  cases action with
  | session | store | start => cases about
  | select | cancel | complete =>
    cases about
    obtain ⟨task, here, done⟩ := Option.bind_eq_some_iff.mp stepped
    rw [found] at here
    cases here
    cases done
  | advance =>
    cases about
    obtain ⟨task, here, done⟩ := Option.bind_eq_some_iff.mp stepped
    rw [found] at here
    cases here
    cases Option.some.inj done
    rfl

theorem Stepped.outdated (stepped : Stepped N capacity s t) (held : WasRead s.ledger receipt)
    (outdated : Outdated s.ledger receipt) : Outdated t.ledger receipt := by
  cases stepped with
  | session _ ledger | start _ _ ledger =>
    rw [ledger]
    exact outdated
  | store _ _ ledger =>
    rw [ledger]
    exact outdated.perform held _
  | task _ touched =>
    dsimp only
    obtain same | ⟨asked, -, performed⟩ := touched.ledger
    · rw [same]
      exact outdated
    · rw [performed]
      exact outdated.perform held asked

theorem outdated_of_run {actions : List Action} (held : WasRead s.ledger receipt)
    (outdated : Outdated s.ledger receipt) (run : Run (step N capacity) Free s actions t) :
    Outdated t.ledger receipt := by
  have both : WasRead t.ledger receipt ∧ Outdated t.ledger receipt := by
    refine run.invariant (fun t => WasRead t.ledger receipt ∧ Outdated t.ledger receipt)
      ⟨held, outdated⟩ fun t action u before _ stepped => ?_
    have does := stepped_of_step stepped
    exact ⟨does.wasRead before.1, does.outdated before.1 before.2⟩
  exact both.2

end Outdated

/-- Once the generation a task works on is over, whatever is called in whatever order no task
changes the ledger for it any more, and an answer that is refused is told of. -/
theorem outdated_answers_told {keys : List PublicKey} {begun : Locked} {actions later : List Action}
    (made : Locked.new keys = .ok begun) (run : Run (step N capacity) Free (new begun) actions s)
    (member : task ∈ s.tasks) (outdated : Outdated s.ledger task.receipt)
    (onwards : Run (step N capacity) Free s later t) (found : t.tasks[index]? = some goneOn)
    (same : goneOn.receipt = task.receipt) (about : action.about = some index)
    (stepped : step N capacity t action = some u) :
    u.ledger = t.ledger ∧ ∀ signing refusal, goneOn = .refused signing refusal →
      ∃ reason, u.rejected = t.rejected ++ [(signing.receipt.receiptId, signing.receipt.writeId,
        signing.receipt.current.publication.revisionId, signing.receipt.current.id, reason)] := by
  have held := ((ruled_of_run made run).tasks task member).1
  have still := same ▸ outdated_of_run held outdated onwards
  refine ⟨?_, fun signing refusal is => ?_⟩
  · obtain ⟨worked, v, next, here, touched, -, rfl⟩ := goes_of_step stepped about
    rw [found] at here
    cases here
    exact touched.denied still
  · cases is
    obtain ⟨reason, told⟩ := refuse_outdated still
    refine ⟨reason, ?_⟩
    rw [refuse_of_step stepped about found, told]
    rfl

/-- The write is cancelled while its signer signs the note. -/
def cancelsNote : List Action := signsNote.take 5 ++ [.store (.cancel 1)]

theorem cancelled_note_told : ∃ begun s t u : _, Locked.new [7] = .ok begun ∧
    Run (step plainLibrary 10) Free (new begun) cancelsNote s ∧
    Run (step plainLibrary 10) Free s [.complete 0 (.ok signedNote), .advance 0] t ∧
    step plainLibrary 10 t (.advance 0) = some u ∧ u.ledger = t.ledger := by
  let begun : Locked := ⟨ExtTreeSet.insert ∅ 7, ExtTreeMap.insert ∅ 7 1, none, 0, 1⟩
  have made : Locked.new [7] = .ok begun := rfl
  obtain ⟨s, run, checked⟩ := Run.of_any (show (exec (step plainLibrary 10) Free (new begun)
    cancelsNote).any (fun s => (s.tasks[0]?).any fun task => decide (task.receipt.receiptId = 1) &&
      (s.ledger.writes[1]?).any (·.isTerminal) && (exec (step plainLibrary 10) Free s
        [.complete 0 (.ok signedNote), .advance 0]).any fun t => (t.tasks[0]?).any fun goneOn =>
          decide (goneOn.receipt = task.receipt) &&
            (step plainLibrary 10 t (.advance 0)).isSome) = true by decide +kernel)
  obtain ⟨task, member, checked⟩ := (Option.any_eq_true _ _).mp checked
  rw [Bool.and_eq_true, Bool.and_eq_true, decide_eq_true_eq, Option.any_eq_true] at checked
  obtain ⟨⟨named, cancelled, found, ended⟩, checked⟩ := checked
  obtain ⟨t, onwards, checked⟩ := Run.of_any checked
  obtain ⟨goneOn, here, checked⟩ := (Option.any_eq_true _ _).mp checked
  rw [Bool.and_eq_true, decide_eq_true_eq, Option.isSome_iff_exists] at checked
  obtain ⟨same, u, stepped⟩ := checked
  have outdated : Outdated s.ledger task.receipt := by
    intro now present
    rw [named, found] at present
    cases present
    exact .inl ended
  exact ⟨begun, s, t, u, made, run, onwards, stepped, (outdated_answers_told made run
    (List.mem_of_getElem? member) outdated onwards here same rfl stepped).1⟩

end Signings

end Fava.Publication
