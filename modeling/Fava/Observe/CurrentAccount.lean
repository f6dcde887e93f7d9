import Fava.Observe.Children
import Fava.Session.Accounts

namespace Fava.Observe.CurrentAccount

open Std Fava.Lib Fava.Nostr Fava.Session Fava.Subscriptions

/-- The handle of one concrete generation, with the account its query is bound to. -/
structure Child where
  id : ObservationId
  account : Option PublicKey
deriving DecidableEq

def currentAccountOpenAttempts : Nat := 64

/-- Where the owner of a public observation stands: opening a generation, about to check
one that was made current, or in its loop. -/
inductive Control
  | unopened
  | snapshot (attempts : Nat)
  | bound (attempts : Nat) (selection : Selection)
  | opened (attempts : Nat) (selection : Selection) (child : Child)
  | activated (selection : Selection) (child : Child)
  | polling
  | waiting
  | signalled
  | ended
deriving DecidableEq

/-- What the loop holds, and the pair it last sent on the synchronized channel. -/
structure Follow where
  child : Child
  current : Selection
  delivered : Nat
  synchronized : Selection
deriving DecidableEq

/-- One public observation of the current account. Nothing is followed while its first
generation is being opened. -/
structure System where
  session : Session.State
  registry : Evidence.State
  parent : ObservationId
  seen : Nat
  control : Control
  follow : Option Follow

/-- What can happen next: a session command, what others do to the registry, the
application closes the observation, or its owner takes a step. -/
inductive Action
  | session (command : Session.State.Command)
  | registry (op : Evidence.State.Op)
  | close
  | start
  | takeSnapshot
  | openChild (succeeds : Bool)
  | activate
  | confirm
  | poll
  | read
  | deliver
  | childEnds

namespace System

def init : System := ⟨.empty, .start, 0, 0, .unopened, none⟩

/-- The session has signalled a change the owner has not taken. -/
def pending (s : System) : Bool := s.seen ≠ s.session.revision

/-- Opening a generation failed: the first one takes the observation with it, a later
one ends the loop. -/
def fail (s : System) : System :=
  { s with
    registry := s.registry.withdraw (s.follow.elim s.parent (·.child.id))
    control := .ended }

/-- The transition function; `none` when the action is not enabled. -/
def step (s : System) : Action → Option System
  | .session command => (s.session.apply command).toOption.map fun t => { s with session := t }
  | .registry op =>
    if op.spares s.registry s.parent then (s.registry.apply op).map fun t => { s with registry := t }
    else none
  | .close => some { s with registry := s.registry.withdraw s.parent }
  | .start =>
    match s.control with
    | .unopened => (s.registry.installFor none).map fun t =>
      { s with
        registry := t
        parent := t.next
        seen := s.session.revision
        control := .snapshot currentAccountOpenAttempts }
    | _ => none
  | .takeSnapshot =>
    match s.control with
    | .snapshot (n + 1) => some { s with control := .bound n s.session.selection }
    | .snapshot 0 => some s.fail
    | _ => none
  | .openChild succeeds =>
    match s.control with
    | .bound n selection =>
      if succeeds then
        match s.registry.installFor (some s.parent) with
        | none => some s.fail
        | some t => some { s with
            registry := t, control := .opened n selection ⟨t.next, selection.1⟩ }
      else some s.fail
    | _ => none
  | .activate =>
    match s.control with
    | .opened n selection child =>
      if s.session.selection = selection then
        if s.registry.activates s.parent child.id then
          let activated := { s with registry := s.registry.activateChild s.parent child.id }
          match s.follow with
          | none => some { activated with
              control := .polling, follow := some ⟨child, selection, 1, selection⟩ }
          | some _ => some { activated with control := .activated selection child }
        else some { s with registry := s.registry.withdraw child.id }.fail
      else some { s with registry := s.registry.withdraw child.id, control := .snapshot n }
    | _ => none
  | .confirm =>
    match s.control, s.follow with
    | .activated selection child, some f =>
      if f.delivered < 2 ^ 64 - 1 then
        if s.session.selection = selection ∧ s.registry.publishes s.parent child.id = true then
          some { s with
            registry := s.registry.withdraw f.child.id
            control := .polling
            follow := some ⟨child, selection, f.delivered + 1, selection⟩ }
        else some { s with registry := s.registry.withdraw child.id, control := .polling }
      else some { s with registry := s.registry.withdraw child.id }.fail
    | _, _ => none
  -- The session's signal is polled before the generation's.
  | .poll =>
    match s.control with
    | .polling | .waiting =>
      if s.pending then some { s with seen := s.session.revision, control := .signalled }
      else some { s with control := .waiting }
    | _ => none
  | .read =>
    match s.control, s.follow with
    | .signalled, some f =>
      if s.session.selection.2 = f.current.2 then some { s with control := .polling }
      else if s.session.selection.1 = f.current.1 then
        some { s with
          control := .polling
          follow := some { f with current := (f.current.1, s.session.selection.2) } }
      else some { s with control := .snapshot currentAccountOpenAttempts }
    | _, _ => none
  | .deliver =>
    match s.control, s.follow with
    | .waiting, some f =>
      if s.registry.observations.contains f.child.id then
        if f.delivered < 2 ^ 64 - 1 then
          if s.session.selection = f.current ∧ s.registry.publishes s.parent f.child.id = true then
            some { s with
              control := .polling
              follow := some { f with delivered := f.delivered + 1, synchronized := f.current } }
          else some { s with control := .polling }
        else some s.fail
      else none
    | _, _ => none
  | .childEnds =>
    match s.control with
    | .waiting => some s.fail
    | _ => none

/-- The loop takes up a signal after its own account was selected anew. -/
def returns (s : System) : Action → Bool
  | .read => s.follow.any fun f =>
    s.session.selection.1 = f.current.1 && s.session.selection.2 ≠ f.current.2
  | _ => false

/-- No signal is taken up at which the loop's own account was selected anew, and there
are identifiers left. -/
def Onward (s : System) (a : Action) : Prop :=
  s.returns a = false ∧ s.registry.next < 2 ^ 64 - 1

instance {s : System} {a : Action} : Decidable (s.Onward a) := inferInstanceAs (Decidable (_ ∧ _))

end System

/-- The public observation is still installed. -/
def System.isOpen (s : System) : Prop := (s.registry.head s.parent).isSome = true

/-- What the loop holds is current, for the selection of the session, which it sent. -/
structure Settled (s : System) (f : Follow) : Prop where
  live : s.registry.activeChild s.parent = some f.child.id
  current : f.current = s.session.selection
  sent : f.synchronized = f.current

/-- What the loop holds at each point of its way. While another generation is opened,
the selection has moved on from the one it holds. -/
def Fits (s : System) (f : Follow) : Control → Prop
  | .unopened | .ended => True
  | .snapshot _ | .bound _ _ => f.current.2 < s.session.selection.2
  | .opened _ _ child => f.current.2 < s.session.selection.2 ∧ f.child.id < child.id
  | .activated selection child => f.current.2 < s.session.selection.2 ∧ f.child.id < child.id ∧
      s.registry.activeChild s.parent = some child.id ∧
      (s.session.selection = selection ∨ s.seen < s.session.revision)
  | .polling => (s.seen = s.session.revision → Settled s f) ∧
      (f.current.2 = s.session.selection.2 → Settled s f)
  | .signalled => f.current.2 = s.session.selection.2 → Settled s f
  | .waiting => s.registry.activeChild s.parent = some f.child.id ∧ f.synchronized = f.current ∧
      (s.seen = s.session.revision → f.current = s.session.selection) ∧
      (f.current.2 = s.session.selection.2 → f.current = s.session.selection)

/-- The generation that is being opened is bound to the account of its snapshot. -/
def Bound (s : System) : Control → Prop
  | .opened _ selection child | .activated selection child =>
    child.account = selection.1 ∧ s.parent < child.id ∧ child.id ≤ s.registry.next
  | _ => True

structure Inv (s : System) : Prop where
  kin : s.registry.Kin
  issued : s.parent ≤ s.registry.next
  root : ∀ u, s.registry.ties s.parent = some u → u.publicId = s.parent
  seen : s.seen ≤ s.session.revision
  unopened : s.control = .unopened → s.follow = none
  bound : Bound s s.control
  held : ∀ f, s.follow = some f → (s.parent < f.child.id ∧ f.child.id ≤ s.registry.next) ∧
    f.child.account = f.current.1 ∧ f.current.2 ≤ s.session.selection.2
  fits : s.isOpen → ∀ f, s.follow = some f → Fits s f s.control

variable {s : System} {f : Follow} {t : Session.State} {r : Evidence.State} {c : Control}

theorem init_inv : Inv System.init where
  kin := Evidence.start_kin
  issued := Nat.le_refl _
  root := by simp [System.init, Evidence.State.ties, Evidence.State.start]
  seen := Nat.le_refl _
  unopened _ := rfl
  bound := trivial
  held := nofun
  fits _ := nofun

theorem Settled.moved (moves : s.session.Moves t) (settled : Settled s f)
    (same : f.current.2 = t.selection.2 ∨ s.session.revision = t.revision) :
    Settled { s with session := t } f := by
  obtain rfl | ⟨counted, kept | anew⟩ := moves
  · exact settled
  · exact ⟨settled.live, settled.current.trans kept.symm, settled.sent⟩
  · have below := s.session.selected
    rw [settled.current] at same
    omega

theorem moves_onward (moves : s.session.Moves t) :
    s.session.revision ≤ t.revision ∧ s.session.selection.2 ≤ t.selection.2 ∧
      (s.session.revision = t.revision → t = s.session) := by
  have below := s.session.selected
  obtain rfl | ⟨counted, kept | anew⟩ := moves
  · exact ⟨Nat.le_refl _, Nat.le_refl _, fun _ => rfl⟩
  · exact ⟨by omega, (congrArg Prod.snd kept).ge, by omega⟩
  · exact ⟨by omega, by omega, by omega⟩

theorem Fits.session (moves : s.session.Moves t) (seen : s.seen ≤ s.session.revision)
    (below : f.current.2 ≤ s.session.selection.2) (fits : Fits s f c) :
    Fits { s with session := t } f c := by
  obtain ⟨later, onward, same⟩ := moves_onward moves
  cases c with
  | unopened | ended => trivial
  | snapshot n | bound n selection => exact Nat.lt_of_lt_of_le fits onward
  | opened n selection child => exact ⟨Nat.lt_of_lt_of_le fits.1 onward, fits.2⟩
  | activated selection child =>
    obtain ⟨past, newer, active, current⟩ := fits
    refine ⟨Nat.lt_of_lt_of_le past onward, newer, active, ?_⟩
    obtain rfl | ⟨counted, kept | anew⟩ := moves
    · exact current
    · obtain current | waiting := current
      · exact .inl (kept.trans current)
      · exact .inr (Nat.lt_of_lt_of_le waiting later)
    · refine .inr ?_
      dsimp only
      omega
  | polling =>
    refine ⟨fun taken => ?_, fun anchor => ?_⟩
    · dsimp only at taken
      have still : s.session.revision = t.revision := by omega
      exact (fits.1 (taken.trans still.symm)).moved moves (.inr still)
    · dsimp only at anchor
      exact (fits.2 (by omega)).moved moves (.inl anchor)
  | signalled =>
    intro anchor
    dsimp only at anchor
    exact (fits (by omega)).moved moves (.inl anchor)
  | waiting =>
    obtain ⟨active, sent, quiet, anchored⟩ := fits
    refine ⟨active, sent, fun taken => ?_, fun anchor => ?_⟩
    · dsimp only at taken
      have still : s.session.revision = t.revision := by omega
      exact (quiet (taken.trans still.symm)).trans (congrArg _ (same still).symm)
    · dsimp only at anchor
      have settled : Settled s f := ⟨active, anchored (by omega), sent⟩
      exact (settled.moved moves (.inl anchor)).current

/-- A command of the session. -/
theorem Inv.session (inv : Inv s) (moves : s.session.Moves t) : Inv { s with session := t } := by
  obtain ⟨later, onward, -⟩ := moves_onward moves
  refine ⟨inv.kin, inv.issued, inv.root, inv.seen.trans later, inv.unopened, inv.bound,
    fun f held => ?_, fun live f held => ?_⟩
  · obtain ⟨issued, account, below⟩ := inv.held f held
    exact ⟨issued, account, below.trans onward⟩
  · exact (inv.fits live f held).session moves inv.seen (inv.held f held).2.2

theorem Fits.registry (active : r.activeChild s.parent = s.registry.activeChild s.parent)
    (fits : Fits s f c) : Fits { s with registry := r } f c := by
  have settled : Settled s f → Settled { s with registry := r } f :=
    fun settled => ⟨active.trans settled.live, settled.current, settled.sent⟩
  cases c with
  | unopened | ended | snapshot n | bound n selection | opened n selection child => exact fits
  | activated selection child => exact ⟨fits.1, fits.2.1, active.trans fits.2.2.1, fits.2.2.2⟩
  | polling => exact ⟨settled ∘ fits.1, settled ∘ fits.2⟩
  | signalled => exact settled ∘ fits
  | waiting => exact ⟨active.trans fits.1, fits.2⟩

theorem Bound.registry (next : s.registry.next ≤ r.next) (bound : Bound s c) :
    Bound { s with registry := r } c := by
  cases c with
  | opened n selection child | activated selection child => exact ⟨bound.1, bound.2.1, bound.2.2.trans next⟩
  | _ => trivial

/-- What the registry does without touching the public observation or its generations. -/
theorem Inv.registry (inv : Inv s) (kin : r.Kin) (next : s.registry.next ≤ r.next)
    (same : r.head s.parent = s.registry.head s.parent) : Inv { s with registry := r } := by
  have active : r.activeChild s.parent = s.registry.activeChild s.parent := by
    rw [Evidence.State.activeChild_eq_head, Evidence.State.activeChild_eq_head, same]
  refine ⟨kin, inv.issued.trans next, fun u here => ?_, inv.seen, inv.unopened, ?_, fun f held => ?_,
    fun live f held => ?_⟩
  · have belongs : (r.head s.parent) = some (u.publicId, u.activeChild) := by
      rw [Evidence.State.head, here]
      rfl
    rw [same, Evidence.State.head, Option.map_eq_some_iff] at belongs
    obtain ⟨v, before, eq⟩ := belongs
    rw [← (Prod.mk.inj eq).1]
    exact inv.root v before
  · exact inv.bound.registry next
  · obtain ⟨issued, rest⟩ := inv.held f held
    exact ⟨⟨issued.1, issued.2.trans next⟩, rest⟩
  · rw [System.isOpen] at live
    dsimp only at live
    rw [same] at live
    exact (inv.fits live f held).registry active

/-- Whether the observation is open does not depend on where its owner stands. -/
theorem Inv.ended (inv : Inv s) (id : ObservationId) :
    Inv { s with registry := s.registry.withdraw id, control := .ended } where
  kin := inv.kin.withdraw
  issued := inv.issued.trans Evidence.State.next_withdraw.ge
  root u here := by
    obtain ⟨-, v, before, same⟩ := Evidence.State.owner_withdraw here
    exact same.trans (inv.root v before)
  seen := inv.seen
  unopened := nofun
  bound := trivial
  held f held := by
    obtain ⟨⟨apart, issued⟩, rest⟩ := inv.held f held
    exact ⟨⟨apart, issued.trans Evidence.State.next_withdraw.ge⟩, rest⟩
  fits _ _ _ := trivial

theorem Inv.fail (inv : Inv s) : Inv s.fail := inv.ended _

theorem isOpen_of_withdraw {id : ObservationId}
    (live : ({ s with registry := s.registry.withdraw id } : System).isOpen) : s.isOpen := by
  rw [System.isOpen, Evidence.State.head, Option.isSome_map] at live ⊢
  obtain ⟨u, here⟩ := Option.isSome_iff_exists.mp live
  obtain ⟨-, v, before, -⟩ := Evidence.State.owner_withdraw here
  exact Option.isSome_of_eq_some before

/-- The owner moves on without a change to the registry. -/
theorem Inv.control (inv : Inv s) (opened : c ≠ .unopened) (bound : Bound s c)
    (fits : s.isOpen → ∀ f, s.follow = some f → Fits { s with control := c } f c) :
    Inv { s with control := c } :=
  ⟨inv.kin, inv.issued, inv.root, inv.seen, fun same => (opened same).elim, bound, inv.held, fits⟩

/-- Dropping a generation that is not the current one changes nothing for the loop. -/
theorem Inv.drop {id : ObservationId} (inv : Inv s) (other : s.parent < id)
    (idle : s.isOpen → s.registry.activeChild s.parent ≠ some id) :
    Inv { s with registry := s.registry.withdraw id } := by
  refine inv.registry inv.kin.withdraw Evidence.State.next_withdraw.ge ?_
  rw [Evidence.State.head_withdraw inv.kin inv.root (Nat.ne_of_lt other)]
  cases here : s.registry.head s.parent with
  | none => rfl
  | some h =>
    have differs : h.2 ≠ some id := fun same => by
      refine idle ?_ ?_
      · rw [System.isOpen, here]
        rfl
      · rw [Evidence.State.activeChild_eq_head, here]
        exact same
    rw [Option.map_some, if_neg differs]

theorem Inv.start (inv : Inv s) (room : s.registry.next < 2 ^ 64 - 1) (at' : s.control = .unopened)
    (installed : s.registry.installFor none = some r) :
    Inv { s with
      registry := r, parent := r.next, seen := s.session.revision,
      control := .snapshot currentAccountOpenAttempts } := by
  obtain ⟨-, next, ties⟩ :=
    Evidence.ties_installFor_fresh (inv.kin.fresh room).2 installed
  have idle := inv.unopened at'
  refine ⟨inv.kin.installFor room installed, Nat.le_refl _, fun u here => ?_, Nat.le_refl _, nofun,
    trivial, fun f held => ?_, fun _ f held => ?_⟩
  · dsimp only at here
    rw [ties, next, if_pos rfl] at here
    cases here
    exact next.symm
  · rw [idle] at held
    cases held
  · rw [idle] at held
    cases held

theorem Inv.openChild {n : Nat} {selection : Selection} (inv : Inv s)
    (room : s.registry.next < 2 ^ 64 - 1) (at' : s.control = .bound n selection)
    (installed : s.registry.installFor (some s.parent) = some r) :
    Inv { s with registry := r, control := .opened n selection ⟨r.next, selection.1⟩ } := by
  obtain ⟨above, fresh⟩ := inv.kin.fresh room
  have next := (Evidence.ties_installFor installed).2.1
  have grown : Inv { s with registry := r } := inv.registry (inv.kin.installFor room installed)
    (next ▸ above.le) (Evidence.State.head_installFor inv.kin room installed inv.issued)
  refine grown.control nofun ⟨rfl, ?_, Nat.le_refl _⟩ fun live f held => ?_
  · exact Nat.lt_of_le_of_lt inv.issued (next ▸ above)
  · have fits := grown.fits live f held
    dsimp only at fits
    rw [at'] at fits
    exact ⟨fits, Nat.lt_of_le_of_lt (inv.held f held).1.2 (next ▸ above)⟩

theorem Inv.activate {n : Nat} {selection : Selection} {child : Child} (inv : Inv s)
    (at' : s.control = .opened n selection child) (still : s.session.selection = selection)
    (activates : s.registry.activates s.parent child.id = true) :
    Inv (match s.follow with
      | none => { s with
          registry := s.registry.activateChild s.parent child.id
          control := .polling, follow := some ⟨child, selection, 1, selection⟩ }
      | some _ => { s with
          registry := s.registry.activateChild s.parent child.id
          control := .activated selection child }) := by
  obtain ⟨owner, after, before, was⟩ := Evidence.State.head_activated inv.kin activates
  have kin : (s.registry.activateChild s.parent child.id).Kin := inv.kin.activateChild
  have next : (s.registry.activateChild s.parent child.id).next = s.registry.next :=
    Evidence.State.next_activateChild
  have active : (s.registry.activateChild s.parent child.id).activeChild s.parent = some child.id := by
    rw [Evidence.State.activeChild_eq_head, after]
    rfl
  have root : ∀ u, (s.registry.activateChild s.parent child.id).ties s.parent = some u →
      u.publicId = s.parent := by
    intro u here
    obtain ⟨v, found, eq⟩ := Option.map_eq_some_iff.mp was
    rw [Evidence.State.head, here, Option.map_some, Option.some.injEq] at after
    rw [(Prod.mk.inj after).1, ← (Prod.mk.inj eq).1]
    exact inv.root v found
  have bound := inv.bound
  rw [at'] at bound
  obtain ⟨account, apart, issued⟩ := bound
  cases held : s.follow with
  | none =>
    refine ⟨kin, inv.issued.trans next.ge, root, inv.seen, (fun unopened => by cases unopened), trivial,
      fun f is => ?_, fun _ f is => ?_⟩
    · cases is
      exact ⟨⟨apart, issued.trans next.ge⟩, account, (congrArg Prod.snd still).ge⟩
    · cases is
      exact ⟨fun _ => ⟨active, still.symm, rfl⟩, fun _ => ⟨active, still.symm, rfl⟩⟩
  | some f =>
    refine ⟨kin, inv.issued.trans next.ge, root, inv.seen, (fun unopened => by cases unopened),
      ⟨account, apart, issued.trans next.ge⟩, fun g is => ?_, fun _ g is => ?_⟩
    · obtain ⟨⟨apart, issued⟩, rest⟩ := inv.held g (held.trans is)
      exact ⟨⟨apart, issued.trans next.ge⟩, rest⟩
    · have live : s.isOpen := by
        rw [System.isOpen, was]
        rfl
      have fits := inv.fits live g (held.trans is)
      rw [at'] at fits
      exact ⟨fits.1, fits.2, active, .inl still⟩

/-- The check after the activation: it fails only if a signal is waiting. -/
theorem Inv.confirm {selection : Selection} {child : Child} (inv : Inv s)
    (at' : s.control = .activated selection child) (held : s.follow = some f) :
    Inv (if s.session.selection = selection ∧ s.registry.publishes s.parent child.id = true then
        { s with
          registry := s.registry.withdraw f.child.id
          control := .polling
          follow := some ⟨child, selection, f.delivered + 1, selection⟩ }
      else { s with registry := s.registry.withdraw child.id, control := .polling }) := by
  obtain ⟨⟨apart, issued⟩, -⟩ := inv.held f held
  have bound := inv.bound
  rw [at'] at bound
  obtain ⟨account, apart', issued'⟩ := bound
  have fits : s.isOpen → Fits s f (.activated selection child) := fun live => at' ▸ inv.fits live f held
  split
  · rename_i sent
    have dropped : Inv { s with registry := s.registry.withdraw f.child.id } := by
      refine inv.drop apart fun live same => ?_
      obtain ⟨-, newer, active, -⟩ := fits live
      rw [active, Option.some.injEq] at same
      exact newer.ne same.symm
    refine ⟨dropped.kin, dropped.issued, dropped.root, dropped.seen, nofun, trivial, fun g is => ?_,
      fun still g is => ?_⟩
    · cases is
      exact ⟨⟨apart', issued'.trans Evidence.State.next_withdraw.ge⟩, account,
        (congrArg Prod.snd sent.1).ge⟩
    · cases is
      have fits' := dropped.fits still f held
      dsimp only at fits'
      rw [at'] at fits'
      have settled : Settled { s with
          registry := s.registry.withdraw f.child.id
          control := .polling
          follow := some ⟨child, selection, f.delivered + 1, selection⟩ }
          ⟨child, selection, f.delivered + 1, selection⟩ := ⟨fits'.2.2.1, sent.1.symm, rfl⟩
      exact ⟨fun _ => settled, fun _ => settled⟩
  · rename_i failed
    have dropped := inv.ended child.id
    refine ⟨dropped.kin, dropped.issued, dropped.root, dropped.seen, nofun, trivial, dropped.held,
      fun still g is => ?_⟩
    obtain ⟨past, -, active, current⟩ := fits (isOpen_of_withdraw still)
    obtain rfl : f = g := Option.some.inj (held.symm.trans is)
    refine ⟨fun taken => ?_, fun anchor => (past.ne anchor).elim⟩
    obtain same | waiting := current
    · exact (failed ⟨same, inv.kin.publishes active⟩).elim
    · exact (waiting.ne taken).elim

theorem Inv.poll (inv : Inv s) (at' : s.control = .polling ∨ s.control = .waiting) :
    Inv (if s.pending then { s with seen := s.session.revision, control := .signalled }
      else { s with control := .waiting }) := by
  split
  · refine ⟨inv.kin, inv.issued, inv.root, Nat.le_refl _, nofun, trivial, inv.held,
      fun live f held anchor => ?_⟩
    have fits := inv.fits live f held
    have settled : Settled s f := by
      obtain at' | at' := at'
      · rw [at'] at fits
        exact fits.2 anchor
      · rw [at'] at fits
        obtain ⟨active, sent, -, anchored⟩ := fits
        exact ⟨active, anchored anchor, sent⟩
    exact ⟨settled.live, settled.current, settled.sent⟩
  · rename_i quiet
    have taken : s.seen = s.session.revision := by
      simpa [System.pending] using quiet
    refine inv.control nofun trivial fun live f held => ?_
    have fits := inv.fits live f held
    obtain at' | at' := at'
    · rw [at'] at fits
      obtain ⟨active, current, sent⟩ := fits.1 taken
      exact ⟨active, sent, fun _ => current, fun _ => current⟩
    · rw [at'] at fits
      exact fits

theorem Inv.read (inv : Inv s) (at' : s.control = .signalled) (held : s.follow = some f)
    (onward : s.session.selection.1 = f.current.1 → s.session.selection.2 = f.current.2) :
    Inv (if s.session.selection.2 = f.current.2 then { s with control := .polling }
      else if s.session.selection.1 = f.current.1 then
        { s with
          control := .polling
          follow := some { f with current := (f.current.1, s.session.selection.2) } }
      else { s with control := .snapshot currentAccountOpenAttempts }) := by
  have fits : s.isOpen → Fits s f .signalled := fun live => at' ▸ inv.fits live f held
  split
  · rename_i same
    refine inv.control nofun trivial fun live g is => ?_
    obtain rfl : f = g := Option.some.inj (held.symm.trans is)
    obtain ⟨active, current, sent⟩ := fits live same.symm
    exact ⟨fun _ => ⟨active, current, sent⟩, fun _ => ⟨active, current, sent⟩⟩
  · rename_i moved
    rw [if_neg (mt onward moved)]
    refine inv.control nofun trivial fun live g is => ?_
    obtain rfl : f = g := Option.some.inj (held.symm.trans is)
    exact Nat.lt_of_le_of_ne (inv.held f held).2.2 (Ne.symm moved)

theorem Inv.deliver (inv : Inv s) (at' : s.control = .waiting) (held : s.follow = some f) :
    Inv (if s.session.selection = f.current ∧ s.registry.publishes s.parent f.child.id = true then
        { s with
          control := .polling
          follow := some { f with delivered := f.delivered + 1, synchronized := f.current } }
      else { s with control := .polling }) := by
  have fits : s.isOpen → Fits s f .waiting := fun live => at' ▸ inv.fits live f held
  split
  · refine ⟨inv.kin, inv.issued, inv.root, inv.seen, nofun, trivial, fun g is => ?_,
      fun live g is => ?_⟩
    · cases is
      exact inv.held f held
    · cases is
      obtain ⟨active, -, quiet, anchored⟩ := fits live
      exact ⟨fun taken => ⟨active, quiet taken, rfl⟩, fun anchor => ⟨active, anchored anchor, rfl⟩⟩
  · refine inv.control nofun trivial fun live g is => ?_
    obtain rfl : f = g := Option.some.inj (held.symm.trans is)
    obtain ⟨active, sent, quiet, anchored⟩ := fits live
    exact ⟨fun taken => ⟨active, quiet taken, sent⟩, fun anchor => ⟨active, anchored anchor, sent⟩⟩

/-- A generation that was opened under a selection that has passed is dropped. -/
theorem Inv.retry {n : Nat} {selection : Selection} {child : Child} (inv : Inv s)
    (at' : s.control = .opened n selection child) :
    Inv { s with registry := s.registry.withdraw child.id, control := .snapshot n } := by
  have dropped := inv.ended child.id
  refine ⟨dropped.kin, dropped.issued, dropped.root, dropped.seen, nofun, trivial, dropped.held,
    fun still f held => ?_⟩
  have fits := inv.fits (isOpen_of_withdraw still) f held
  rw [at'] at fits
  exact fits.1

theorem step_inv {a : Action} {s' : System} (inv : Inv s) (onward : s.Onward a)
    (stepped : s.step a = some s') : Inv s' := by
  obtain ⟨ahead, room⟩ := onward
  cases a with
  | session command =>
    simp only [System.step, Option.map_eq_some_iff] at stepped
    obtain ⟨t, applied, rfl⟩ := stepped
    refine inv.session (@Session.State.apply_moves _ _ command ?_)
    cases h : s.session.apply command with
    | error e => simp [h, Except.toOption] at applied
    | ok t' => simpa [h, Except.toOption] using applied
  | registry op =>
    simp only [System.step, Option.ite_none_right_eq_some, Option.map_eq_some_iff] at stepped
    obtain ⟨spares, r, applied, rfl⟩ := stepped
    exact inv.registry (inv.kin.apply room applied)
      (Evidence.State.next_apply applied room inv.kin)
      (Evidence.State.head_apply inv.kin room inv.issued inv.root spares applied)
  | close =>
    cases stepped
    have closed : ¬({ s with registry := s.registry.withdraw s.parent } : System).isOpen := by
      intro live
      rw [System.isOpen, Evidence.State.head, Option.isSome_map] at live
      obtain ⟨u, here⟩ := Option.isSome_iff_exists.mp live
      exact (Evidence.State.owner_withdraw here).1 rfl
    have dropped := inv.ended s.parent
    exact ⟨dropped.kin, dropped.issued, dropped.root, inv.seen, inv.unopened,
      inv.bound.registry Evidence.State.next_withdraw.ge, dropped.held, fun live => (closed live).elim⟩
  | start =>
    simp only [System.step] at stepped
    split at stepped
    · rename_i at'
      obtain ⟨r, installed, rfl⟩ := Option.map_eq_some_iff.mp stepped
      exact inv.start room at' installed
    · cases stepped
  | takeSnapshot =>
    simp only [System.step] at stepped
    split at stepped
    · rename_i n at'
      cases stepped
      refine inv.control (fun unopened => by cases unopened) trivial fun live f held => ?_
      have fits := inv.fits live f held
      rw [at'] at fits
      exact fits
    · cases stepped
      exact inv.fail
    · cases stepped
  | openChild succeeds =>
    simp only [System.step] at stepped
    split at stepped
    · rename_i n selection at'
      split at stepped
      · split at stepped
        · cases stepped
          exact inv.fail
        · rename_i r installed
          cases stepped
          exact inv.openChild room at' installed
      · cases stepped
        exact inv.fail
    · cases stepped
  | activate =>
    simp only [System.step] at stepped
    split at stepped
    · rename_i n selection child at'
      split at stepped
      · rename_i still
        split at stepped
        · rename_i activates
          have activated := inv.activate at' still activates
          split at stepped
          · rename_i idle
            cases stepped
            rw [idle] at activated
            exact activated
          · rename_i f held
            cases stepped
            simpa only [held] using activated
        · cases stepped
          exact (inv.ended child.id).ended _
      · cases stepped
        exact inv.retry at'
    · cases stepped
  | confirm =>
    simp only [System.step] at stepped
    split at stepped
    · rename_i selection child f at' held
      split at stepped
      · have confirmed := inv.confirm at' held
        split at stepped
        · rename_i sent
          cases stepped
          rwa [if_pos sent] at confirmed
        · rename_i failed
          cases stepped
          rwa [if_neg failed] at confirmed
      · cases stepped
        exact (inv.ended child.id).ended _
    · cases stepped
  | poll =>
    simp only [System.step] at stepped
    split at stepped
    · rename_i at'
      have polled := inv.poll (.inl at')
      split at stepped
      · rename_i pending
        cases stepped
        rwa [if_pos pending] at polled
      · rename_i quiet
        cases stepped
        rwa [if_neg quiet] at polled
    · rename_i at'
      have polled := inv.poll (.inr at')
      split at stepped
      · rename_i pending
        cases stepped
        rwa [if_pos pending] at polled
      · rename_i quiet
        cases stepped
        rwa [if_neg quiet] at polled
    · cases stepped
  | read =>
    simp only [System.step] at stepped
    split at stepped
    · rename_i f at' held
      have taken := inv.read at' held fun same => by
        simpa [System.returns, held, same] using ahead
      split at stepped
      · rename_i same
        cases stepped
        rwa [if_pos same] at taken
      · rename_i moved
        rw [if_neg moved] at taken
        split at stepped
        · rename_i same
          cases stepped
          rwa [if_pos same] at taken
        · rename_i differs
          cases stepped
          rwa [if_neg differs] at taken
    · cases stepped
  | deliver =>
    simp only [System.step] at stepped
    split at stepped
    · rename_i f at' held
      split at stepped
      · split at stepped
        · have delivered := inv.deliver at' held
          split at stepped
          · rename_i sent
            cases stepped
            rwa [if_pos sent] at delivered
          · rename_i failed
            cases stepped
            rwa [if_neg failed] at delivered
        · cases stepped
          exact inv.fail
      · cases stepped
    · cases stepped
  | childEnds =>
    simp only [System.step] at stepped
    split at stepped
    · cases stepped
      exact inv.fail
    · cases stepped

variable {acts : List Action}

theorem run_inv (run : Run System.step System.Onward .init acts s) : Inv s :=
  run.invariant Inv init_inv fun _ _ _ inv onward stepped => step_inv inv onward stepped

/-- While the observation is open and its loop waits, the loop holds the installed
current generation, bound to the loop's account; and once no signal is left, the pair it
sent last is the session's. -/
theorem follows_current (run : Run System.step System.Onward .init acts s)
    (held : s.follow = some f) (installed : s.registry.observations.contains s.parent = true) :
    (s.control = .waiting → s.registry.observations.contains f.child.id = true ∧
      (s.registry.observations[s.parent]?).bind Evidence.Installed.activeChild = some f.child.id ∧
      f.child.account = f.current.1) ∧
    (s.control = .polling ∨ s.control = .waiting → s.pending = false →
      f.synchronized = s.session.selection) := by
  have inv := run_inv run
  have live : s.isOpen := by
    rw [System.isOpen, Evidence.State.head, Evidence.State.ties, Option.isSome_map, Option.isSome_map,
      ← ExtTreeMap.mem_iff_isSome_getElem?]
    exact ExtTreeMap.contains_iff_mem.mp installed
  have fits := inv.fits live f held
  constructor
  · intro waits
    rw [waits] at fits
    obtain ⟨-, u, found, -⟩ := inv.kin.current s.parent f.child.id fits.1
    refine ⟨?_, ?_, (inv.held f held).2.1⟩
    · rw [Evidence.State.ties, Option.map_eq_some_iff] at found
      obtain ⟨i, here, -⟩ := found
      rw [ExtTreeMap.contains_iff_mem, ExtTreeMap.mem_iff_isSome_getElem?, here]
      rfl
    · have active := fits.1
      rw [Evidence.State.activeChild, Evidence.State.ties, Option.bind_map] at active
      exact active
  · intro idle quiet
    have taken : s.seen = s.session.revision := by
      simpa [System.pending] using quiet
    obtain at' | at' := idle
    · rw [at'] at fits
      obtain ⟨-, current, sent⟩ := fits.1 taken
      exact sent.trans current
    · rw [at'] at fits
      exact fits.2.1.trans (fits.2.2.1 taken)

section SwitchedBack

/-- Open an observation of the first of two accounts. -/
def openFirst : List Action :=
  [.session (.addAccount 7), .session (.addAccount 8), .session (.selectAccount 7), .start,
    .takeSnapshot, .openChild true, .activate, .poll]

/-- The second account is selected, and the first again before its generation is checked. -/
def switchBack : List Action :=
  openFirst ++ [.session (.selectAccount 8), .poll, .read, .takeSnapshot, .openChild true, .activate,
    .session (.selectAccount 7), .confirm, .poll, .read, .poll]

/-- The loop waits on a generation that was retired, while the observation is open. -/
theorem switched_back_child_retired :
    ∃ acts s, Run System.step Free .init acts s ∧ s.control = .waiting ∧ s.pending = false ∧
      s.registry.observations.contains s.parent = true ∧
      ∃ f, s.follow = some f ∧ s.registry.observations.contains f.child.id = false ∧
        f.synchronized ≠ s.session.selection := by
  obtain ⟨s, run, checked⟩ := Run.of_any (show (exec System.step Free .init switchBack).any
    (fun s => decide (s.control = .waiting ∧ s.pending = false) &&
      s.registry.observations.contains s.parent && s.follow.any fun f =>
        !s.registry.observations.contains f.child.id && f.synchronized ≠ s.session.selection) = true
    by decide +kernel)
  simp only [Bool.and_eq_true, decide_eq_true_eq, Option.any_eq_true, Bool.not_eq_true'] at checked
  obtain ⟨⟨⟨waits, quiet⟩, installed⟩, f, held, retired, differs⟩ := checked
  exact ⟨_, s, run, waits, quiet, installed, f, held, retired, differs⟩

/-- A second account is selected and followed. -/
def switchOnce : List Action :=
  openFirst ++ [.session (.selectAccount 8), .poll, .read, .takeSnapshot, .openChild true, .activate,
    .confirm, .poll]

theorem follows_current_after_switch :
    ∃ s f, Run System.step System.Onward .init switchOnce s ∧ s.follow = some f ∧
      s.registry.observations.contains f.child.id = true ∧ f.child.account = f.current.1 ∧
      f.synchronized = s.session.selection ∧ s.session.selection.1 = some 8 := by
  obtain ⟨s, run, checked⟩ := Run.of_any (show (exec System.step System.Onward .init switchOnce).any
    (fun s => decide (s.control = .waiting ∧ s.pending = false) &&
      s.registry.observations.contains s.parent && s.follow.isSome &&
        s.session.selection.1 = some 8) = true by decide +kernel)
  simp only [Bool.and_eq_true, decide_eq_true_eq] at checked
  obtain ⟨⟨⟨⟨waits, quiet⟩, installed⟩, follows⟩, account⟩ := checked
  obtain ⟨f, held⟩ := Option.isSome_iff_exists.mp follows
  obtain ⟨live, sent⟩ := follows_current run held installed
  exact ⟨s, f, run, held, (live waits).1, (live waits).2.2, sent (.inr waits) quiet, account⟩

end SwitchedBack

end Fava.Observe.CurrentAccount
