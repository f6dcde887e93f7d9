import Fava.Observe.CurrentAccount

namespace Fava.Observe.CurrentAccount

open Std Fava.Lib Fava.Nostr Fava.Session Fava.Subscriptions

/-- A step in which a generation may become the one the owner holds. -/
def Action.takesOver : Action → Bool
  | .activate | .confirm => true
  | _ => false

/-- A step in which the loop may send. -/
def Action.sends : Action → Bool
  | .confirm | .deliver => true
  | _ => false

def System.delivered (s : System) : Nat := s.follow.elim 0 (·.delivered)

/-- A snapshot that the loop sent: its revision, the pair it was sent with, the generation
that produced it, the selection whose account that one's query was bound to, the session's
selection at that step, and whether the account was selected anew in between. -/
structure Sent where
  revision : Nat
  selection : Selection
  child : Child
  origin : Selection
  session : Selection
  anew : Bool

/-- The system with what its loop has sent, and the selection from which the query of its
generation was bound. -/
structure Record where
  system : System
  origin : Selection
  anew : Bool
  sent : List Sent

namespace Record

def init : Record := ⟨.init, (none, 0), false, []⟩

/-- What is on record after a step that leads to a state. -/
def after (r : Record) (a : Action) (s : System) : Record :=
  let advanced := decide (r.system.delivered < s.delivered)
  let origin := if a.takesOver && advanced then s.follow.elim r.origin (·.current) else r.origin
  let anew := if a.takesOver && advanced then false else r.anew || r.system.returns a
  { system := s
    origin := origin
    anew := anew
    sent := r.sent ++ if a.sends && advanced then
      s.follow.toList.map fun f =>
        ⟨f.delivered, f.synchronized, f.child, origin, r.system.session.selection, anew⟩
      else [] }

def step (r : Record) (a : Action) : Option Record := (r.system.step a).map (r.after a)

end Record

variable {s s' : System} {a : Action} {r r' : Record} {f g : Follow}

/-- A generation that is not held yet is bound to the account of its snapshot. -/
def Bind : Control → Prop
  | .opened _ selection child | .activated selection child => child.account = selection.1
  | _ => True

/-- What one step does to what the owner holds. -/
inductive Turn (s : System) (a : Action) (s' : System) : Prop
  | kept (same : s'.follow = s.follow) (turns : s.returns a = false)
  | began (selection : Selection) (child : Child) (takes : a = .activate) (idle : s.follow = none)
      (bind : child.account = selection.1) (current : s'.session.selection = selection)
      (holds : s'.follow = some ⟨child, selection, 1, selection⟩)
  | confirmed (f : Follow) (selection : Selection) (child : Child) (takes : a = .confirm)
      (held : s.follow = some f) (bind : child.account = selection.1)
      (current : s.session.selection = selection) (still : s'.session = s.session)
      (holds : s'.follow = some ⟨child, selection, f.delivered + 1, selection⟩)
  | adopted (f : Follow) (takes : a = .read) (held : s.follow = some f)
      (same : s.session.selection.1 = f.current.1) (turns : s.returns a = true)
      (still : s'.session = s.session)
      (holds : s'.follow = some { f with current := (f.current.1, s.session.selection.2) })
  | delivered (f : Follow) (takes : a = .deliver) (held : s.follow = some f)
      (current : s.session.selection = f.current) (still : s'.session = s.session)
      (holds : s'.follow = some { f with delivered := f.delivered + 1, synchronized := f.current })

theorem moves_self : s.session.Moves s.session := .inl rfl

/-- One step moves the session, keeps generations bound and turns what is held. -/
theorem step_turn (bind : Bind s.control) (stepped : s.step a = some s') :
    s.session.Moves s'.session ∧ Bind s'.control ∧ Turn s a s' := by
  cases a with
  | session command =>
    simp only [System.step, Option.map_eq_some_iff] at stepped
    obtain ⟨t, applied, rfl⟩ := stepped
    refine ⟨@Session.State.apply_moves _ _ command ?_, bind, .kept rfl rfl⟩
    cases h : s.session.apply command with
    | error e => simp [h, Except.toOption] at applied
    | ok t' => simpa [h, Except.toOption] using applied
  | registry op =>
    simp only [System.step, Option.ite_none_right_eq_some, Option.map_eq_some_iff] at stepped
    obtain ⟨-, r, -, rfl⟩ := stepped
    exact ⟨moves_self, bind, .kept rfl rfl⟩
  | close =>
    cases stepped
    exact ⟨moves_self, bind, .kept rfl rfl⟩
  | start =>
    simp only [System.step] at stepped
    split at stepped
    · obtain ⟨r, -, rfl⟩ := Option.map_eq_some_iff.mp stepped
      exact ⟨moves_self, trivial, .kept rfl rfl⟩
    · cases stepped
  | takeSnapshot =>
    simp only [System.step] at stepped
    split at stepped
    · cases stepped
      exact ⟨moves_self, trivial, .kept rfl rfl⟩
    · cases stepped
      exact ⟨moves_self, trivial, .kept rfl rfl⟩
    · cases stepped
  | openChild succeeds =>
    simp only [System.step] at stepped
    split at stepped
    · split at stepped
      · split at stepped
        · cases stepped
          exact ⟨moves_self, trivial, .kept rfl rfl⟩
        · cases stepped
          exact ⟨moves_self, rfl, .kept rfl rfl⟩
      · cases stepped
        exact ⟨moves_self, trivial, .kept rfl rfl⟩
    · cases stepped
  | activate =>
    simp only [System.step] at stepped
    split at stepped
    · rename_i n selection child at'
      rw [at'] at bind
      split at stepped
      · rename_i still
        split at stepped
        · split at stepped
          · rename_i idle
            cases stepped
            exact ⟨moves_self, trivial, .began selection child rfl idle bind still rfl⟩
          · rename_i f held
            cases stepped
            exact ⟨moves_self, bind, .kept rfl rfl⟩
        · cases stepped
          exact ⟨moves_self, trivial, .kept rfl rfl⟩
      · cases stepped
        exact ⟨moves_self, trivial, .kept rfl rfl⟩
    · cases stepped
  | confirm =>
    simp only [System.step] at stepped
    split at stepped
    · rename_i selection child f at' held
      rw [at'] at bind
      split at stepped
      · split at stepped
        · rename_i sent
          cases stepped
          exact ⟨moves_self, trivial, .confirmed f selection child rfl held bind sent.1 rfl rfl⟩
        · cases stepped
          exact ⟨moves_self, trivial, .kept rfl rfl⟩
      · cases stepped
        exact ⟨moves_self, trivial, .kept rfl rfl⟩
    · cases stepped
  | poll =>
    simp only [System.step] at stepped
    split at stepped
    · split at stepped
      · cases stepped
        exact ⟨moves_self, trivial, .kept rfl rfl⟩
      · cases stepped
        exact ⟨moves_self, trivial, .kept rfl rfl⟩
    · split at stepped
      · cases stepped
        exact ⟨moves_self, trivial, .kept rfl rfl⟩
      · cases stepped
        exact ⟨moves_self, trivial, .kept rfl rfl⟩
    · cases stepped
  | read =>
    simp only [System.step] at stepped
    split at stepped
    · rename_i f at' held
      split at stepped
      · rename_i same
        cases stepped
        refine ⟨moves_self, trivial, .kept rfl ?_⟩
        simp [System.returns, held, same]
      · rename_i moved
        split at stepped
        · rename_i same
          cases stepped
          refine ⟨moves_self, trivial, .adopted f rfl held same ?_ rfl rfl⟩
          simp [System.returns, held, same, moved]
        · rename_i differs
          cases stepped
          refine ⟨moves_self, trivial, .kept rfl ?_⟩
          simp [System.returns, held, differs]
    · cases stepped
  | deliver =>
    simp only [System.step] at stepped
    split at stepped
    · rename_i f at' held
      split at stepped
      · split at stepped
        · split at stepped
          · rename_i sent
            cases stepped
            exact ⟨moves_self, trivial, .delivered f rfl held sent.1 rfl rfl⟩
          · cases stepped
            exact ⟨moves_self, trivial, .kept rfl rfl⟩
        · cases stepped
          exact ⟨moves_self, trivial, .kept rfl rfl⟩
      · cases stepped
    · cases stepped
  | childEnds =>
    simp only [System.step] at stepped
    split at stepped
    · cases stepped
      exact ⟨moves_self, trivial, .kept rfl rfl⟩
    · cases stepped

/-- What was sent was sent for the selection of the session at that step, by a query bound
to its account. -/
structure Sent.Current (d : Sent) : Prop where
  sent : d.selection = d.session
  bound : d.child.account = d.session.1
  origin : d.origin.1 = d.session.1 ∧ d.origin.2 ≤ d.session.2
  exact : d.anew = false → d.origin = d.session

/-- What the loop holds is bound to the account of its pair, from a selection of it that is
not later. -/
structure Held (origin : Selection) (anew : Bool) (selection : Selection) (f : Follow) : Prop where
  positive : 0 < f.delivered
  bound : f.child.account = f.current.1
  since : origin.1 = f.current.1 ∧ origin.2 ≤ f.current.2
  below : f.current.2 ≤ selection.2
  exact : anew = false → origin = f.current

/-- What is on record fits what the loop holds. -/
structure Record.Inv (r : Record) : Prop where
  bind : Bind r.system.control
  held : ∀ f, r.system.follow = some f → Held r.origin r.anew r.system.session.selection f
  current : ∀ d ∈ r.sent, d.Current
  ascending : r.sent.Pairwise fun d e => d.revision < e.revision
  last : ∀ d ∈ r.sent, 1 < d.revision ∧ d.revision ≤ r.system.delivered

theorem record_init : Record.init.Inv where
  bind := trivial
  held := nofun
  current := nofun
  ascending := .nil
  last := nofun

/-- Nothing is sent where the count of what was delivered stays. -/
theorem after_still (same : s.delivered = r.system.delivered) :
    r.after a s = { r with system := s, anew := r.anew || r.system.returns a } := by
  unfold Record.after
  simp only [same, Nat.lt_irrefl, decide_false, Bool.and_false, Bool.false_eq_true, if_false,
    List.append_nil]

/-- One more is sent, under the next revision. -/
theorem Record.Inv.push (inv : r.Inv) {d : Sent} (current : d.Current) (bind : Bind s.control)
    (counted : d.revision = r.system.delivered + 1) (delivered : s.delivered = d.revision)
    (positive : 0 < r.system.delivered) {origin : Selection} {anew : Bool}
    (held : ∀ f, s.follow = some f → Held origin anew s.session.selection f) :
    Record.Inv ⟨s, origin, anew, r.sent ++ [d]⟩ := by
  refine ⟨bind, held, fun e listed => ?_, ?_, fun e listed => ?_⟩
  · obtain listed | listed := List.mem_append.mp listed
    · exact inv.current e listed
    · rw [List.mem_singleton.mp listed]
      exact current
  · refine List.pairwise_append.mpr ⟨inv.ascending, List.pairwise_singleton _ _, fun e before f now => ?_⟩
    obtain rfl := List.mem_singleton.mp now
    have low := (inv.last e before).2
    omega
  · dsimp only
    rw [delivered]
    obtain listed | listed := List.mem_append.mp listed
    · obtain ⟨high, low⟩ := inv.last e listed
      omega
    · obtain rfl := List.mem_singleton.mp listed
      omega

theorem record_step (inv : r.Inv) (stepped : r.step a = some r') : r'.Inv := by
  obtain ⟨s, taken, rfl⟩ := Option.map_eq_some_iff.mp stepped
  obtain ⟨moves, bind, turn⟩ := step_turn inv.bind taken
  obtain ⟨-, onward, -⟩ := moves_onward moves
  cases turn with
  | kept same turns =>
    have still : s.delivered = r.system.delivered := by
      rw [System.delivered, same, System.delivered]
    rw [after_still still]
    refine ⟨bind, fun f held => ?_, inv.current, inv.ascending, still.symm ▸ inv.last⟩
    have before := inv.held f (same ▸ held)
    refine ⟨before.positive, before.bound, before.since, before.below.trans onward,
      fun fresh => before.exact ?_⟩
    rwa [turns, Bool.or_false] at fresh
  | began selection child takes idle bound current holds =>
    subst takes
    have advanced : r.system.delivered < s.delivered := by
      rw [System.delivered, idle, System.delivered, holds]
      exact Nat.zero_lt_one
    have nothing : r.sent = [] := by
      refine List.eq_nil_iff_forall_not_mem.mpr fun d listed => ?_
      have low := inv.last d listed
      rw [System.delivered, idle] at low
      exact absurd (low.1.trans_le low.2) (by decide)
    have recorded : r.after .activate s = ⟨s, selection, false, r.sent⟩ := by
      simp [Record.after, Action.takesOver, Action.sends, advanced, holds]
    rw [recorded, nothing]
    refine ⟨bind, fun f held => ?_, nofun, .nil, nofun⟩
    rw [holds] at held
    cases held
    exact ⟨Nat.zero_lt_one, bound, ⟨rfl, Nat.le_refl _⟩, current ▸ Nat.le_refl _, fun _ => rfl⟩
  | confirmed f selection child takes held bound current still holds =>
    subst takes
    have before : r.system.delivered = f.delivered := by
      rw [System.delivered, held, Option.elim_some]
    have now : s.delivered = f.delivered + 1 := by
      rw [System.delivered, holds, Option.elim_some]
    have recorded : r.after .confirm s = ⟨s, selection, false, r.sent ++
        [⟨f.delivered + 1, selection, child, selection, r.system.session.selection, false⟩]⟩ := by
      simp [Record.after, Action.takesOver, Action.sends, before, now, holds]
    rw [recorded]
    refine inv.push ⟨current.symm, current ▸ bound, current ▸ ⟨rfl, Nat.le_refl _⟩,
      fun _ => current.symm⟩ bind (before ▸ rfl) now (before ▸ (inv.held f held).positive)
      fun g held => ?_
    rw [holds] at held
    cases held
    exact ⟨Nat.succ_pos _, bound, ⟨rfl, Nat.le_refl _⟩, still ▸ current ▸ Nat.le_refl _, fun _ => rfl⟩
  | adopted f takes held same turns still holds =>
    subst takes
    have unsent : s.delivered = r.system.delivered := by
      rw [System.delivered, holds, System.delivered, held, Option.elim_some, Option.elim_some]
    rw [after_still unsent]
    refine ⟨bind, fun g held' => ?_, inv.current, inv.ascending, unsent.symm ▸ inv.last⟩
    rw [holds] at held'
    cases held'
    have before := inv.held f held
    refine ⟨before.positive, before.bound, ⟨before.since.1, before.since.2.trans before.below⟩,
      still ▸ Nat.le_refl _, fun fresh => ?_⟩
    rw [turns, Bool.or_true] at fresh
    cases fresh
  | delivered f takes held current still holds =>
    subst takes
    have before : r.system.delivered = f.delivered := by
      rw [System.delivered, held, Option.elim_some]
    have now : s.delivered = f.delivered + 1 := by
      rw [System.delivered, holds, Option.elim_some]
    have recorded : r.after .deliver s = ⟨s, r.origin, r.anew, r.sent ++
        [⟨f.delivered + 1, f.current, f.child, r.origin, r.system.session.selection, r.anew⟩]⟩ := by
      simp [Record.after, Action.takesOver, Action.sends, System.returns, before, now, holds]
    rw [recorded]
    have earlier := inv.held f held
    refine inv.push ⟨current.symm, ?_, ?_, ?_⟩ bind (before ▸ rfl) now (before ▸ earlier.positive)
      fun g held' => ?_
    · exact earlier.bound.trans (congrArg Prod.fst current.symm)
    · exact current ▸ earlier.since
    · exact fun fresh => (earlier.exact fresh).trans current.symm
    · rw [holds] at held'
      cases held'
      exact ⟨Nat.succ_pos _, earlier.bound, earlier.since, still ▸ earlier.below, earlier.exact⟩

variable {acts : List Action}

/-- Whatever happens in between, what the loop sends is of the account that is selected at
that step and goes with its selection, under ever larger revisions. Its query was bound from
that very selection unless the account was selected anew since. -/
theorem sent_current (run : Run Record.step Free .init acts r) :
    (∀ d ∈ r.sent, d.Current) ∧ r.sent.Pairwise fun d e => d.revision < e.revision := by
  have inv := run.invariant Record.Inv record_init fun _ _ _ inv _ stepped => record_step inv stepped
  exact ⟨inv.current, inv.ascending⟩

section SelectedAnew

/-- The loop's account is selected anew, and its generation has something new to deliver. -/
def selectAnew : List Action :=
  openFirst ++ [.deliver, .poll, .session (.selectAccount 8), .session (.selectAccount 7), .poll, .read,
    .poll, .deliver]

/-- The loop sends what a query produced that was bound from an earlier selection. -/
theorem sends_after_selected_anew : ∃ acts r, Run Record.step Free .init acts r ∧
    ∃ d ∈ r.sent, d.session = d.selection ∧ d.origin ≠ d.session := by
  obtain ⟨r, run, checked⟩ := Run.of_any (show (exec Record.step Free .init selectAnew).any
    (fun r => r.sent.any fun d => d.session = d.selection && d.origin ≠ d.session) = true by
      decide +kernel)
  simp only [List.any_eq_true, Bool.and_eq_true, decide_eq_true_eq] at checked
  exact ⟨_, r, run, checked⟩

theorem sent_current_selected_anew : ∃ r, Run Record.step Free .init selectAnew r ∧
    r.sent.map (fun d => (d.revision, d.session)) = [(2, some 7, 3), (3, some 7, 5)] ∧
      ∀ d ∈ r.sent, d.Current := by
  obtain ⟨r, run, checked⟩ := Run.of_any (show (exec Record.step Free .init selectAnew).any
    (fun r => r.sent.map (fun d => (d.revision, d.session)) = [(2, some 7, 3), (3, some 7, 5)]) = true by
      decide +kernel)
  exact ⟨r, run, of_decide_eq_true checked, (sent_current run).1⟩

end SelectedAnew

end Fava.Observe.CurrentAccount
