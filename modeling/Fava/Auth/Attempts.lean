import Mathlib.Data.List.Perm.Subperm
import Fava.Auth.Progress

namespace Fava.Auth

open Fava.Lib Fava.Relay Fava.Transport Fava.Transport.Driver

def Stage.isSigning : Stage → Bool
  | .signing _ => true
  | _ => false

/-- One answer of `resolve`'s, named by its place and its connection. -/
abbrev Attempt := Nat × RelaySessionIdentity

/-- The authenticator with what it did to the signer: the answers `resolve` sent
to `authenticate`, but for those that ended before the signer was invoked, the
ones of them that were counted, and every invocation. -/
structure Drive where
  owner : Owner
  driven : List Attempt
  counted : List Attempt
  invoked : List Nat

namespace Drive

variable {w v : Drive} {k : Nat} {identity : RelaySessionIdentity}

def attached (session : Session) : Drive := ⟨Auth.attached session, [], [], []⟩

/-- `authenticate` reaches `invoke_signer`, or one step of `Auth.step`. -/
inductive Action
  | invokes (k : Nat)
  | auth (action : Auth.Action)

def drivenAfter (w : Drive) (p : Owner) : Auth.Action → List Attempt
  | .decides k _ =>
    match p.answers[k]? with
    | some x => if x.stage.isSigning then (k, x.demand.session) :: w.driven else w.driven
    | none => w.driven
  | .signs k (.error _) =>
    if k ∈ w.invoked then w.driven else w.driven.filter fun e => e.1 ≠ k
  | _ => w.driven

def countedAfter (w : Drive) : Auth.Action → List Attempt
  | .compares k => (counts w.owner (.compares k)).elim w.counted fun identity =>
      (k, identity) :: w.counted
  | _ => w.counted

/-- A signature needs an invocation; a failure may come before one, when no
signer is attached. -/
def enabled (w : Drive) : Auth.Action → Bool
  | .signs k (.ok _) => k ∈ w.invoked
  | _ => true

def step (w : Drive) : Action → Option Drive
  | .invokes k => do
    let answer ← w.owner.answers[k]?
    if answer.stage.isSigning ∧ k ∉ w.invoked then some { w with invoked := k :: w.invoked }
    else none
  | .auth a =>
    if w.enabled a then
      (Auth.step w.owner a).map fun owner =>
        { w with owner, driven := w.drivenAfter owner a, counted := w.countedAfter a }
    else none

def drivenFor (w : Drive) (identity : RelaySessionIdentity) : List Attempt :=
  w.driven.filter fun e => e.2 = identity

/-- The invocations of the signer `resolve` is behind, on one connection. -/
def signings (w : Drive) (identity : RelaySessionIdentity) : List Nat :=
  w.invoked.filter fun k => (k, identity) ∈ w.driven

/-- `resolve` invoked the signer no more often than one connection may have it do. -/
def Bounded (w : Drive) : Prop := ∀ identity, (w.signings identity).length ≤ maxAttempts

/-- The answer the policy has `resolve` authenticate. -/
def deciding : Action → Option Nat
  | .auth (.decides k (.authenticate _)) => some k
  | _ => none

/-- Every answer driven to the signer on this connection has been counted, and
the count is still kept. -/
def CountKept (w : Drive) (identity : RelaySessionIdentity) : Prop :=
  ∀ e ∈ w.drivenFor identity, e ∈ w.counted ∧ identity = w.owner.session.identity

/-- `resolve` goes on past its check only while its count is right. -/
def Counted (w : Drive) (a : Action) : Prop :=
  ∀ k ∈ deciding a, ∀ x ∈ w.owner.answers[k]?,
    w.owner.spent x.demand.session < maxAttempts → w.CountKept x.demand.session

def countedFor (w : Drive) (identity : RelaySessionIdentity) : List Attempt :=
  w.counted.filter fun e => e.2 = identity

/-- The answers driven to the signer are told apart and counted against the
connection that is still there. -/
structure Tallied (w : Drive) : Prop where
  past : Past w.owner
  once : (w.driven.map Prod.fst).Nodup
  decided : ∀ e ∈ w.driven, ∃ x, w.owner.answers[e.1]? = some x ∧ x.stage ≠ .asked
  invoked : w.invoked.Nodup
  bound : ∀ identity, (w.drivenFor identity).length ≤ maxAttempts
  kept : ∀ e ∈ w.counted, e.2.connection ≤ w.owner.session.generation
  tallied : w.owner.spent w.owner.session.identity < 2 ^ 32 - 1 →
    (w.countedFor w.owner.session.identity).length ≤ w.owner.spent w.owner.session.identity

theorem attached_tallied (relay maxFrameBytes outboundFrames reconnectAttempts generation) :
    Tallied (attached
      (opened relay maxFrameBytes outboundFrames reconnectAttempts generation)) where
  past := attached_past ..
  once := .nil
  decided := by simp [attached]
  invoked := .nil
  bound identity := Nat.zero_le _
  kept := by simp [attached]
  tallied _ := Nat.zero_le _

theorem Tallied.bounded (inv : Tallied w) : Bounded w := by
  intro identity
  have once : ((w.signings identity).map fun k => (k, identity)).Nodup :=
    (inv.invoked.filter _).map fun _ _ same => (Prod.mk.inj same).1
  have driven : ((w.signings identity).map fun k => (k, identity)) ⊆ w.drivenFor identity := by
    intro e member
    obtain ⟨k, signing, rfl⟩ := List.mem_map.mp member
    simp only [signings, List.mem_filter, decide_eq_true_eq] at signing
    simp [drivenFor, signing.2]
  calc (w.signings identity).length
      = ((w.signings identity).map fun k => (k, identity)).length := by rw [List.length_map]
    _ ≤ (w.drivenFor identity).length := (List.subperm_of_subset once driven).length_le
    _ ≤ maxAttempts := inv.bound identity

/-- An answer past its decision stays so. -/
theorem decided_step {o p : Owner} {a : Auth.Action} {i : Nat} {x : Answer}
    (stepped : Auth.step o a = some p) (found : o.answers[i]? = some x)
    (decided : x.stage ≠ .asked) : ∃ y, p.answers[i]? = some y ∧ y.stage ≠ .asked := by
  obtain ⟨action, rfl, moved, rest⟩ | ⟨people, added, -, -, -, -, -, rfl⟩ |
    ⟨k, z, y, carries⟩ := step_cases stepped
  · rw [rest]
    exact ⟨x, found, decided⟩
  · have within := (List.getElem?_eq_some_iff.mp found).1
    exact ⟨x, by rw [List.getElem?_append_left within, found], decided⟩
  · rw [carries.answers]
    by_cases same : k = i
    · subst same
      have within := (List.getElem?_eq_some_iff.mp carries.found).1
      exact ⟨y, List.getElem?_set_self within, carries.stage⟩
    · exact ⟨x, by rw [List.getElem?_set_ne same, found], decided⟩

/-- `resolve` drives an answer to the signer only below the bound. -/
theorem decides_signing {o p : Owner} {decision : Decision} {y : Answer}
    (stepped : Auth.step o (.decides k decision) = some p) (found : p.answers[k]? = some y)
    (signing : y.stage.isSigning = true) :
    ∃ asOf x, decision = .authenticate asOf ∧ o.answers[k]? = some x ∧ x.stage = .asked ∧
      y.demand = x.demand ∧ o.spent x.demand.session < maxAttempts := by
  simp only [Auth.step, Option.bind_eq_bind, Option.bind_eq_some_iff] at stepped
  obtain ⟨x, before, stepped⟩ := stepped
  split at stepped <;> cases stepped
  rename_i asked
  have within := (List.getElem?_eq_some_iff.mp before).1
  rw [Owner.put, List.getElem?_set_self within] at found
  cases found
  unfold resolved at signing
  split at signing
  · simp [unanswerable, Stage.isSigning] at signing
  · rename_i below
    cases decision with
    | authenticate asOf => exact ⟨asOf, x, rfl, before, asked, rfl, Nat.lt_of_not_le below⟩
    | decline | defer => simp [Fava.Auth.decided, Stage.isSigning] at signing

theorem drivenAfter_cases {p : Owner} (a : Auth.Action) :
    (w.drivenAfter p a).Sublist w.driven ∨
    ∃ k decision y, a = .decides k decision ∧ p.answers[k]? = some y ∧ y.stage.isSigning = true ∧
      w.drivenAfter p a = (k, y.demand.session) :: w.driven := by
  unfold drivenAfter
  split
  · rename_i k decision
    split
    · rename_i y found
      split
      · rename_i signing
        exact .inr ⟨k, decision, y, rfl, found, signing, rfl⟩
      · exact .inl (.refl _)
    · exact .inl (.refl _)
  · split
    · exact .inl (.refl _)
    · exact .inl List.filter_sublist
  · exact .inl (.refl _)

theorem step_spent {o p : Owner} {a : Auth.Action} (stepped : Auth.step o a = some p) :
    p.attempts = (counts o a).elim o.attempts o.spend := by
  obtain ⟨action, rfl, moved, rest⟩ | ⟨people, added, -, -, -, -, uncounted, rfl⟩ |
    ⟨k, z, y, carries⟩ := step_cases stepped
  · rw [rest]
    rfl
  · rw [uncounted]
    rfl
  · exact carries.attempts

theorem counts_identity {o : Owner} {a : Auth.Action} (counted : counts o a = some identity) :
    (∃ k, a = .compares k) ∧ identity = o.session.identity := by
  unfold counts at counted
  split at counted
  · rename_i k
    simp only [Option.bind_eq_bind, Option.bind_eq_some_iff] at counted
    obtain ⟨x, -, counted⟩ := counted
    split at counted
    · split at counted <;> cases counted
      exact ⟨⟨k, rfl⟩, rfl⟩
    · cases counted
  · cases counted

/-- Below the bound there is room for one more: the answers already driven were
all counted, and the count is below it. -/
theorem Tallied.room (inv : Tallied w) (below : w.owner.spent identity < maxAttempts)
    (counted : w.CountKept identity) : (w.drivenFor identity).length < maxAttempts := by
  cases driven : w.drivenFor identity with
  | nil => simp [maxAttempts]
  | cons first rest =>
    obtain ⟨-, rfl⟩ := counted first (by rw [driven]; exact List.mem_cons_self)
    rw [← driven]
    have once : (w.drivenFor w.owner.session.identity).Nodup := inv.once.of_map.filter _
    have within : w.drivenFor w.owner.session.identity ⊆
        w.countedFor w.owner.session.identity := by
      intro e member
      refine List.mem_filter.mpr ⟨(counted e member).1, ?_⟩
      exact (List.mem_filter.mp member).2
    calc (w.drivenFor w.owner.session.identity).length
        ≤ (w.countedFor w.owner.session.identity).length :=
          (List.subperm_of_subset once within).length_le
      _ ≤ w.owner.spent w.owner.session.identity :=
          inv.tallied (below.trans (by simp [maxAttempts]))
      _ < maxAttempts := below

theorem invokes_tallied (inv : Tallied w) (stepped : step w (.invokes k) = some v) :
    Tallied v := by
  simp only [step, Option.bind_eq_bind, Option.bind_eq_some_iff] at stepped
  obtain ⟨x, -, stepped⟩ := stepped
  split at stepped <;> cases stepped
  rename_i fresh
  exact ⟨inv.past, inv.once, inv.decided, List.nodup_cons.mpr ⟨fresh.2, inv.invoked⟩, inv.bound,
    inv.kept, inv.tallied⟩

theorem spent_spend {o p : Owner} (spent : p.attempts = o.spend identity) :
    p.spent identity = min (o.spent identity + 1) (2 ^ 32 - 1) := by
  rw [Owner.spent, spent]
  simp [Owner.spend]

/-- The session stays on its connection, or goes on to a later one. -/
theorem step_later {o p : Owner} {a : Auth.Action} (past : Past o)
    (stepped : Auth.step o a = some p) : p.session.identity = o.session.identity ∨
      o.session.generation < p.session.generation ∧ counts o a = none := by
  obtain ⟨action, rfl, moved, rest⟩ | ⟨people, added, -, -, -, -, -, rfl⟩ |
    ⟨k, z, y, carries⟩ := step_cases stepped
  · by_cases advances : action = .advances
    · subst advances
      exact .inr ⟨advances_generation past.minted moved, rfl⟩
    · exact .inl (session_identity moved advances)
  · exact .inl rfl
  · exact .inl carries.identity.1

theorem spent_congr {o p : Owner} (attempts : p.attempts = o.attempts) :
    p.spent identity = o.spent identity := by
  rw [Owner.spent, attempts, Owner.spent]

/-- The count of the connection that is there keeps up with what was counted. -/
theorem tallied_step {p : Owner} {a : Auth.Action} (inv : Tallied w)
    (stepped : Auth.step w.owner a = some p) :
    (∀ e ∈ w.countedAfter a, e.2.connection ≤ p.session.generation) ∧
    (p.spent p.session.identity < 2 ^ 32 - 1 →
      ((w.countedAfter a).filter fun e => e.2 = p.session.identity).length ≤
        p.spent p.session.identity) := by
  have spent := step_spent stepped
  cases counts : counts w.owner a with
  | some identity =>
    obtain ⟨⟨k, rfl⟩, rfl⟩ := counts_identity counts
    rw [counts, Option.elim_some] at spent
    obtain same | ⟨-, none⟩ := step_later inv.past stepped
    · have generation : p.session.generation = w.owner.session.generation :=
        congrArg RelaySessionIdentity.connection same
      have after : w.countedAfter (.compares k) =
          (k, w.owner.session.identity) :: w.counted := by simp [countedAfter, counts]
      rw [after, same, generation]
      refine ⟨fun e member => ?_, fun below => ?_⟩
      · obtain rfl | earlier := List.mem_cons.mp member
        · exact Nat.le_refl _
        · exact inv.kept e earlier
      · have more : p.spent w.owner.session.identity =
            min (w.owner.spent w.owner.session.identity + 1) (2 ^ 32 - 1) := spent_spend spent
        have tallied := inv.tallied
        simp only [countedFor] at tallied
        simp only [List.filter_cons, decide_true, if_true, List.length_cons]
        omega
    · rw [counts] at none
      cases none
  | none =>
    rw [counts, Option.elim_none] at spent
    have after : w.countedAfter a = w.counted := by
      unfold countedAfter
      split
      · rw [counts, Option.elim_none]
      · rfl
    rw [after, spent_congr spent]
    obtain same | ⟨later, -⟩ := step_later inv.past stepped
    · have generation : p.session.generation = w.owner.session.generation :=
        congrArg RelaySessionIdentity.connection same
      rw [same, generation]
      exact ⟨inv.kept, inv.tallied⟩
    · refine ⟨fun e member => (inv.kept e member).trans later.le, fun _ => ?_⟩
      have gone : (w.counted.filter fun e => e.2 = p.session.identity) = [] := by
        rw [List.filter_eq_nil_iff]
        intro e member same
        have kept := inv.kept e member
        rw [of_decide_eq_true same] at kept
        exact absurd kept (Nat.not_le_of_lt later)
      rw [gone]
      exact Nat.zero_le _

theorem auth_tallied {p : Owner} {a : Auth.Action} (inv : Tallied w)
    (counted : Counted w (.auth a)) (stepped : Auth.step w.owner a = some p) :
    Tallied { w with owner := p, driven := w.drivenAfter p a, counted := w.countedAfter a } := by
  obtain ⟨kept, tallied⟩ := tallied_step inv stepped
  obtain fewer | ⟨k, decision, y, rfl, found, signing, driven⟩ :=
    drivenAfter_cases (w := w) (p := p) a
  · refine ⟨step_past inv.past stepped, inv.once.sublist (fewer.map _), fun e member => ?_,
      inv.invoked, fun identity => ?_, kept, tallied⟩
    · obtain ⟨x, found, decided⟩ := inv.decided e (fewer.subset member)
      exact decided_step stepped found decided
    · exact ((fewer.filter _).length_le).trans (inv.bound identity)
  · obtain ⟨asOf, x, rfl, before, asked, demand, below⟩ := decides_signing stepped found signing
    have fresh : k ∉ w.driven.map Prod.fst := by
      intro member
      obtain ⟨e, earlier, rfl⟩ := List.mem_map.mp member
      obtain ⟨z, found, decided⟩ := inv.decided e earlier
      rw [before] at found
      cases found
      exact decided asked
    refine ⟨step_past inv.past stepped, ?_, fun e member => ?_, inv.invoked, fun identity => ?_,
      kept, tallied⟩
    · rw [driven]
      exact List.nodup_cons.mpr ⟨fresh, inv.once⟩
    · rw [driven] at member
      obtain rfl | earlier := List.mem_cons.mp member
      · refine ⟨y, found, fun same => ?_⟩
        rw [same] at signing
        cases signing
      · obtain ⟨x, found, decided⟩ := inv.decided e earlier
        exact decided_step stepped found decided
    · simp only [drivenFor, driven, List.filter_cons]
      split
      · rename_i same
        have room := inv.room below (counted k rfl x before below)
        rw [← demand, show y.demand.session = identity by simpa using same] at room
        exact room
      · exact inv.bound identity

theorem step_tallied {a : Action} (inv : Tallied w) (counted : Counted w a)
    (stepped : step w a = some v) : Tallied v := by
  cases a with
  | invokes k => exact invokes_tallied inv stepped
  | auth a =>
    simp only [step, Option.ite_none_right_eq_some, Option.map_eq_some_iff] at stepped
    obtain ⟨-, p, stepped, rfl⟩ := stepped
    exact auth_tallied inv counted stepped

/-- Along every run in which `resolve` goes on only with everything before it
counted, it invokes the signer within the bound, on every connection. -/
theorem signings_bounded {relay maxFrameBytes outboundFrames reconnectAttempts generation}
    {as : List Action}
    (run : Run step Counted (attached
      (opened relay maxFrameBytes outboundFrames reconnectAttempts generation)) as w) :
    Bounded w :=
  (run.invariant Tallied (attached_tallied ..)
    fun _ _ _ inv counted stepped => step_tallied inv counted stepped).bounded

instance (w : Drive) (identity : RelaySessionIdentity) : Decidable (w.CountKept identity) :=
  inferInstanceAs (Decidable (∀ e ∈ w.drivenFor identity, _ ∧ _))

instance (w : Drive) (a : Action) : Decidable (Counted w a) :=
  inferInstanceAs (Decidable (∀ k ∈ deciding a, ∀ x ∈ w.owner.answers[k]?, _ → _))

def answered : List Action :=
  (demanded "first").map .auth ++ [.invokes 0] ++ signedAndSent.map .auth ++
    [.auth (.compares 0), .auth (.writes 0)]

theorem signings_bounded_of_two :
    ∃ as w, Run step Counted (attached (opened "wss://relay" 64 4 none 1)) as w ∧
      w.signings ⟨"wss://relay", 1⟩ = [1, 0] ∧ Bounded w := by
  have run : Run step Counted (attached (opened "wss://relay" 64 4 none 1))
      (answered ++ [.auth (.session (.challenge "second")), .auth .asked,
        .auth (.decides 1 (.authenticate 7)), .invokes 1]) _ := Run.of_exec rfl
  exact ⟨_, _, run, by decide, signings_bounded run⟩

/-- The relay asks once more, and the signer refuses. -/
def round (k : Nat) : List Action :=
  [.auth (.session (.challenge (String.ofList (List.replicate (k + 1) 'c')))), .auth .asked,
   .auth (.decides k (.authenticate 7)), .invokes k, .auth (.signs k (.error "refused")),
   .auth (.compares k), .auth (.writes k)]

/-- A refusal is not counted: the relay asks nine times and the signer is
invoked nine times. -/
theorem signings_unbounded :
    ∃ as w, Run step Free (attached (opened "wss://relay" 64 4 none 1)) as w ∧ ¬ Bounded w := by
  refine ⟨(List.range 9).flatMap round, _, Run.of_exec rfl, fun bounded => ?_⟩
  exact absurd (bounded ⟨"wss://relay", 1⟩) (by decide)

end Drive

end Fava.Auth
