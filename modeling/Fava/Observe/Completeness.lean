import Fava.Observe.Sound
import Fava.Observe.Traffic

namespace Fava.Observe

open Std Fava.Lib Fava.Nostr Fava.Relay Fava.Subscriptions

/-- The plan that opened the subscription says that an end of stored events proves its
window complete, and so does the last plan that retained it. -/
def Handle.proves (x : Handle) : Bool :=
  x.planned.completeness = .proven &&
    x.replanned.all fun constraints => completeness x.planned.filters constraints = .proven

/-- The last plan that retained the subscription says that an end of stored events
proves nothing. -/
def Handle.refuted (x : Handle) : Bool :=
  x.replanned.any fun constraints => completeness x.planned.filters constraints ≠ .proven

/-- An end of stored events is processed only of a subscription that was opened as
proven, or of which a later plan says that it is not. -/
def EndsPlanned (e : Engine) (a : Action) : Prop :=
  ∀ c ∈ e.carrying a, c.2.2 matches .endOfStoredEvents → ∀ x ∈ e.handles, x.token = c.2.1 →
    x.planned.completeness = .proven ∨ x.refuted = true

/-- Demand joins a subscription whose stored replay has ended only if that
subscription's plans say proven. -/
def JoinsPlanned (e : Engine) (a : Action) : Prop :=
  ∀ slot ∈ e.visiting a, ∀ s ∈ e.slot slot.1 slot.2, ∀ d ∈ e.demandForSlot slot.1 slot.2,
    ∀ id ∈ Holding.joins s.installed d, s.settled[id]? = some true →
      ∀ x ∈ e.handles, x.token = ⟨slot.2, id⟩ → x.proves = true

def Planned (e : Engine) (a : Action) : Prop := EndsPlanned e a ∧ JoinsPlanned e a

instance (e : Engine) (a : Action) : Decidable (Planned e a) :=
  inferInstanceAs (Decidable ((∀ c ∈ e.carrying a, c.2.2 matches .endOfStoredEvents →
    ∀ x ∈ e.handles, x.token = c.2.1 → x.planned.completeness = .proven ∨ x.refuted = true) ∧
    ∀ slot ∈ e.visiting a, ∀ s ∈ e.slot slot.1 slot.2, ∀ d ∈ e.demandForSlot slot.1 slot.2,
      ∀ id ∈ Holding.joins s.installed d, s.settled[id]? = some true →
        ∀ x ∈ e.handles, x.token = ⟨slot.2, id⟩ → x.proves = true))

def Claim.token (c : Claim) : Token := ⟨c.generation, c.subscription⟩

theorem completeness_eq_proven {filters : List Filter} {constraints : RelayReadConstraints} :
    completeness filters constraints = .proven ↔
      (∀ f ∈ filters, f.limit = none) ∧ constraints.defaultFilterLimit = none := by
  unfold completeness
  by_cases limited : (filters.any fun filter => filter.limit.isSome) = true
  · rw [if_pos limited]
    obtain ⟨f, hf, some⟩ := List.any_eq_true.mp limited
    constructor
    · rintro ⟨⟩
    · rintro ⟨unlimited, -⟩
      rw [unlimited f hf] at some
      cases some
  · rw [if_neg limited]
    have unlimited : ∀ f ∈ filters, f.limit = none := by
      intro f hf
      rw [← Option.not_isSome_iff_eq_none]
      exact fun some => limited (List.any_eq_true.mpr ⟨f, hf, some⟩)
    cases constraints.defaultFilterLimit with
    | none => exact ⟨fun _ => ⟨unlimited, rfl⟩, fun _ => rfl⟩
    | some n => simp

/-- Whatever is open was planned with what its filters and some limits give. -/
structure Stated (c : Core) : Prop where
  handles : ∀ x ∈ c.handles, ∃ k, x.planned.completeness = completeness x.planned.filters k
  plans : ∀ p ∈ c.plans, ∀ q ∈ p.plan.opens, ∃ k, q.completeness = completeness q.filters k

variable {G : Core → Round → Prop} {c c' : Core}

theorem Stated.map {f : Handle → Handle} (marks : Marks f) (stated : Stated c) :
    ∀ x ∈ c.handles.map f, ∃ k, x.planned.completeness = completeness x.planned.filters k := by
  intro x hx
  obtain ⟨y, hy, rfl⟩ := List.mem_map.mp hx
  rw [marks.planned]
  exact stated.handles y hy

theorem Effect.stated (effect : Effect G c c') (stated : Stated c) : Stated c' := by
  obtain ⟨handles, plans⟩ := stated
  cases effect with
  | shuffle same => exact ⟨handles, fun p hp => plans p (same.mem_iff.mp hp)⟩
  | release | issue | establish | advance | attach | revise => exact ⟨handles, plans⟩
  | retain => exact ⟨Stated.map Sound.replanOne_marks ⟨handles, plans⟩, plans⟩
  | install _ _ lawful added =>
    refine ⟨Stated.map Sound.replanOne_marks ⟨handles, plans⟩, fun p hp => ?_⟩
    obtain rfl | old := List.mem_cons.mp (added.mem_iff.mp hp)
    · exact fun q hq => ⟨_, lawful.opened q hq⟩
    · exact plans p old
  | @deny _ rest doing _ took onto =>
    refine ⟨handles, fun p hp => ?_⟩
    obtain rfl | old := List.mem_cons.mp (onto.mem_iff.mp hp)
    · exact plans doing (took.mem_iff.mpr List.mem_cons_self)
    · exact plans p (took.mem_iff.mpr (by simp [old]))
  | @subscribe _ rest doing _ _ next _ took onto =>
    refine ⟨fun x hx => ?_, fun p hp => ?_⟩
    · obtain old | new := List.mem_append.mp hx
      · exact handles x old
      · rw [List.mem_singleton.mp new]
        exact plans doing (took.mem_iff.mpr List.mem_cons_self) _ (List.mem_of_getElem? next)
    · obtain rfl | old := List.mem_cons.mp (onto.mem_iff.mp hp)
      · exact plans doing (took.mem_iff.mpr List.mem_cons_self)
      · exact plans p (took.mem_iff.mpr (by simp [old]))
  | discard took _ => exact ⟨handles, fun p hp => plans p (took.mem_iff.mpr (by simp [hp]))⟩
  | accept took _ _ _ =>
    refine ⟨?_, fun p hp => plans p (took.mem_iff.mpr (by simp [hp]))⟩
    rw [Sound.accept_eq]
    exact Stated.map Sound.acceptOne_marks ⟨handles, plans⟩

theorem Effects.stated (effects : Effects G c c') (stated : Stated c) : Stated c' := by
  induction effects with
  | refl => exact stated
  | tail _ effect ih => exact effect.stated ih

/-- How a subscription was planned is never forgotten. -/
theorem Effect.opened (effect : Effect G c c') {x : Handle} (hx : x ∈ c.handles) :
    ∃ y ∈ c'.handles, y.token = x.token ∧ y.relay = x.relay ∧ y.planned = x.planned := by
  have mapped : ∀ {f : Handle → Handle}, Marks f → ∃ y ∈ c.handles.map f,
      y.token = x.token ∧ y.relay = x.relay ∧ y.planned = x.planned := fun {f} marks =>
    ⟨f x, List.mem_map.mpr ⟨x, hx, rfl⟩, marks.token x, marks.relay x, marks.planned x⟩
  cases effect with
  | shuffle | release | issue | establish | advance | attach | revise | deny | discard =>
    exact ⟨x, hx, rfl, rfl, rfl⟩
  | retain | install => exact mapped Sound.replanOne_marks
  | subscribe => exact ⟨x, List.mem_append_left _ hx, rfl, rfl, rfl⟩
  | accept =>
    rw [Sound.accept_eq]
    exact mapped Sound.acceptOne_marks

theorem Effects.opened (effects : Effects G c c') {x : Handle} (hx : x ∈ c.handles) :
    ∃ y ∈ c'.handles, y.token = x.token ∧ y.relay = x.relay ∧ y.planned = x.planned := by
  induction effects with
  | refl => exact ⟨x, hx, rfl, rfl, rfl⟩
  | tail _ effect ih =>
    obtain ⟨y, hy, token, relay, planned⟩ := ih
    obtain ⟨z, hz, token', relay', planned'⟩ := effect.opened hy
    exact ⟨z, hz, token'.trans token, relay'.trans relay, planned'.trans planned⟩

namespace Engine

variable {P : Providers} {e : Engine} {relay : RelayUrl} {generation : Round} {id : SubscriptionId}

/-- A claim that a plan stands behind. -/
def Backed (e : Engine) (c : Claim) : Prop := ∃ x ∈ e.handles, x.token = c.token ∧ x.proves = true

/-- The recorded completeness of a running subscription is what the last plan that
retained it says, so a claim contradicts no plan but the first. -/
theorem proves_of_end (sound : Sound e.core) {s : Slot} (found : e.slot relay generation = some s)
    {entry : InstalledSubscription} (here : s.installed[id]? = some entry)
    (proven : s.provesCompleteness id = .proven)
    (planned : ∀ x ∈ e.handles, x.token = ⟨generation, id⟩ →
      x.planned.completeness = .proven ∨ x.refuted = true) :
    ∃ x ∈ e.handles, x.token = ⟨generation, id⟩ ∧ x.proves = true := by
  obtain ⟨-, rfl, -, before, after, split, -⟩ := slots_split found
  have there : s.toHolding ∈ e.core.holdings := by
    rw [core, split]
    simp
  have held := sound.holdings _ there
  obtain ⟨-, x, hx, token, -, -⟩ := held.running id entry here
  have same : x.id = id := congrArg Token.subscription token
  have retained : (x.replanned.all fun k => completeness x.planned.filters k = .proven) = true := by
    cases retained : x.replanned with
    | none => rfl
    | some k =>
      have known := (held.replanned x hx (congrArg Token.generation token) k retained).2
      rw [same] at known
      rw [Holding.provesCompleteness,
        known (ExtTreeMap.mem_iff_isSome_getElem?.mpr (Option.isSome_of_eq_some here))] at proven
      exact decide_eq_true proven
  refine ⟨x, hx, token, ?_⟩
  obtain proven | refuted := planned x hx token
  · rw [Handle.proves, retained, proven]
    rfl
  · rw [Handle.refuted, Option.any_eq_true] at refuted
    obtain ⟨k, some, contradicts⟩ := refuted
    rw [some, Option.all_some, decide_eq_true_eq] at retained
    exact (of_decide_eq_true contradicts retained).elim

theorem carried_claims (sound : Sound e.core) {item : Item}
    (planned : item matches .endOfStoredEvents → ∀ x ∈ e.handles, x.token = ⟨generation, id⟩ →
      x.planned.completeness = .proven ∨ x.refuted = true) {c : Claim}
    (told : c ∈ (e.carried P relay generation id item).claims) : c ∈ e.claims ∨ e.Backed c := by
  unfold carried at told
  split at told
  · exact .inl told
  · split at told
    · exact .inl told
    · unfold storedComplete at told
      dsimp only at told
      split at told
      · exact .inl told
      · rename_i s found
        split at told
        · rename_i proven
          obtain old | new := List.mem_append.mp told
          · exact .inl old
          · obtain ⟨owner, listed, rfl⟩ := List.mem_map.mp new
            obtain ⟨entry, here⟩ : ∃ entry, s.installed[id]? = some entry := by
              rw [← Option.isSome_iff_exists]
              by_contra missing
              rw [Option.not_isSome_iff_eq_none] at missing
              simp [missing, Holding.owners] at listed
            exact .inr (proves_of_end sound found here proven (planned rfl))
        · exact .inl told
    all_goals exact .inl told

theorem visitSlot_claims (planned : ∀ s ∈ e.slot relay generation,
      ∀ d ∈ e.demandForSlot relay generation, ∀ id ∈ Holding.joins s.installed d,
        s.settled[id]? = some true → ∀ x ∈ e.handles, x.token = ⟨generation, id⟩ → x.proves = true)
    (sound : Sound e.core) {c : Claim} (told : c ∈ (e.visitSlot relay generation).claims) :
    c ∈ e.claims ∨ e.Backed c := by
  unfold visitSlot at told
  dsimp only at told
  split at told
  · rw [show (e.releaseSlot relay generation).claims = e.claims from
      congrArg Prod.snd told_releaseSlot] at told
    exact .inl told
  · split at told
    · exact .inl told
    · rename_i s found
      have credited : c ∈ e.claims ++ (Holding.attach s.settled s.installed
          (e.demandForSlot relay generation)).2.map fun joined => ⟨generation, joined.1, joined.2⟩ := by
        split at told
        · exact told
        · split at told
          · exact told
          · exact told
      obtain old | new := List.mem_append.mp credited
      · exact .inl old
      · obtain ⟨⟨id, owner⟩, joined, rfl⟩ := List.mem_map.mp new
        obtain ⟨ended, d, hd, joins⟩ := Holding.attach_spec.2 _ joined
        obtain ⟨entry, here⟩ := Option.isSome_iff_exists.mp
          (ExtTreeMap.mem_iff_isSome_getElem?.mp (Holding.mem_of_joins joins))
        obtain ⟨-, same, -, before, after, split, -⟩ := slots_split found
        have there : s.toHolding ∈ e.core.holdings := by
          rw [core, split]
          simp
        obtain ⟨-, x, hx, token, -⟩ := (sound.holdings _ there).running id entry here
        have token' : x.token = ⟨generation, id⟩ := by rw [token, same]
        exact .inr ⟨x, hx, token', planned s found d hd id joins ended x hx token'⟩

end Engine

variable {P : Providers} {acts : List Action} {e : Engine}

/-- What a run under the condition keeps. -/
structure Backs (e : Engine) : Prop where
  sound : Sound e.core
  stated : Stated e.core
  claims : ∀ c ∈ e.claims, ∃ x ∈ e.handles, x.token = c.token ∧ x.planned.completeness = .proven

/-- Each step makes only claims that every plan of the subscription stands behind. -/
theorem step_backed {a : Action} {e' : Engine} (sound : Sound e.core) (meets : Planned e a)
    (stepped : step P e a = some e') : ∀ c ∈ e'.claims, c ∈ e.claims ∨ e.Backed c := by
  intro c told
  obtain quiet | ⟨relay, generation, rest, visiting, rfl⟩ |
    ⟨relay, generation, id, item, rest, carrying, same, rfl⟩ := step_told stepped
  · rw [show e'.claims = e.claims from congrArg Prod.snd quiet] at told
    exact .inl told
  · exact Engine.visitSlot_claims (e := { e with todo := rest }) (meets.2 _ visiting) sound told
  · have sound' : Sound { e with inbox := rest }.core := by rwa [same]
    exact Engine.carried_claims sound' (meets.1 _ carrying) told

theorem run_backs (run : Run (step P) Planned .start acts e) : Backs e := by
  refine run.invariant Backs ⟨Engine.start_sound, ?_, by simp [Engine.start]⟩
    fun e a e' backs meets stepped => ?_
  · constructor <;> simp [Engine.core, Engine.plans, Engine.start]
  · have effects : Effects (fun _ _ => True) e.core e'.core :=
      step_effects (fun _ _ _ => trivial) stepped
    refine ⟨effects.sound backs.sound, effects.stated backs.stated, fun c told => ?_⟩
    have opened : ∃ x ∈ e.handles, x.token = c.token ∧ x.planned.completeness = .proven := by
      obtain old | ⟨x, hx, token, proves⟩ := step_backed backs.sound meets stepped c told
      · exact backs.claims c old
      · rw [Handle.proves, Bool.and_eq_true, decide_eq_true_eq] at proves
        exact ⟨x, hx, token, proves.1⟩
    obtain ⟨x, hx, token, proven⟩ := opened
    obtain ⟨y, hy, token', -, planned⟩ := effects.opened hx
    exact ⟨y, hy, token'.trans token, planned ▸ proven⟩

/-- Every claim of completeness belongs to a subscription that was opened as proven and
asks for no limit, and when it is made, no plan that retained the subscription did so
under a declared default limit. -/
theorem claims_planned_proven (run : Run (step P) Planned .start acts e) :
    (∀ c ∈ e.claims, ∃ x ∈ e.handles, x.token = c.token ∧ x.planned.completeness = .proven ∧
      ∀ f ∈ x.planned.filters, f.limit = none) ∧
    ∀ a e', Planned e a → step P e a = some e' → ∀ c ∈ e'.claims, c ∈ e.claims ∨
      ∃ x ∈ e.handles, x.token = c.token ∧ x.planned.completeness = .proven ∧
        ∀ k, x.replanned = some k → k.defaultFilterLimit = none := by
  have backs := run_backs run
  refine ⟨fun c told => ?_, fun a e' meets stepped c told => ?_⟩
  · obtain ⟨x, hx, token, proven⟩ := backs.claims c told
    obtain ⟨k, states⟩ := backs.stated.handles x hx
    rw [proven] at states
    exact ⟨x, hx, token, proven, (completeness_eq_proven.mp states.symm).1⟩
  · obtain old | ⟨x, hx, token, proves⟩ := step_backed backs.sound meets stepped c told
    · exact .inl old
    · rw [Handle.proves, Bool.and_eq_true, decide_eq_true_eq] at proves
      refine .inr ⟨x, hx, token, proves.1, fun k retained => ?_⟩
      have still := proves.2
      rw [retained, Option.all_some, decide_eq_true_eq] at still
      exact (completeness_eq_proven.mp still).2

section Limited

def limitProviders : Providers :=
  ⟨StandardSubscriptionPlanner.planner limitEncoder, fun _ => true, fun _ _ => true⟩

/-- The first subscription is opened for demand of at most a hundred events, and the
relay sends them. -/
def endLimited : List Action :=
  .observe [⟨1, .unauthenticated, true, [⟨"wss://relay", hundred, false⟩]⟩] ::
    openFirst.tail ++ [.carry 0 .endOfStoredEvents, .receive]

/-- A subscription with a limit yields a claim: the completeness its plan gave it was
never recorded under its identifier. -/
theorem limited_request_claims_completeness :
    ∃ acts e, Run (step limitProviders) Free .start acts e ∧
      ∃ c ∈ e.claims, ∃ x ∈ e.handles, x.token = c.token ∧
        x.planned.completeness = .limitedRequest ∧ ∃ f ∈ x.planned.filters, f.limit = some 100 := by
  obtain ⟨e, run, checked⟩ := Run.of_any (show (exec (step limitProviders) Free .start
    endLimited).any (fun e => e.claims.any fun c => e.handles.any fun x =>
      decide (x.token = c.token ∧ x.planned.completeness = .limitedRequest) &&
        x.planned.filters.any fun f => f.limit = some 100) = true by decide +kernel)
  simp only [List.any_eq_true, Bool.and_eq_true, decide_eq_true_eq] at checked
  obtain ⟨c, hc, x, hx, ⟨token, limited⟩, f, hf, limit⟩ := checked
  exact ⟨_, e, run, c, hc, x, hx, token, limited, f, hf, limit⟩

theorem claims_planned_proven_after_openFirst :
    ∃ e, Run (step kindProviders) Planned .start
        (openFirst ++ [.carry 0 .endOfStoredEvents, .receive]) e ∧
      ∃ c ∈ e.claims, ∃ x ∈ e.handles, x.token = c.token ∧ x.planned.completeness = .proven := by
  obtain ⟨e, run, checked⟩ := Run.of_any (show (exec (step kindProviders) Planned .start
    (openFirst ++ [.carry 0 .endOfStoredEvents, .receive])).any (fun e => !e.claims.isEmpty) = true
    by decide +kernel)
  rw [Bool.not_eq_true', List.isEmpty_eq_false_iff_exists_mem] at checked
  obtain ⟨c, hc⟩ := checked
  obtain ⟨x, hx, token, proven, -⟩ := (claims_planned_proven run).1 c hc
  exact ⟨e, run, c, hc, x, hx, token, proven⟩

end Limited

end Fava.Observe
