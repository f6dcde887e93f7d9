import Fava.Observe.Sound

namespace Fava.Observe

open Std Fava.Lib Fava.Nostr Fava.Relay Fava.Subscriptions

/-- No plan of this generation in flight has anything to open. -/
def Core.Clear (c : Core) (generation : Round) : Prop :=
  ∀ p ∈ c.plans, p.generation = generation → p.plan.opens = []

/-- A slot plans anew only while no plan of its generation that opens anything is in
flight. -/
def Unhurried (e : Engine) (a : Action) : Prop :=
  ∀ slot ∈ e.flushing a, e.replans slot.1 slot.2 = true → e.core.Clear slot.2

instance (c : Core) (generation : Round) : Decidable (c.Clear generation) :=
  inferInstanceAs (Decidable (∀ p ∈ c.plans, p.generation = generation → p.plan.opens = []))

instance (e : Engine) (a : Action) : Decidable (Unhurried e a) :=
  match h : e.flushing a with
  | none => .isTrue fun slot hs => by simp [h] at hs
  | some slot =>
    if met : e.replans slot.1 slot.2 = true → e.core.Clear slot.2 then
      .isTrue fun other hs => by
        rw [h, Option.mem_some_iff] at hs
        exact hs ▸ met
    else .isFalse fun all => met (all slot h)

/-- The subscription was dropped, or its slot knows it and holds its token. -/
def Engine.Answered (e : Engine) (x : Handle) : Prop :=
  x.cancelled = true ∨ x.generation ∈ e.fired ∨
    ∃ s, e.slot x.relay x.generation = some s ∧ x.id ∈ s.installed ∧
      s.attending[x.id]? = some x.token

/-- While nothing is superseded, every open subscription the slot does not know is
still to be reported, and the report will be accepted. -/
structure Awaited (c : Core) : Prop where
  current : ∀ p ∈ c.plans, p.plan.opens ≠ [] → ∀ h ∈ c.holdings, h.generation = p.generation →
    h.revision = some p.revision
  awaited : ∀ x ∈ c.handles, x.recorded = false → (∃ h ∈ c.holdings, h.generation = x.generation) →
    ∃ p ∈ c.plans, x.token ∈ p.tokens

namespace Awaited

variable {c : Core} {before after : List Holding} {h h' : Holding} {f : Handle → Handle}
  {plans rest : List Installing} {done : Installing}

/-- A holding takes up a new state; the plans it supersedes open nothing. -/
theorem replace {revisions : Nat} (awaited : Awaited c) (at' : c.holdings = before ++ h :: after)
    (generation : h'.generation = h.generation)
    (current : h'.revision = h.revision ∨ c.Clear h.generation) (marks : Marks f)
    (recorded : ∀ x, x.recorded = true → (f x).recorded = true) :
    Awaited { c with
      holdings := before ++ h' :: after, handles := c.handles.map f, revisions := revisions } := by
  have cases : ∀ k ∈ before ++ h' :: after, k = h' ∨ k ∈ c.holdings := by
    intro k hk
    rw [at']
    simp only [List.mem_append, List.mem_cons] at hk ⊢
    tauto
  have there : h ∈ c.holdings := Sound.mem_of_at at'
  constructor
  · intro p hp opens k hk same
    obtain rfl | old := cases k hk
    · rw [generation] at same
      obtain kept | clear := current
      · rw [kept]
        exact awaited.current p hp opens h there same
      · exact (opens (clear p hp same.symm)).elim
    · exact awaited.current p hp opens k old same
  · rintro x hx unrecorded ⟨k, hk, same⟩
    obtain ⟨y, hy, rfl⟩ := List.mem_map.mp hx
    rw [marks.generation] at same
    rw [marks.token]
    refine awaited.awaited y hy ?_ ?_
    · rw [← Bool.not_eq_true] at unrecorded ⊢
      exact fun known => unrecorded (recorded y known)
    · obtain rfl | old := cases k hk
      · exact ⟨h, there, generation.symm.trans same⟩
      · exact ⟨k, old, same⟩

/-- A report is processed, and no subscription was waiting for it. -/
theorem drop (awaited : Awaited c) (took : c.plans.Perm (done :: plans))
    (answered : ∀ x ∈ c.handles, x.recorded = false →
      (∃ h ∈ c.holdings, h.generation = x.generation) → x.token ∉ done.tokens) :
    Awaited { c with plans := plans } := by
  constructor
  · exact fun p hp => awaited.current p (took.mem_iff.mpr (by simp [hp]))
  · intro x hx unrecorded here
    obtain ⟨p, hp, named⟩ := awaited.awaited x hx unrecorded here
    obtain rfl | other := List.mem_cons.mp (took.mem_iff.mp hp)
    · exact (answered x hx unrecorded here named).elim
    · exact ⟨p, other, named⟩

theorem add (awaited : Awaited c) (added : plans.Perm (done :: c.plans))
    (current : ∀ h ∈ c.holdings, h.generation = done.generation → h.revision = some done.revision) :
    Awaited { c with plans := plans } := by
  constructor
  · intro p hp opens
    obtain rfl | old := List.mem_cons.mp (added.mem_iff.mp hp)
    · exact current
    · exact awaited.current p old opens
  · intro x hx unrecorded here
    obtain ⟨p, hp, named⟩ := awaited.awaited x hx unrecorded here
    exact ⟨p, added.mem_iff.mpr (by simp [hp]), named⟩

theorem answer {opened : List (Option SubscriptionId)} (awaited : Awaited c)
    (took : c.plans.Perm (done :: rest)) (onto : plans.Perm ({ done with opened := opened } :: rest))
    (more : ∀ t ∈ done.tokens, t ∈ Installing.tokens { done with opened := opened }) :
    Awaited { c with plans := plans } := by
  constructor
  · intro p hp
    obtain rfl | old := List.mem_cons.mp (onto.mem_iff.mp hp)
    · exact awaited.current done (took.mem_iff.mpr (by simp))
    · exact awaited.current p (took.mem_iff.mpr (by simp [old]))
  · intro x hx unrecorded here
    obtain ⟨p, hp, named⟩ := awaited.awaited x hx unrecorded here
    obtain rfl | other := List.mem_cons.mp (took.mem_iff.mp hp)
    · exact ⟨_, onto.mem_iff.mpr List.mem_cons_self, more _ named⟩
    · exact ⟨p, onto.mem_iff.mpr (by simp [other]), named⟩

/-- Taking holdings away, or adding ones on a generation nothing belongs to yet. -/
theorem renew {holdings : List Holding} {fired : List Round} {rounds : Nat} (awaited : Awaited c)
    (fresh : ∀ h ∈ holdings, h ∈ c.holdings ∨
      (∀ x ∈ c.handles, x.generation ≠ h.generation) ∧ ∀ p ∈ c.plans, p.generation ≠ h.generation) :
    Awaited { c with holdings := holdings, fired := fired, rounds := rounds } := by
  constructor
  · intro p hp opens k hk same
    obtain old | ⟨-, unused⟩ := fresh k hk
    · exact awaited.current p hp opens k old same
    · exact (unused p hp same.symm).elim
  · rintro x hx unrecorded ⟨k, hk, same⟩
    obtain old | ⟨unused, -⟩ := fresh k hk
    · exact awaited.awaited x hx unrecorded ⟨k, old, same⟩
    · exact (unused x hx same.symm).elim

end Awaited

variable {c c' : Core}

theorem Effect.awaited (effect : Effect Core.Clear c c') (sound : Sound c) (awaited : Awaited c) :
    Awaited c' := by
  have still : ∀ {h : Holding} {before after : List Holding} {installed : InstalledSubscriptions}
      {revision : Option Nat} {revisions : Nat}, c.holdings = before ++ h :: after →
      (revision = h.revision ∨ c.Clear h.generation) →
      Awaited { c with
        holdings := before ++ { h with installed := installed, revision := revision } :: after
        revisions := revisions } := by
    intro h before after installed revision revisions at' current
    have replaced : Awaited { c with
        holdings := before ++ { h with installed := installed, revision := revision } :: after
        handles := c.handles.map id
        revisions := revisions } :=
      awaited.replace at' rfl current Sound.marks_id fun _ => id
    rwa [List.map_id] at replaced
  cases effect with
  | @shuffle plans same =>
    constructor
    · exact fun p hp => awaited.current p (same.mem_iff.mp hp)
    · intro x hx unrecorded here
      obtain ⟨p, hp, named⟩ := awaited.awaited x hx unrecorded here
      exact ⟨p, same.mem_iff.mpr hp, named⟩
  | release sub _ _ => exact awaited.renew fun h hh => .inl (sub.subset hh)
  | issue => exact awaited.renew fun h hh => .inl hh
  | establish relay =>
    refine awaited.renew fun h hh => ?_
    obtain old | new := List.mem_append.mp hh
    · exact .inl old
    · rw [List.mem_singleton.mp new]
      exact .inr ⟨sound.fresh_handle, sound.fresh_plan⟩
  | @advance before after h at' =>
    refine awaited.renew fun k hk => ?_
    rw [at']
    simp only [List.mem_append, List.mem_cons] at hk ⊢
    obtain first | rfl | last := hk
    · exact .inl (.inl first)
    · exact .inr ⟨sound.fresh_handle, sound.fresh_plan⟩
    · exact .inl (.inr (.inr last))
  | attach at' _ => exact still at' (.inl rfl)
  | revise at' free => exact still at' (.inr free)
  | retain at' free _ _ =>
    exact awaited.replace at' rfl (.inr free) Sound.replanOne_marks fun x known =>
      (Sound.replanOne_flags x).1.trans known
  | @install before after h constraints plan plans at' free _ added =>
    have replaced : Awaited { c with
        holdings := before ++ (Holding.recordCompleteness
          { h with revision := some (c.revisions + 1) } plan) :: after
        handles := Engine.replan h.generation constraints plan c.handles
        revisions := c.revisions + 1 } :=
      awaited.replace at' rfl (.inr free) Sound.replanOne_marks fun x known =>
        (Sound.replanOne_flags x).1.trans known
    refine replaced.add added fun k hk same => ?_
    rw [List.mem_append, List.mem_cons] at hk
    obtain first | rfl | last := hk
    · exact ((sound.others at' (.inl first)).2 same).elim
    · rfl
    · exact ((sound.others at' (.inr last)).2 same).elim
  | deny _ took onto =>
    refine awaited.answer took onto fun t ht => ?_
    rw [Sound.tokens_append]
    exact List.mem_append_left _ ht
  | @subscribe plans rest doing id planned _ _ took onto =>
    have moved := awaited.answer took onto fun t ht => by
      rw [Sound.tokens_append]
      exact List.mem_append_left _ ht
    refine ⟨moved.current, fun x hx unrecorded here => ?_⟩
    obtain old | new := List.mem_append.mp hx
    · exact moved.awaited x old unrecorded here
    · obtain rfl := List.mem_singleton.mp new
      refine ⟨_, onto.mem_iff.mpr List.mem_cons_self, ?_⟩
      rw [Sound.tokens_append]
      exact List.mem_append_right _ (by simp [Handle.token])
  | @discard plans done took missed =>
    have inside : done ∈ c.plans := took.mem_iff.mpr (by simp)
    refine awaited.drop took fun x hx _ here named => ?_
    obtain ⟨h, hh, same⟩ := here
    have generation : h.generation = done.generation := same.trans (Sound.mem_tokens.mp named).1
    obtain gone | ⟨k, hk, same', differs⟩ := missed
    · exact gone h hh ((sound.relays done inside).2 h hh generation) generation
    · -- A superseded plan opened nothing, so the subscription is not one of its own.
      by_cases opens : done.plan.opens = []
      · have short := (sound.plans done inside).short
        rw [opens, List.length_nil, Nat.le_zero, List.length_eq_zero_iff] at short
        rw [Installing.tokens, short] at named
        cases named
      · exact differs (awaited.current done inside opens k hk same')
  | @accept plans done before after h took at' generation revision =>
    have recorded : ∀ x ∈ c.handles, x.token ∈ done.tokens → ∀ tokens,
        (Sound.acceptOne done tokens x).recorded = true := fun x _ named tokens =>
      (Sound.acceptOne_spec x).2.2.2.2.1.mpr (.inr (Sound.mem_tokens.mp named))
    rw [Sound.accept_eq]
    have marked : Awaited { c with
        holdings := before ++ ((h.attend (done.opened.filterMap id) done.plan.close).1.recordInstalled
          done.plan done.opened done.plan.close) :: after
        handles := c.handles.map (Sound.acceptOne done
          (h.attend (done.opened.filterMap id) done.plan.close).2) } :=
      awaited.replace at' rfl (.inl rfl) Sound.acceptOne_marks fun x known =>
        (Sound.acceptOne_spec x).2.2.2.2.1.mpr (.inl known)
    refine marked.drop took fun x hx unrecorded _ named => ?_
    obtain ⟨y, hy, rfl⟩ := List.mem_map.mp hx
    rw [Sound.acceptOne_marks.token] at named
    rw [recorded y hy named] at unrecorded
    cases unrecorded

theorem Effects.awaited (effects : Effects Core.Clear c c') (sound : Sound c)
    (awaited : Awaited c) : Awaited c' := by
  induction effects with
  | refl => exact awaited
  | tail earlier effect ih => exact effect.awaited (Effects.sound earlier sound) ih

variable {P : Providers} {acts : List Action} {e : Engine}

theorem run_awaited (run : Run (step P) Unhurried .start acts e) : Awaited e.core := by
  suffices both : Sound e.core ∧ Awaited e.core from both.2
  refine run.invariant (fun e => Sound e.core ∧ Awaited e.core)
    ⟨Engine.start_sound, by simp [Engine.core, Engine.start], by simp [Engine.core, Engine.start]⟩
    fun e a e' ⟨sound, awaited⟩ meets stepped => ?_
  have effects : Effects Core.Clear e.core e'.core := step_effects meets stepped
  exact ⟨effects.sound sound, effects.awaited sound awaited⟩

/-- Every open subscription is known to its slot once the reports of its generation
have been processed, as long as no slot plans anew over a plan still in flight. -/
theorem answered_of_unhurried (run : Run (step P) Unhurried .start acts e) (x : Handle)
    (opened : x ∈ e.handles) (processed : ∀ p ∈ e.plans, p.generation ≠ x.generation) :
    e.Answered x := by
  have sound : Sound e.core := run_sound run
  have awaited := run_awaited run
  obtain ⟨-, ⟨h, hh, same⟩ | fired⟩ := sound.governed x opened
  · have recorded : x.recorded = true := by
      by_contra unrecorded
      rw [Bool.not_eq_true] at unrecorded
      obtain ⟨p, hp, named⟩ := awaited.awaited x opened unrecorded ⟨h, hh, same⟩
      exact processed p hp (Sound.mem_tokens.mp named).1.symm
    by_cases dropped : x.cancelled = true
    · exact .inl dropped
    · rw [Bool.not_eq_true] at dropped
      have held := sound.holdings h hh
      have member := held.kept x opened same.symm recorded dropped
      obtain ⟨entry, here⟩ := Option.isSome_iff_exists.mp
        (ExtTreeMap.mem_iff_isSome_getElem?.mp member)
      obtain ⟨t, attended⟩ := Option.isSome_iff_exists.mp
        (ExtTreeMap.mem_iff_isSome_getElem?.mp (held.running x.id entry here).1)
      obtain rfl := held.tokens x.id t attended
      obtain ⟨s, hs, rfl⟩ := List.mem_map.mp hh
      refine .inr (.inr ⟨s, ?_, member, ?_⟩)
      · rw [← sound.homes x opened s.toHolding hh same, ← same]
        exact Engine.slot_eq_some sound hs
      · rw [attended, same]
        rfl
  · exact .inr (.inl fired)

section Superseded

/-- A second subscription is opened, and before its report the first one's demand is
withdrawn: the slot plans anew at once, and both plans complete. -/
def withdrawDuring : List Action :=
  openFirst ++
    [.observe [observes 1, observes 2], .wake, .reconcile, .visit, .visit, .elapse 2, .receive,
      .subscribe 0 (some 2), .observe [observes 2], .wake, .reconcile, .visit, .visit, .visit,
      .finish 0, .receive, .subscribe 0 (some 3), .finish 0, .receive]

/-- With every report processed, a subscription is left open on the live connection
that its slot neither lists nor holds the token of. -/
theorem superseded_plan_orphans :
    ∃ acts e, Run (step kindProviders) Free .start acts e ∧ e.plans = [] ∧
      ∃ x ∈ e.handles, x.cancelled = false ∧ x.generation ∉ e.fired ∧
        (∃ s, e.slot x.relay x.generation = some s) ∧ ¬e.Answered x := by
  obtain ⟨e, run, checked⟩ := Run.of_any (show (exec (step kindProviders) Free .start
    withdrawDuring).any (fun e => e.plans.isEmpty && e.handles.any fun x => !x.cancelled &&
      decide (x.generation ∉ e.fired) && (e.slot x.relay x.generation).any fun s =>
        !s.installed.contains x.id) = true by decide +kernel)
  simp only [Bool.and_eq_true, List.isEmpty_iff, List.any_eq_true, Bool.not_eq_true',
    decide_eq_true_eq] at checked
  obtain ⟨done, x, hx, ⟨live, current⟩, unknown⟩ := checked
  obtain ⟨s, found, absent⟩ := (Option.any_eq_true _ _).mp unknown
  refine ⟨_, e, run, done, x, hx, live, current, ⟨s, found⟩, ?_⟩
  rintro (dropped | fired | ⟨t, found', member, -⟩)
  · rw [live] at dropped
    cases dropped
  · exact current fired
  · rw [found, Option.some.injEq] at found'
    subst found'
    rw [ExtTreeMap.contains_iff_mem.mpr member] at absent
    cases absent

theorem answered_after_openFirst :
    ∃ e, Run (step kindProviders) Unhurried .start openFirst e ∧
      ∃ x ∈ e.handles, x.cancelled = false ∧ x.generation ∉ e.fired ∧ e.Answered x := by
  obtain ⟨e, run, checked⟩ := Run.of_any (show (exec (step kindProviders) Unhurried .start
    openFirst).any (fun e => e.plans.isEmpty && e.handles.any fun x => !x.cancelled &&
      decide (x.generation ∉ e.fired)) = true by decide +kernel)
  simp only [Bool.and_eq_true, List.isEmpty_iff, List.any_eq_true, Bool.not_eq_true',
    decide_eq_true_eq] at checked
  obtain ⟨done, x, hx, live, current⟩ := checked
  exact ⟨e, run, x, hx, live, current, answered_of_unhurried run x hx (by simp [done])⟩

end Superseded

end Fava.Observe
