import Fava.Observe.Core
import Fava.Lib.Run

namespace Fava.Observe

open Std Fava.Lib Fava.Nostr Fava.Subscriptions

/-- The tokens of what an installation has opened so far. -/
def Installing.tokens (p : Installing) : List Token :=
  (p.opened.filterMap id).map (Token.mk p.generation)

/-- A holding and the handles of its generation agree. -/
structure HoldingSound (handles : List Handle) (h : Holding) : Prop where
  tokens : ∀ (id : SubscriptionId) (t : Token), h.attending[id]? = some t → t = ⟨h.generation, id⟩
  running : ∀ (id : SubscriptionId) (entry : InstalledSubscription), h.installed[id]? = some entry →
    id ∈ h.attending ∧ ∃ x ∈ handles, x.token = ⟨h.generation, id⟩ ∧
      x.planned.filters = entry.filters ∧ x.recorded = true
  kept : ∀ x ∈ handles, x.generation = h.generation → x.recorded = true → x.cancelled = false →
    x.id ∈ h.installed
  replanned : ∀ x ∈ handles, x.generation = h.generation → ∀ k, x.replanned = some k →
    x.recorded = true ∧ (x.id ∈ h.installed →
      h.completeness[x.id]? = some (completeness x.planned.filters k))

/-- Everything a plan in flight has opened is an unrecorded handle, as it was planned. -/
structure PlanSound (handles : List Handle) (p : Installing) : Prop where
  short : p.opened.length ≤ p.plan.opens.length
  opened : ∀ e ∈ Holding.opening p.plan.opens p.opened, ∃ x ∈ handles,
    x.token = ⟨p.generation, e.1⟩ ∧ x.planned = e.2 ∧ x.recorded = false

/-- The plan still describes what runs: a diff against exactly this baseline. -/
structure Baseline (h : Holding) (plan : SubscriptionPlan) : Prop where
  kept : ∀ id ∈ h.installed, id ∈ plan.close ∨ id ∈ plan.attribution
  closes : ∀ id ∈ plan.close, id ∈ h.installed
  attributes : ∀ id ∈ plan.attribution, id ∉ plan.close

structure Sound (c : Core) : Prop where
  apart : (c.holdings.map Holding.generation).Nodup
  issued : ∀ h ∈ c.holdings, h.generation ≤ c.rounds
  named : (c.handles.map Handle.token).Nodup
  governed : ∀ x ∈ c.handles, x.generation ≤ c.rounds ∧
    ((∃ h ∈ c.holdings, h.generation = x.generation) ∨ x.generation ∈ c.fired)
  relays : ∀ p ∈ c.plans, p.generation ≤ c.rounds ∧
    ∀ h ∈ c.holdings, h.generation = p.generation → h.relay = p.relay
  homes : ∀ x ∈ c.handles, ∀ h ∈ c.holdings, h.generation = x.generation → h.relay = x.relay
  flying : ∀ p ∈ c.plans,
    (∃ h ∈ c.holdings, h.generation = p.generation) ∨ p.generation ∈ c.fired
  revised : (c.plans.map Installing.revision).Nodup
  latest : (∀ p ∈ c.plans, p.revision ≤ c.revisions) ∧
    ∀ h ∈ c.holdings, ∀ r, h.revision = some r → r ≤ c.revisions
  distinct : (c.plans.flatMap Installing.tokens).Nodup
  holdings : ∀ h ∈ c.holdings, HoldingSound c.handles h
  plans : ∀ p ∈ c.plans, PlanSound c.handles p
  pending : ∀ p ∈ c.plans, ∀ h ∈ c.holdings, h.generation = p.generation →
    h.revision = some p.revision → Baseline h p.plan

section Frames

variable {handles handles' : List Handle} {h : Holding} {p : Installing} {f : Handle → Handle}

/-- A holding looks at the handles of its own generation only. -/
theorem HoldingSound.congr (sound : HoldingSound handles h)
    (same : ∀ x : Handle, x.generation = h.generation → (x ∈ handles ↔ x ∈ handles')) :
    HoldingSound handles' h where
  tokens := sound.tokens
  running id entry here := by
    obtain ⟨attended, x, hx, token, rest⟩ := sound.running id entry here
    have generation : x.generation = h.generation := congrArg Token.generation token
    exact ⟨attended, x, (same x generation).mp hx, token, rest⟩
  kept x hx generation := sound.kept x ((same x generation).mpr hx) generation
  replanned x hx generation := sound.replanned x ((same x generation).mpr hx) generation

/-- The changes made to handles leave how they were opened alone. -/
structure Marks (f : Handle → Handle) : Prop where
  token : ∀ x, (f x).token = x.token
  relay : ∀ x, (f x).relay = x.relay
  planned : ∀ x, (f x).planned = x.planned

theorem Marks.generation (marks : Marks f) (x : Handle) : (f x).generation = x.generation :=
  congrArg Token.generation (marks.token x)

theorem Marks.id (marks : Marks f) (x : Handle) : (f x).id = x.id :=
  congrArg Token.subscription (marks.token x)

theorem HoldingSound.map_of_ne (marks : Marks f) {g : Round}
    (others : ∀ x, x.generation ≠ g → f x = x) (sound : HoldingSound handles h)
    (differs : h.generation ≠ g) : HoldingSound (handles.map f) h := by
  refine sound.congr fun x generation => ⟨fun hx => ?_, fun hx => ?_⟩
  · refine List.mem_map.mpr ⟨x, hx, others x ?_⟩
    rw [generation]
    exact differs
  · obtain ⟨y, hy, rfl⟩ := List.mem_map.mp hx
    rw [marks.generation] at generation
    rw [others y (by rw [generation]; exact differs)]
    exact hy

theorem PlanSound.map (marks : Marks f)
    (unrecorded : ∀ x ∈ handles, x.token ∈ p.tokens → (f x).recorded = x.recorded)
    (sound : PlanSound handles p) : PlanSound (handles.map f) p where
  short := sound.short
  opened e he := by
    obtain ⟨x, hx, token, planned, recorded⟩ := sound.opened e he
    refine ⟨f x, List.mem_map.mpr ⟨x, hx, rfl⟩, ?_, ?_, ?_⟩
    · rw [marks.token, token]
    · rw [marks.planned, planned]
    · rw [unrecorded x hx ?_, recorded]
      rw [token]
      refine List.mem_map.mpr ⟨e.1, List.mem_filterMap.mpr ⟨some e.1, ?_, rfl⟩, rfl⟩
      exact Holding.opened_of_opening he

theorem named_map (marks : Marks f) :
    (handles.map f).map Handle.token = handles.map Handle.token := by
  rw [List.map_map]
  exact List.map_congr_left fun x _ => marks.token x

theorem handle_eq (named : (handles.map Handle.token).Nodup) {x y : Handle} (hx : x ∈ handles)
    (hy : y ∈ handles) (same : x.token = y.token) : x = y :=
  List.inj_on_of_nodup_map named hx hy same

end Frames

namespace Sound

variable {c : Core} {before after : List Holding} {h h' : Holding} {f : Handle → Handle}
  {plans : List Installing} {done : Installing}

theorem mem_of_at (at' : c.holdings = before ++ h :: after) : h ∈ c.holdings := by
  simp [at']

theorem others (sound : Sound c) (at' : c.holdings = before ++ h :: after) {k : Holding}
    (other : k ∈ before ∨ k ∈ after) : k ∈ c.holdings ∧ k.generation ≠ h.generation := by
  have apart := sound.apart
  rw [at', List.map_append, List.map_cons, List.nodup_append, List.nodup_cons] at apart
  obtain ⟨-, ⟨later, -⟩, earlier⟩ := apart
  refine ⟨by rw [at']; simp; tauto, fun same => ?_⟩
  obtain first | last := other
  · exact earlier k.generation (List.mem_map.mpr ⟨k, first, rfl⟩) h.generation (by simp) same
  · exact later (List.mem_map.mpr ⟨k, last, same⟩)

/-- Taking up a new state of one holding, with marks on handles of its generation. -/
theorem replace {revisions : Nat} (sound : Sound c) (at' : c.holdings = before ++ h :: after)
    (held : HoldingSound (c.handles.map f) h')
    (generation : h'.generation = h.generation) (relay : h'.relay = h.relay)
    (more : c.revisions ≤ revisions) (revision : ∀ r, h'.revision = some r → r ≤ revisions)
    (marks : Marks f) (own : ∀ x, x.generation ≠ h.generation → f x = x)
    (unrecorded : ∀ p ∈ c.plans, ∀ x ∈ c.handles, x.token ∈ p.tokens →
      (f x).recorded = x.recorded)
    (pending : ∀ p ∈ c.plans, h.generation = p.generation → h'.revision = some p.revision →
      Baseline h' p.plan) :
    Sound { c with
      holdings := before ++ h' :: after, handles := c.handles.map f, revisions := revisions } := by
  have cases : ∀ k ∈ before ++ h' :: after,
      k = h' ∨ k ∈ c.holdings ∧ k.generation ≠ h.generation := by
    intro k hk
    rw [List.mem_append, List.mem_cons] at hk
    obtain first | rfl | last := hk
    · exact .inr (sound.others at' (.inl first))
    · exact .inl rfl
    · exact .inr (sound.others at' (.inr last))
  have survives : ∀ g, (∃ k ∈ c.holdings, k.generation = g) →
      ∃ k ∈ before ++ h' :: after, k.generation = g := by
    rintro g ⟨k, hk, rfl⟩
    rw [at', List.mem_append, List.mem_cons] at hk
    obtain first | rfl | last := hk
    · exact ⟨k, by simp [first], rfl⟩
    · exact ⟨h', by simp, generation⟩
    · exact ⟨k, by simp [last], rfl⟩
  constructor
  case apart =>
    have apart := sound.apart
    rw [at', List.map_append, List.map_cons] at apart
    rw [List.map_append, List.map_cons, generation]
    exact apart
  case issued =>
    intro k hk
    obtain rfl | ⟨old, -⟩ := cases k hk
    · rw [generation]
      exact sound.issued h (mem_of_at at')
    · exact sound.issued k old
  case named =>
    change ((c.handles.map f).map Handle.token).Nodup
    rw [named_map marks]
    exact sound.named
  case governed =>
    intro x hx
    obtain ⟨y, hy, rfl⟩ := List.mem_map.mp hx
    rw [marks.generation]
    obtain ⟨bound, current | past⟩ := sound.governed y hy
    · exact ⟨bound, .inl (survives _ current)⟩
    · exact ⟨bound, .inr past⟩
  case relays =>
    intro p hp
    refine ⟨(sound.relays p hp).1, fun k hk same => ?_⟩
    obtain rfl | ⟨old, -⟩ := cases k hk
    · rw [relay]
      exact (sound.relays p hp).2 h (mem_of_at at') (generation ▸ same)
    · exact (sound.relays p hp).2 k old same
  case homes =>
    intro x hx k hk same
    obtain ⟨y, hy, rfl⟩ := List.mem_map.mp hx
    rw [marks.generation] at same
    rw [marks.relay]
    obtain rfl | ⟨old, -⟩ := cases k hk
    · rw [relay]
      exact sound.homes y hy h (mem_of_at at') (generation ▸ same)
    · exact sound.homes y hy k old same
  case flying =>
    intro p hp
    obtain current | past := sound.flying p hp
    · exact .inl (survives _ current)
    · exact .inr past
  case revised => exact sound.revised
  case latest =>
    refine ⟨fun p hp => (sound.latest.1 p hp).trans more, fun k hk r same => ?_⟩
    obtain rfl | ⟨old, -⟩ := cases k hk
    · exact revision r same
    · exact (sound.latest.2 k old r same).trans more
  case distinct => exact sound.distinct
  case holdings =>
    intro k hk
    obtain rfl | ⟨old, differs⟩ := cases k hk
    · exact held
    · exact (sound.holdings k old).map_of_ne marks own differs
  case plans => exact fun p hp => (sound.plans p hp).map marks (unrecorded p hp)
  case pending =>
    intro p hp k hk same
    obtain rfl | ⟨old, -⟩ := cases k hk
    · exact pending p hp (generation ▸ same)
    · exact sound.pending p hp k old same

/-- A plan that is no longer in flight. -/
theorem drop (sound : Sound c) (took : c.plans.Perm (done :: plans)) :
    Sound { c with plans := plans } := by
  have sub : ∀ p ∈ plans, p ∈ c.plans := fun p hp => took.mem_iff.mpr (by simp [hp])
  have revised := (took.map Installing.revision).nodup_iff.mp sound.revised
  have distinct := (took.flatMap_right Installing.tokens).nodup_iff.mp sound.distinct
  rw [List.map_cons, List.nodup_cons] at revised
  rw [List.flatMap_cons, List.nodup_append] at distinct
  exact ⟨sound.apart, sound.issued, sound.named, sound.governed,
    fun p hp => sound.relays p (sub p hp), sound.homes, fun p hp => sound.flying p (sub p hp), revised.2,
    ⟨fun p hp => sound.latest.1 p (sub p hp), sound.latest.2⟩, distinct.2.1, sound.holdings,
    fun p hp => sound.plans p (sub p hp), fun p hp => sound.pending p (sub p hp)⟩

theorem shuffle (sound : Sound c) (same : plans.Perm c.plans) : Sound { c with plans := plans } :=
  ⟨sound.apart, sound.issued, sound.named, sound.governed,
    fun p hp => sound.relays p (same.mem_iff.mp hp), sound.homes,
    fun p hp => sound.flying p (same.mem_iff.mp hp),
    (same.map _).nodup_iff.mpr sound.revised,
    ⟨fun p hp => sound.latest.1 p (same.mem_iff.mp hp), sound.latest.2⟩,
    (same.flatMap_right _).nodup_iff.mpr sound.distinct, sound.holdings,
    fun p hp => sound.plans p (same.mem_iff.mp hp), fun p hp => sound.pending p (same.mem_iff.mp hp)⟩

theorem release {kept : List Holding} {fired : List Round} (sound : Sound c)
    (sub : kept.Sublist c.holdings) (dropped : ∀ h ∈ c.holdings, h ∈ kept ∨ h.generation ∈ fired)
    (more : ∀ g ∈ c.fired, g ∈ fired) : Sound { c with holdings := kept, fired := fired } := by
  have answered : ∀ g, (∃ h ∈ c.holdings, h.generation = g) ∨ g ∈ c.fired →
      (∃ h ∈ kept, h.generation = g) ∨ g ∈ fired := by
    rintro g (⟨h, hh, rfl⟩ | past)
    · obtain still | gone := dropped h hh
      · exact .inl ⟨h, still, rfl⟩
      · exact .inr gone
    · exact .inr (more g past)
  exact ⟨sound.apart.sublist (sub.map _), fun h hh => sound.issued h (sub.subset hh), sound.named,
    fun x hx => ⟨(sound.governed x hx).1, answered _ (sound.governed x hx).2⟩,
    fun p hp => ⟨(sound.relays p hp).1, fun h hh => (sound.relays p hp).2 h (sub.subset hh)⟩,
    fun x hx h hh => sound.homes x hx h (sub.subset hh),
    fun p hp => answered _ (sound.flying p hp), sound.revised,
    ⟨sound.latest.1, fun h hh => sound.latest.2 h (sub.subset hh)⟩, sound.distinct,
    fun h hh => sound.holdings h (sub.subset hh), sound.plans,
    fun p hp h hh => sound.pending p hp h (sub.subset hh)⟩

theorem issue (sound : Sound c) : Sound { c with rounds := c.rounds + 1 } :=
  ⟨sound.apart, fun h hh => (sound.issued h hh).trans (Nat.le_succ _), sound.named,
    fun x hx => ⟨(sound.governed x hx).1.trans (Nat.le_succ _), (sound.governed x hx).2⟩,
    fun p hp => ⟨(sound.relays p hp).1.trans (Nat.le_succ _), (sound.relays p hp).2⟩, sound.homes,
    sound.flying, sound.revised, sound.latest, sound.distinct, sound.holdings, sound.plans,
    sound.pending⟩

theorem fresh_holding (sound : Sound c) : ∀ h ∈ c.holdings, h.generation ≠ c.rounds + 1 :=
  fun h hh same => Nat.not_succ_le_self _ (same ▸ sound.issued h hh)

theorem fresh_handle (sound : Sound c) : ∀ x ∈ c.handles, x.generation ≠ c.rounds + 1 :=
  fun x hx same => Nat.not_succ_le_self _ (same ▸ (sound.governed x hx).1)

theorem fresh_plan (sound : Sound c) : ∀ p ∈ c.plans, p.generation ≠ c.rounds + 1 :=
  fun p hp same => Nat.not_succ_le_self _ (same ▸ (sound.relays p hp).1)

/-- A holding on a generation that no handle belongs to yet. -/
theorem holding_fresh {handles : List Handle} {relay : RelayUrl} {g : Round} {revision : Option Nat}
    (unused : ∀ x ∈ handles, x.generation ≠ g) : HoldingSound handles ⟨relay, g, ∅, ∅, ∅, revision⟩ where
  tokens := by simp
  running := by simp
  kept x hx same := (unused x hx same).elim
  replanned x hx same := (unused x hx same).elim

theorem establish (sound : Sound c) (relay : RelayUrl) :
    Sound { c with
      rounds := c.rounds + 1, holdings := c.holdings ++ [.new relay (c.rounds + 1)] } := by
  have cases : ∀ k ∈ c.holdings ++ [Holding.new relay (c.rounds + 1)],
      k ∈ c.holdings ∨ k = .new relay (c.rounds + 1) := by simp
  constructor
  case apart =>
    rw [List.map_append, List.nodup_append]
    refine ⟨sound.apart, by simp, fun g hg g' hg' same => ?_⟩
    obtain ⟨h, hh, rfl⟩ := List.mem_map.mp hg
    obtain rfl : g' = c.rounds + 1 := by simpa [Holding.new] using hg'
    exact sound.fresh_holding h hh same
  case issued =>
    intro k hk
    obtain there | rfl := cases k hk
    · exact (sound.issued k there).trans (Nat.le_succ _)
    · exact Nat.le_refl _
  case named => exact sound.named
  case governed =>
    intro x hx
    obtain ⟨bound, ⟨h, hh, same⟩ | past⟩ := sound.governed x hx
    · exact ⟨bound.trans (Nat.le_succ _), .inl ⟨h, by simp [hh], same⟩⟩
    · exact ⟨bound.trans (Nat.le_succ _), .inr past⟩
  case relays =>
    intro p hp
    refine ⟨(sound.relays p hp).1.trans (Nat.le_succ _), fun k hk same => ?_⟩
    obtain there | rfl := cases k hk
    · exact (sound.relays p hp).2 k there same
    · exact (sound.fresh_plan p hp same.symm).elim
  case homes =>
    intro x hx k hk same
    obtain there | rfl := cases k hk
    · exact sound.homes x hx k there same
    · exact (sound.fresh_handle x hx same.symm).elim
  case flying =>
    intro p hp
    obtain ⟨h, hh, same⟩ | past := sound.flying p hp
    · exact .inl ⟨h, by simp [hh], same⟩
    · exact .inr past
  case revised => exact sound.revised
  case latest =>
    refine ⟨sound.latest.1, fun k hk r same => ?_⟩
    obtain there | rfl := cases k hk
    · exact sound.latest.2 k there r same
    · cases same
  case distinct => exact sound.distinct
  case holdings =>
    intro k hk
    obtain there | rfl := cases k hk
    · exact sound.holdings k there
    · exact holding_fresh sound.fresh_handle
  case plans => exact sound.plans
  case pending =>
    intro p hp k hk same revision
    obtain there | rfl := cases k hk
    · exact sound.pending p hp k there same revision
    · cases revision

theorem advance (sound : Sound c) (at' : c.holdings = before ++ h :: after) :
    Sound { c with
      rounds := c.rounds + 1
      fired := h.generation :: c.fired
      holdings := before ++ h.advance (c.rounds + 1) :: after } := by
  have cases : ∀ k ∈ before ++ h.advance (c.rounds + 1) :: after,
      k = h.advance (c.rounds + 1) ∨ k ∈ c.holdings := by
    intro k hk
    rw [at']
    simp only [List.mem_append, List.mem_cons] at hk ⊢
    tauto
  have answered : ∀ g, (∃ k ∈ c.holdings, k.generation = g) ∨ g ∈ c.fired →
      (∃ k ∈ before ++ h.advance (c.rounds + 1) :: after, k.generation = g) ∨
        g ∈ h.generation :: c.fired := by
    rintro g (⟨k, hk, rfl⟩ | past)
    · rw [at', List.mem_append, List.mem_cons] at hk
      obtain first | rfl | last := hk
      · exact .inl ⟨k, by simp [first], rfl⟩
      · exact .inr (by simp)
      · exact .inl ⟨k, by simp [last], rfl⟩
    · exact .inr (by simp [past])
  constructor
  case apart =>
    have apart := sound.apart
    have fresh : c.rounds + 1 ∉ c.holdings.map Holding.generation := by
      intro there
      obtain ⟨k, hk, same⟩ := List.mem_map.mp there
      exact sound.fresh_holding k hk same
    rw [at', List.map_append, List.map_cons] at apart fresh
    rw [List.map_append, List.map_cons]
    simp only [List.mem_append, List.mem_cons, not_or] at fresh
    rw [List.nodup_append, List.nodup_cons] at apart ⊢
    refine ⟨apart.1, ⟨fresh.2.2, apart.2.1.2⟩, fun g hg g' hg' => ?_⟩
    obtain rfl | last := List.mem_cons.mp hg'
    · rintro rfl
      exact fresh.1 hg
    · exact apart.2.2 g hg g' (by simp [last])
  case issued =>
    intro k hk
    obtain rfl | there := cases k hk
    · exact Nat.le_refl _
    · exact (sound.issued k there).trans (Nat.le_succ _)
  case named => exact sound.named
  case governed =>
    intro x hx
    exact ⟨(sound.governed x hx).1.trans (Nat.le_succ _), answered _ (sound.governed x hx).2⟩
  case relays =>
    intro p hp
    refine ⟨(sound.relays p hp).1.trans (Nat.le_succ _), fun k hk same => ?_⟩
    obtain rfl | there := cases k hk
    · exact (sound.fresh_plan p hp same.symm).elim
    · exact (sound.relays p hp).2 k there same
  case homes =>
    intro x hx k hk same
    obtain rfl | there := cases k hk
    · exact (sound.fresh_handle x hx same.symm).elim
    · exact sound.homes x hx k there same
  case flying => exact fun p hp => answered _ (sound.flying p hp)
  case revised => exact sound.revised
  case latest =>
    refine ⟨sound.latest.1, fun k hk r same => ?_⟩
    obtain rfl | there := cases k hk
    · exact sound.latest.2 h (mem_of_at at') r same
    · exact sound.latest.2 k there r same
  case distinct => exact sound.distinct
  case holdings =>
    intro k hk
    obtain rfl | there := cases k hk
    · exact holding_fresh sound.fresh_handle
    · exact sound.holdings k there
  case plans => exact sound.plans
  case pending =>
    intro p hp k hk same
    obtain rfl | there := cases k hk
    · exact (sound.fresh_plan p hp same.symm).elim
    · exact sound.pending p hp k there same

theorem marks_id : Marks id := ⟨fun _ => rfl, fun _ => rfl, fun _ => rfl⟩

theorem attach {installed : InstalledSubscriptions} (sound : Sound c)
    (at' : c.holdings = before ++ h :: after) (widens : Holding.Widens h.installed installed) :
    Sound { c with holdings := before ++ { h with installed := installed } :: after } := by
  have there := mem_of_at at'
  have held := sound.holdings h there
  have changed : HoldingSound (c.handles.map id) { h with installed := installed } := by
    rw [List.map_id]
    refine ⟨held.tokens, fun id entry here => ?_, fun x hx same recorded open' => ?_,
      fun x hx same k replanned => ?_⟩
    · have filters := widens.filters_eq id
      rw [show installed[id]? = some entry from here, Option.map_some, eq_comm,
        Option.map_eq_some_iff] at filters
      obtain ⟨old, here, filters⟩ := filters
      rw [← filters]
      exact held.running id old here
    · exact widens.mem_iff.mpr (held.kept x hx same recorded open')
    · obtain ⟨recorded, known⟩ := held.replanned x hx same k replanned
      exact ⟨recorded, fun inside => known (widens.mem_iff.mp inside)⟩
  have sound' := sound.replace at' changed rfl rfl (Nat.le_refl _) (sound.latest.2 h there) marks_id
    (fun _ _ => rfl) (fun _ _ _ _ _ => rfl) fun p hp same revision => by
      obtain ⟨kept, closes, attributes⟩ := sound.pending p hp h there same revision
      exact ⟨fun id hid => kept id (widens.mem_iff.mp hid),
        fun id hid => widens.mem_iff.mpr (closes id hid), attributes⟩
  rwa [List.map_id] at sound'

/-- No plan in flight carries a revision that was never issued. -/
theorem stale (sound : Sound c) {p : Installing} (hp : p ∈ c.plans) {Q : Prop}
    (same : some (c.revisions + 1) = some p.revision) : Q := by
  have bound := sound.latest.1 p hp
  rw [← Option.some.inj same] at bound
  exact (Nat.not_succ_le_self _ bound).elim

theorem revise (sound : Sound c) (at' : c.holdings = before ++ h :: after) :
    Sound { c with
      revisions := c.revisions + 1
      holdings := before ++ { h with revision := some (c.revisions + 1) } :: after } := by
  have held := sound.holdings h (mem_of_at at')
  have changed : HoldingSound (c.handles.map id) { h with revision := some (c.revisions + 1) } := by
    rw [List.map_id]
    exact ⟨held.tokens, held.running, held.kept, held.replanned⟩
  have sound' := sound.replace at' changed rfl rfl (Nat.le_succ _)
    (fun r same => (Option.some.inj same).symm.le) marks_id (fun _ _ => rfl) (fun _ _ _ _ _ => rfl)
    fun p hp _ same => sound.stale hp same
  rwa [List.map_id] at sound'

section Replan

variable {constraints : RelayReadConstraints} {plan : SubscriptionPlan} {g : Round}

/-- The mark a plan leaves on one handle it retains. -/
def replanOne (g : Round) (constraints : RelayReadConstraints) (plan : SubscriptionPlan)
    (x : Handle) : Handle :=
  if x.generation = g ∧ plan.attribution.contains x.id then
    { x with replanned := some constraints }
  else x

theorem replanOne_marks : Marks (replanOne g constraints plan) where
  token x := by
    unfold replanOne
    split <;> rfl
  relay x := by
    unfold replanOne
    split <;> rfl
  planned x := by
    unfold replanOne
    split <;> rfl

theorem replanOne_flags (x : Handle) : (replanOne g constraints plan x).recorded = x.recorded ∧
    (replanOne g constraints plan x).cancelled = x.cancelled := by
  unfold replanOne
  split <;> exact ⟨rfl, rfl⟩

theorem replanOne_of_ne {x : Handle} (differs : x.generation ≠ g) :
    replanOne g constraints plan x = x := if_neg fun both => differs both.1

/-- What a plan says of the subscriptions it retains is what its filters and limits
give, and it retains only recorded ones. -/
theorem replanned_recordCompleteness (revision : Option Nat) (sound : Sound c)
    (there : h ∈ c.holdings)
    (lawful : PlanLawful constraints h.installed (c.revisions + 1) plan) :
    HoldingSound (c.handles.map (replanOne h.generation constraints plan))
      (Holding.recordCompleteness { h with revision := revision } plan) := by
  have held := sound.holdings h there
  refine ⟨held.tokens, fun id entry here => ?_, fun x hx same recorded open' => ?_,
    fun x hx same k replanned => ?_⟩
  · obtain ⟨attended, x, hx, token, filters, recorded⟩ := held.running id entry here
    refine ⟨attended, _, List.mem_map.mpr ⟨x, hx, rfl⟩, ?_, ?_, ?_⟩
    · rw [replanOne_marks.token, token]
      rfl
    · rw [replanOne_marks.planned, filters]
    · rw [(replanOne_flags x).1, recorded]
  · obtain ⟨y, hy, rfl⟩ := List.mem_map.mp hx
    rw [replanOne_marks.generation] at same
    rw [(replanOne_flags y).1] at recorded
    rw [(replanOne_flags y).2] at open'
    rw [replanOne_marks.id]
    exact held.kept y hy same recorded open'
  · obtain ⟨y, hy, rfl⟩ := List.mem_map.mp hx
    rw [replanOne_marks.generation] at same
    rw [(replanOne_flags y).1, replanOne_marks.id, replanOne_marks.planned]
    by_cases attributed : y.id ∈ plan.attribution
    · obtain ⟨a, found⟩ := Option.isSome_iff_exists.mp
        (ExtTreeMap.mem_iff_isSome_getElem?.mp attributed)
      obtain ⟨-, proves, entry, here, filters⟩ := lawful.attributes y.id a found
      obtain ⟨-, x, hx, token, planned, recorded⟩ := held.running y.id entry here
      have token' : y.token = ⟨h.generation, y.id⟩ := congrArg (Token.mk · y.id) same
      obtain rfl := handle_eq sound.named hx hy (token.trans token'.symm)
      have chosen : k = constraints := by
        rw [replanOne, if_pos ⟨same, ExtTreeMap.contains_iff_mem.mpr attributed⟩] at replanned
        exact (Option.some.inj replanned).symm
      refine ⟨recorded, fun _ => ?_⟩
      rw [Holding.recordCompleteness_eq_some found, proves, filters, ← planned, chosen]
    · rw [replanOne, if_neg fun both => attributed (ExtTreeMap.contains_iff_mem.mp both.2)]
        at replanned
      obtain ⟨recorded, known⟩ := held.replanned y hy same k replanned
      refine ⟨recorded, fun inside => ?_⟩
      rw [Holding.recordCompleteness_of_not_mem attributed]
      exact known inside

end Replan

/-- With nothing to close, a plan keeps everything that runs. -/
theorem mem_accepted_of_noop {constraints : RelayReadConstraints} {plan : SubscriptionPlan}
    {revision : Nat} {id : SubscriptionId} (noop : plan.isNoop = true)
    (lawful : PlanLawful constraints h.installed revision plan) :
    id ∈ Holding.accepted h.installed plan [] [] ↔ id ∈ h.installed := by
  rw [SubscriptionPlan.isNoop, Bool.and_eq_true, List.isEmpty_iff, List.isEmpty_iff] at noop
  rw [Holding.mem_accepted (Nat.zero_le _)]
  simp only [List.not_mem_nil, false_or, not_false_eq_true, true_and]
  refine ⟨fun both => both.1, fun inside => ⟨inside, ?_⟩⟩
  obtain gone | stays := lawful.kept id inside
  · rw [noop.2] at gone
    cases gone
  · exact stays

theorem retain {constraints : RelayReadConstraints} {plan : SubscriptionPlan} (sound : Sound c)
    (at' : c.holdings = before ++ h :: after)
    (lawful : PlanLawful constraints h.installed (c.revisions + 1) plan)
    (noop : plan.isNoop = true) :
    Sound { c with
      revisions := c.revisions + 1
      handles := Engine.replan h.generation constraints plan c.handles
      holdings := before ++ ((Holding.recordCompleteness
        { h with revision := some (c.revisions + 1) } plan).recordInstalled plan [] []) :: after } := by
  have there := mem_of_at at'
  have held := sound.replanned_recordCompleteness (some (c.revisions + 1)) there lawful
  refine sound.replace at' ⟨held.tokens, fun id entry here => ?_, fun x hx same recorded open' => ?_,
      fun x hx same k replanned => ?_⟩ rfl rfl (Nat.le_succ _)
    (fun r same => (Option.some.inj same).symm.le) replanOne_marks (fun x => replanOne_of_ne)
    (fun _ _ x _ _ => (replanOne_flags x).1) fun p hp _ same => sound.stale hp same
  · obtain ⟨planned, opened, -⟩ | ⟨current, here', attributed, -, rfl⟩ := Holding.accepted_eq_some here
    · cases Holding.opened_of_opening opened
    · exact held.running id current here'
  · exact (mem_accepted_of_noop noop lawful).mpr (held.kept x hx same recorded open')
  · obtain ⟨recorded, known⟩ := held.replanned x hx same k replanned
    refine ⟨recorded, fun inside => ?_⟩
    rw [Holding.recordInstalled_completeness inside]
    exact known ((mem_accepted_of_noop noop lawful).mp inside)

/-- A plan sent on its way against the current baseline. -/
theorem add (sound : Sound c) (added : plans.Perm (done :: c.plans)) (fresh : done.opened = [])
    (newest : done.revision ≤ c.revisions) (unique : ∀ p ∈ c.plans, p.revision ≠ done.revision)
    (there : h ∈ c.holdings) (generation : h.generation = done.generation)
    (relay : h.relay = done.relay) (baseline : Baseline h done.plan) :
    Sound { c with plans := plans } := by
  have cases : ∀ p ∈ plans, p = done ∨ p ∈ c.plans := fun p hp => by
    simpa using added.mem_iff.mp hp
  have only : ∀ k ∈ c.holdings, k.generation = done.generation → k = h := fun k hk same =>
    List.inj_on_of_nodup_map sound.apart hk there (same.trans generation.symm)
  constructor
  case apart => exact sound.apart
  case issued => exact sound.issued
  case named => exact sound.named
  case governed => exact sound.governed
  case relays =>
    intro p hp
    obtain rfl | old := cases p hp
    · refine ⟨generation ▸ sound.issued h there, fun k hk same => ?_⟩
      rw [only k hk same, relay]
    · exact sound.relays p old
  case homes => exact sound.homes
  case flying =>
    intro p hp
    obtain rfl | old := cases p hp
    · exact .inl ⟨h, there, generation⟩
    · exact sound.flying p old
  case revised =>
    rw [(added.map _).nodup_iff, List.map_cons, List.nodup_cons]
    refine ⟨fun again => ?_, sound.revised⟩
    obtain ⟨p, hp, same⟩ := List.mem_map.mp again
    exact unique p hp same
  case latest =>
    refine ⟨fun p hp => ?_, sound.latest.2⟩
    obtain rfl | old := cases p hp
    · exact newest
    · exact sound.latest.1 p old
  case distinct =>
    rw [(added.flatMap_right _).nodup_iff, List.flatMap_cons, Installing.tokens, fresh]
    exact sound.distinct
  case holdings => exact sound.holdings
  case plans =>
    intro p hp
    obtain rfl | old := cases p hp
    · refine ⟨by simp [fresh], fun e he => ?_⟩
      have := Holding.opened_of_opening he
      rw [fresh] at this
      cases this
    · exact sound.plans p old
  case pending =>
    intro p hp k hk same
    obtain rfl | old := cases p hp
    · rw [only k hk same]
      exact fun _ => baseline
    · exact sound.pending p old k hk same

theorem install {constraints : RelayReadConstraints} {plan : SubscriptionPlan} (sound : Sound c)
    (at' : c.holdings = before ++ h :: after)
    (lawful : PlanLawful constraints h.installed (c.revisions + 1) plan)
    (added : plans.Perm (⟨h.relay, h.generation, c.revisions + 1, plan, []⟩ :: c.plans)) :
    Sound { c with
      revisions := c.revisions + 1
      plans := plans
      handles := Engine.replan h.generation constraints plan c.handles
      holdings := before ++ (Holding.recordCompleteness
        { h with revision := some (c.revisions + 1) } plan) :: after } := by
  have held := sound.replanned_recordCompleteness (some (c.revisions + 1)) (mem_of_at at') lawful
  have replaced := sound.replace at' held rfl rfl (Nat.le_succ _)
    (fun r same => (Option.some.inj same).symm.le) replanOne_marks (fun x => replanOne_of_ne)
    (fun _ _ x _ _ => (replanOne_flags x).1) fun p hp _ same => sound.stale hp same
  refine replaced.add added rfl (Nat.le_refl _) (fun p hp same => ?_)
    (List.mem_append_right _ List.mem_cons_self) rfl rfl ⟨lawful.kept, lawful.closes, ?_⟩
  · exact sound.stale hp (congrArg some same.symm)
  · intro id attributed
    obtain ⟨a, found⟩ := Option.isSome_iff_exists.mp
      (ExtTreeMap.mem_iff_isSome_getElem?.mp attributed)
    exact (lawful.attributes id a found).1

/-- What a plan has opened is open. -/
theorem exists_handle (sound : Sound c) (inside : done ∈ c.plans) {t : Token}
    (named : t ∈ done.tokens) : ∃ x ∈ c.handles, x.token = t ∧ x.recorded = false := by
  obtain ⟨id, hid, rfl⟩ := List.mem_map.mp named
  obtain ⟨o, ho, rfl⟩ := List.mem_filterMap.mp hid
  obtain ⟨planned, member⟩ := Holding.exists_opening (sound.plans done inside).short ho
  obtain ⟨x, hx, token, -, recorded⟩ := (sound.plans done inside).opened _ member
  exact ⟨x, hx, token, recorded⟩

/-- A handle opened for a slot or for one that is gone, and not yet recorded. -/
theorem extend {x : Handle} (sound : Sound c) (fresh : ∀ y ∈ c.handles, y.token ≠ x.token)
    (bound : x.generation ≤ c.rounds)
    (governed : (∃ h ∈ c.holdings, h.generation = x.generation) ∨ x.generation ∈ c.fired)
    (home : ∀ h ∈ c.holdings, h.generation = x.generation → h.relay = x.relay)
    (recorded : x.recorded = false) (replanned : x.replanned = none) :
    Sound { c with handles := c.handles ++ [x] } := by
  have cases : ∀ y ∈ c.handles ++ [x], y ∈ c.handles ∨ y = x := by simp
  constructor
  case apart => exact sound.apart
  case issued => exact sound.issued
  case named =>
    change ((c.handles ++ [x]).map Handle.token).Nodup
    rw [List.map_append, List.nodup_append]
    refine ⟨sound.named, by simp, fun t ht t' ht' => ?_⟩
    obtain ⟨y, hy, rfl⟩ := List.mem_map.mp ht
    obtain rfl : t' = x.token := by simpa using ht'
    exact fresh y hy
  case governed =>
    intro y hy
    obtain old | rfl := cases y hy
    · exact sound.governed y old
    · exact ⟨bound, governed⟩
  case relays => exact sound.relays
  case homes =>
    intro y hy
    obtain old | rfl := cases y hy
    · exact sound.homes y old
    · exact home
  case flying => exact sound.flying
  case revised => exact sound.revised
  case latest => exact sound.latest
  case distinct => exact sound.distinct
  case holdings =>
    intro h hh
    have held := sound.holdings h hh
    refine ⟨held.tokens, fun id entry here => ?_, fun y hy same => ?_, fun y hy same k => ?_⟩
    · obtain ⟨attended, y, hy, rest⟩ := held.running id entry here
      exact ⟨attended, y, by simp [hy], rest⟩
    · obtain old | rfl := cases y hy
      · exact held.kept y old same
      · simp [recorded]
    · obtain old | rfl := cases y hy
      · exact held.replanned y old same k
      · simp [replanned]
  case plans =>
    intro p hp
    refine ⟨(sound.plans p hp).short, fun e he => ?_⟩
    obtain ⟨y, hy, rest⟩ := (sound.plans p hp).opened e he
    exact ⟨y, by simp [hy], rest⟩
  case pending => exact sound.pending

/-- One more answer to an installation. -/
theorem answer {rest : List Installing} {opened : List (Option SubscriptionId)} (sound : Sound c)
    (took : c.plans.Perm (done :: rest)) (onto : plans.Perm ({ done with opened := opened } :: rest))
    (held : PlanSound c.handles { done with opened := opened })
    (distinct : (Installing.tokens { done with opened := opened }).Nodup)
    (others : ∀ t ∈ Installing.tokens { done with opened := opened }, t ∈ done.tokens ∨
      ∀ p ∈ c.plans, t ∉ p.tokens) : Sound { c with plans := plans } := by
  have inside : done ∈ c.plans := took.mem_iff.mpr (by simp)
  have cases : ∀ p ∈ plans, p = { done with opened := opened } ∨ p ∈ c.plans := by
    intro p hp
    obtain rfl | old := List.mem_cons.mp (onto.mem_iff.mp hp)
    · exact .inl rfl
    · exact .inr (took.mem_iff.mpr (by simp [old]))
  constructor
  case apart => exact sound.apart
  case issued => exact sound.issued
  case named => exact sound.named
  case governed => exact sound.governed
  case relays =>
    intro p hp
    obtain rfl | old := cases p hp
    · exact sound.relays done inside
    · exact sound.relays p old
  case homes => exact sound.homes
  case flying =>
    intro p hp
    obtain rfl | old := cases p hp
    · exact sound.flying done inside
    · exact sound.flying p old
  case revised =>
    have revised := (took.map Installing.revision).nodup_iff.mp sound.revised
    exact (onto.map _).nodup_iff.mpr revised
  case latest =>
    refine ⟨fun p hp => ?_, sound.latest.2⟩
    obtain rfl | old := cases p hp
    · exact sound.latest.1 done inside
    · exact sound.latest.1 p old
  case distinct =>
    have apart := (took.flatMap_right Installing.tokens).nodup_iff.mp sound.distinct
    rw [List.flatMap_cons, List.nodup_append] at apart
    rw [(onto.flatMap_right _).nodup_iff, List.flatMap_cons, List.nodup_append]
    refine ⟨distinct, apart.2.1, fun t ht t' ht' => ?_⟩
    rintro rfl
    obtain old | new := others t ht
    · exact apart.2.2 t old t ht' rfl
    · obtain ⟨p, hp, named⟩ := List.mem_flatMap.mp ht'
      exact new p (took.mem_iff.mpr (by simp [hp])) named
  case holdings => exact sound.holdings
  case plans =>
    intro p hp
    obtain rfl | old := cases p hp
    · exact held
    · exact sound.plans p old
  case pending =>
    intro p hp
    obtain rfl | old := cases p hp
    · exact sound.pending done inside
    · exact sound.pending p old

theorem tokens_append {outcome : Option SubscriptionId} :
    Installing.tokens { done with opened := done.opened ++ [outcome] } =
      done.tokens ++ (outcome.map (Token.mk done.generation)).toList := by
  unfold Installing.tokens
  rw [List.filterMap_append, List.map_append]
  cases outcome <;> rfl

theorem tokens_nodup (sound : Sound c) (inside : done ∈ c.plans) : done.tokens.Nodup :=
  (List.nodup_flatMap.mp sound.distinct).1 done inside

theorem deny {rest : List Installing} (sound : Sound c)
    (short : done.opened.length < done.plan.opens.length) (took : c.plans.Perm (done :: rest))
    (onto : plans.Perm ({ done with opened := done.opened ++ [none] } :: rest)) :
    Sound { c with plans := plans } := by
  have inside : done ∈ c.plans := took.mem_iff.mpr (by simp)
  have tokens : Installing.tokens { done with opened := done.opened ++ [none] } = done.tokens := by
    rw [tokens_append]
    simp
  refine sound.answer took onto ⟨?_, fun e he => ?_⟩ ?_ fun t ht => .inl ?_
  · rw [List.length_append]
    exact short
  · have next := List.getElem?_eq_getElem short
    rw [Holding.opening_append next] at he
    exact (sound.plans done inside).opened e (by simpa using he)
  · rw [tokens]
    exact sound.tokens_nodup inside
  · rwa [tokens] at ht

theorem subscribe {rest : List Installing} {id : SubscriptionId} {planned : PlannedSubscription}
    (sound : Sound c) (next : done.plan.opens[done.opened.length]? = some planned)
    (fresh : ∀ x ∈ c.handles, x.token ≠ ⟨done.generation, id⟩) (took : c.plans.Perm (done :: rest))
    (onto : plans.Perm ({ done with opened := done.opened ++ [some id] } :: rest)) :
    Sound { c with
      plans := plans
      handles := c.handles ++ [⟨done.relay, done.generation, id, planned, false, false, none⟩] } := by
  have inside : done ∈ c.plans := took.mem_iff.mpr (by simp)
  have opened := sound.extend (x := ⟨done.relay, done.generation, id, planned, false, false, none⟩)
    fresh (sound.relays done inside).1 (sound.flying done inside) (sound.relays done inside).2 rfl rfl
  have unused : ∀ p ∈ c.plans, (⟨done.generation, id⟩ : Token) ∉ p.tokens := by
    intro p hp named
    obtain ⟨x, hx, token, -⟩ := sound.exists_handle hp named
    exact fresh x hx token
  refine opened.answer took onto ⟨?_, fun e he => ?_⟩ ?_ fun t ht => ?_
  · rw [List.length_append]
    exact (List.getElem?_eq_some_iff.mp next).1
  · rw [Holding.opening_append next, List.mem_append] at he
    obtain old | new := he
    · exact (opened.plans done inside).opened e old
    · obtain rfl : e = (id, planned) := by simpa using new
      exact ⟨⟨done.relay, done.generation, id, planned, false, false, none⟩, by simp, rfl, rfl, rfl⟩
  · rw [tokens_append, List.nodup_append]
    refine ⟨sound.tokens_nodup inside, by simp, fun t ht t' ht' => ?_⟩
    rintro rfl
    obtain rfl : t = ⟨done.generation, id⟩ := by simpa using ht'
    exact unused done inside ht
  · rw [tokens_append, List.mem_append] at ht
    obtain old | new := ht
    · exact .inl old
    · obtain rfl : t = ⟨done.generation, id⟩ := by simpa using new
      exact .inr unused

section Accept

variable {tokens : List Token}

/-- The mark an accepted report leaves on one handle. -/
def acceptOne (done : Installing) (tokens : List Token) (x : Handle) : Handle :=
  let recorded :=
    if x.generation = done.generation ∧ some x.id ∈ done.opened then { x with recorded := true }
    else x
  if recorded.token ∈ tokens then { recorded with cancelled := true } else recorded

theorem accept_eq {handles : List Handle} :
    cancelled tokens (Engine.record done handles) = handles.map (acceptOne done tokens) := by
  rw [cancelled, Engine.record, List.map_map]
  rfl

theorem acceptOne_spec (x : Handle) : (acceptOne done tokens x).token = x.token ∧
    (acceptOne done tokens x).relay = x.relay ∧
    (acceptOne done tokens x).planned = x.planned ∧
    (acceptOne done tokens x).replanned = x.replanned ∧
    ((acceptOne done tokens x).recorded = true ↔
      x.recorded = true ∨ x.generation = done.generation ∧ some x.id ∈ done.opened) ∧
    ((acceptOne done tokens x).cancelled = true ↔ x.cancelled = true ∨ x.token ∈ tokens) := by
  have token : { x with recorded := true }.token = x.token := rfl
  unfold acceptOne
  dsimp only
  by_cases given : x.generation = done.generation ∧ some x.id ∈ done.opened
  · rw [if_pos given, token]
    by_cases dropped : x.token ∈ tokens
    · rw [if_pos dropped]
      exact ⟨rfl, rfl, rfl, rfl, by simp [given], by simp [dropped]⟩
    · rw [if_neg dropped]
      exact ⟨rfl, rfl, rfl, rfl, by simp [given], by simp [dropped]⟩
  · rw [if_neg given]
    by_cases dropped : x.token ∈ tokens
    · rw [if_pos dropped]
      exact ⟨rfl, rfl, rfl, rfl, by simp [given], by simp [dropped]⟩
    · rw [if_neg dropped]
      exact ⟨rfl, rfl, rfl, rfl, by simp [given], by simp [dropped]⟩

theorem acceptOne_marks : Marks (acceptOne done tokens) :=
  ⟨fun x => (acceptOne_spec x).1, fun x => (acceptOne_spec x).2.1,
    fun x => (acceptOne_spec x).2.2.1⟩

theorem mem_tokens {x : Handle} :
    x.token ∈ done.tokens ↔ x.generation = done.generation ∧ some x.id ∈ done.opened := by
  simp [Installing.tokens, Handle.token, eq_comm, and_comm]

/-- The slot of an accepted report: what the plan opened is new to it. -/
theorem not_installed_of_opened (sound : Sound c) (inside : done ∈ c.plans) (there : h ∈ c.holdings)
    (generation : h.generation = done.generation) {id : SubscriptionId}
    (given : some id ∈ done.opened) : id ∉ h.installed := by
  intro member
  obtain ⟨entry, here⟩ := Option.isSome_iff_exists.mp
    (ExtTreeMap.mem_iff_isSome_getElem?.mp member)
  obtain ⟨-, x, hx, token, -, recorded⟩ := (sound.holdings h there).running id entry here
  have named : x.token ∈ done.tokens := by
    rw [token, generation]
    exact List.mem_map.mpr ⟨id, List.mem_filterMap.mpr ⟨some id, given, rfl⟩, rfl⟩
  obtain ⟨y, hy, same, unrecorded⟩ := sound.exists_handle inside named
  obtain rfl := handle_eq sound.named hy hx same
  rw [recorded] at unrecorded
  cases unrecorded

theorem attended_accepted (sound : Sound c) (inside : done ∈ c.plans) (there : h ∈ c.holdings)
    (generation : h.generation = done.generation) (baseline : Baseline h done.plan)
    {id : SubscriptionId}
    (member : id ∈ Holding.accepted h.installed done.plan done.opened done.plan.close) :
    (h.attend (done.opened.filterMap fun o => o) done.plan.close).1.attending[id]? =
      some ⟨h.generation, id⟩ := by
  have held := sound.holdings h there
  change (done.plan.close.foldl _ _)[id]? = _
  rw [Holding.getElem?_eraseAll]
  obtain given | ⟨running, stays, -⟩ :=
    (Holding.mem_accepted (sound.plans done inside).short).mp member
  · rw [if_neg fun gone => sound.not_installed_of_opened inside there generation given
      (baseline.closes id gone)]
    exact Holding.attending_opened held.tokens
      (.inl (List.mem_filterMap.mpr ⟨some id, given, rfl⟩))
  · rw [if_neg stays]
    obtain ⟨entry, here⟩ := Option.isSome_iff_exists.mp
      (ExtTreeMap.mem_iff_isSome_getElem?.mp running)
    exact Holding.attending_opened held.tokens (.inr (held.running id entry here).1)

/-- The accepted report leaves a holding that its handles agree with. -/
theorem accepted_holding (sound : Sound c) (inside : done ∈ c.plans) (there : h ∈ c.holdings)
    (generation : h.generation = done.generation) (baseline : Baseline h done.plan) :
    HoldingSound (c.handles.map (acceptOne done
        (h.attend (done.opened.filterMap fun o => o) done.plan.close).2))
      ((h.attend (done.opened.filterMap fun o => o) done.plan.close).1.recordInstalled done.plan
        done.opened done.plan.close) := by
  have held := sound.holdings h there
  have short := (sound.plans done inside).short
  refine ⟨fun id t here => ?_, fun id entry here => ?_, fun x hx same recorded open' => ?_,
    fun x hx same k replanned => ?_⟩
  · change (done.plan.close.foldl _ _)[id]? = _ at here
    rw [Holding.getElem?_eraseAll, Option.ite_none_left_eq_some] at here
    obtain ⟨c, listed, rfl⟩ | ⟨old, -⟩ := BTreeMap.insertAll_eq_some here.2
    · obtain ⟨d, -, eq⟩ := List.mem_map.mp listed
      cases eq
      rfl
    · exact held.tokens id t old
  · have member : id ∈ Holding.accepted h.installed done.plan done.opened done.plan.close := by
      rw [ExtTreeMap.mem_iff_isSome_getElem?]
      exact Option.isSome_of_eq_some here
    have attended := sound.attended_accepted inside there generation baseline member
    refine ⟨ExtTreeMap.mem_iff_isSome_getElem?.mpr (Option.isSome_of_eq_some attended), ?_⟩
    obtain ⟨planned, opened, rfl⟩ | ⟨current, running, attributed, -, rfl⟩ :=
      Holding.accepted_eq_some here
    · obtain ⟨x, hx, token, rfl, -⟩ := (sound.plans done inside).opened _ opened
      have named : x.token ∈ done.tokens := by
        rw [token]
        exact List.mem_map.mpr ⟨id, List.mem_filterMap.mpr
          ⟨some id, Holding.opened_of_opening opened, rfl⟩, rfl⟩
      refine ⟨_, List.mem_map.mpr ⟨x, hx, rfl⟩, ?_, ?_, ?_⟩
      · rw [acceptOne_marks.token, token, ← generation]
        rfl
      · rw [acceptOne_marks.planned]
      · exact (acceptOne_spec x).2.2.2.2.1.mpr (.inr (mem_tokens.mp named))
    · obtain ⟨-, x, hx, token, same, recorded⟩ := held.running id current running
      refine ⟨_, List.mem_map.mpr ⟨x, hx, rfl⟩, ?_, ?_, ?_⟩
      · rw [acceptOne_marks.token, token]
        rfl
      · rw [acceptOne_marks.planned, same]
      · exact (acceptOne_spec x).2.2.2.2.1.mpr (.inl recorded)
  · obtain ⟨y, hy, rfl⟩ := List.mem_map.mp hx
    rw [acceptOne_marks.generation] at same
    rw [acceptOne_marks.id]
    change y.id ∈ Holding.accepted h.installed done.plan done.opened done.plan.close
    rw [Holding.mem_accepted short]
    obtain earlier | given := (acceptOne_spec y).2.2.2.2.1.mp recorded
    · rw [← Bool.not_eq_true, (acceptOne_spec y).2.2.2.2.2, not_or, Bool.not_eq_true] at open'
      have running := held.kept y hy same earlier open'.1
      -- A closed one would have given its token back.
      have stays : y.id ∉ done.plan.close := by
        intro gone
        obtain ⟨entry, here⟩ := Option.isSome_iff_exists.mp
          (ExtTreeMap.mem_iff_isSome_getElem?.mp running)
        refine open'.2 (List.mem_filterMap.mpr ⟨y.id, gone, ?_⟩)
        rw [Holding.attending_opened held.tokens (.inr (held.running y.id entry here).1)]
        exact congrArg (fun g => some (Token.mk g y.id)) same.symm
      exact .inr ⟨running, stays, (baseline.kept y.id running).resolve_left stays⟩
    · exact .inl given.2
  · obtain ⟨y, hy, rfl⟩ := List.mem_map.mp hx
    rw [acceptOne_marks.generation] at same
    rw [(acceptOne_spec y).2.2.2.1] at replanned
    obtain ⟨recorded, known⟩ := held.replanned y hy same k replanned
    refine ⟨(acceptOne_spec y).2.2.2.2.1.mpr (.inl recorded), fun member => ?_⟩
    rw [Holding.recordInstalled_completeness member, acceptOne_marks.id, acceptOne_marks.planned]
    apply known
    rw [acceptOne_marks.id] at member
    obtain given | running := (Holding.mem_accepted short).mp member
    · have named : y.token ∈ done.tokens := mem_tokens.mpr ⟨same.trans generation, given⟩
      obtain ⟨z, hz, token, unrecorded⟩ := sound.exists_handle inside named
      obtain rfl := handle_eq sound.named hz hy token
      rw [recorded] at unrecorded
      cases unrecorded
    · exact running.1

theorem accept (sound : Sound c) (took : c.plans.Perm (done :: plans))
    (at' : c.holdings = before ++ h :: after) (generation : h.generation = done.generation)
    (revision : h.revision = some done.revision) :
    Sound { c with
      plans := plans
      handles := cancelled (h.attend (done.opened.filterMap id) done.plan.close).2
        (Engine.record done c.handles)
      holdings := before ++ ((h.attend (done.opened.filterMap id) done.plan.close).1.recordInstalled
        done.plan done.opened done.plan.close) :: after } := by
  have inside : done ∈ c.plans := took.mem_iff.mpr (by simp)
  have there := mem_of_at at'
  have baseline := sound.pending done inside h there generation revision
  have distinct := (took.flatMap_right Installing.tokens).nodup_iff.mp sound.distinct
  have revised := (took.map Installing.revision).nodup_iff.mp sound.revised
  rw [List.flatMap_cons, List.nodup_append] at distinct
  rw [List.map_cons, List.nodup_cons] at revised
  rw [accept_eq]
  refine (sound.drop took).replace at' (sound.accepted_holding inside there generation baseline) rfl
    rfl (Nat.le_refl _) (sound.latest.2 h there) acceptOne_marks ?_ ?_ ?_
  · intro x differs
    have others : ¬(x.generation = done.generation ∧ some x.id ∈ done.opened) :=
      fun both => differs (both.1.trans generation.symm)
    have spared : x.token ∉ (h.attend (done.opened.filterMap id) done.plan.close).2 := by
      intro dropped
      obtain ⟨id, -, held⟩ := List.mem_filterMap.mp dropped
      obtain ⟨c, listed, same⟩ | ⟨old, -⟩ := BTreeMap.insertAll_eq_some held
      · exact differs (congrArg Token.generation same)
      · exact differs (congrArg Token.generation ((sound.holdings h there).tokens id _ old))
    unfold acceptOne
    dsimp only
    rw [if_neg others, if_neg spared]
  · intro p hp x hx named
    have given : ¬(x.generation = done.generation ∧ some x.id ∈ done.opened) := by
      intro both
      exact distinct.2.2 x.token (mem_tokens.mpr both) x.token
        (List.mem_flatMap.mpr ⟨p, hp, named⟩) rfl
    rw [Bool.eq_iff_iff, (acceptOne_spec x).2.2.2.2.1]
    simp only [given, or_false]
  · intro p hp _ same
    change h.revision = some p.revision at same
    rw [revision, Option.some.injEq] at same
    exact (revised.1 (List.mem_map.mpr ⟨p, hp, same.symm⟩)).elim

end Accept

end Sound

variable {G : Core → Round → Prop} {c c' : Core}

/-- What one effect preserves. -/
theorem Effect.sound (effect : Effect G c c') (sound : Sound c) : Sound c' := by
  cases effect with
  | shuffle same => exact sound.shuffle same
  | release sub dropped more => exact sound.release sub dropped more
  | issue => exact sound.issue
  | establish relay => exact sound.establish relay
  | advance at' => exact sound.advance at'
  | attach at' widens => exact sound.attach at' widens
  | revise at' _ => exact sound.revise at'
  | retain at' _ lawful noop => exact sound.retain at' lawful noop
  | install at' _ lawful added => exact sound.install at' lawful added
  | deny short took onto => exact sound.deny short took onto
  | subscribe next fresh took onto => exact sound.subscribe next fresh took onto
  | discard took _ => exact sound.drop took
  | accept took at' generation revision => exact sound.accept took at' generation revision

theorem Effects.sound (effects : Effects G c c') (sound : Sound c) : Sound c' := by
  induction effects with
  | refl => exact sound
  | tail _ effect ih => exact effect.sound ih

theorem Engine.start_sound : Sound Engine.start.core := by
  constructor <;> simp [Engine.core, Engine.plans, Engine.start]

/-- A slot is found under its relay and its generation. -/
theorem Engine.slot_eq_some {e : Engine} (sound : Sound e.core) {s : Slot} (hs : s ∈ e.slots) :
    e.slot s.relay s.generation = some s := by
  obtain ⟨t, found⟩ : ∃ t, e.slot s.relay s.generation = some t := by
    rw [← Option.isSome_iff_exists, slot, List.find?_isSome]
    exact ⟨s, hs, by simp [isSlot]⟩
  obtain ⟨-, generation, -, before, after, split, -⟩ := slots_split found
  have apart := sound.apart
  rw [core, List.map_map] at apart
  have member : t ∈ e.slots := by simp [split]
  rw [found, List.inj_on_of_nodup_map apart member hs generation]

/-- Every state the engine reaches is sound. -/
theorem run_sound {P : Providers} {guard : Engine → Action → Prop} {acts : List Action} {e : Engine}
    (run : Run (step P) guard .start acts e) : Sound e.core := by
  refine run.invariant (Sound ·.core) Engine.start_sound fun e a e' sound _ stepped => ?_
  have effects : Effects (fun _ _ => True) e.core e'.core :=
    step_effects (fun _ _ _ => trivial) stepped
  exact effects.sound sound

end Fava.Observe
