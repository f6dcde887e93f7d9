import Fava.Observe.Live
import Fava.State.Identity

namespace Fava.Observe.Evidence

open Std Fava.Lib Fava.Nostr Fava.Relay Fava.Subscriptions Fava.State

/-- The largest identifier, which is issued again and again. -/
def lastId : ObservationId := 2 ^ 64 - 1

/-- Every child has a public observation for its parent, which lists it and has it as its
current generation if it is active. What is listed is no parent. -/
structure State.Rooted (s : State) : Prop where
  bounded : s.next ≤ lastId
  issued : ∀ id u, s.ties id = some u → id ≤ s.next ∧ (u.publicId = id ∨ u.publicId < id)
  owned : ∀ id u, s.ties id = some u → u.publicId ≠ id → ∃ p, s.ties u.publicId = some p ∧
    p.publicId = u.publicId ∧ id ∈ p.children ∧ (u.active = true → p.activeChild = some id)
  listed : ∀ (q : ObservationId) (p : Ties) (r : ObservationId), s.ties q = some p →
    r ∈ p.children ∨ p.activeChild = some r →
      r ≤ s.next ∧ ∀ u, s.ties r = some u → u.publicId = r → r = lastId

/-- Children are only installed for public observations. -/
def State.Op.forPublic (s : State) : State.Op → Bool
  | .installChild parent => (s.observations[parent]?).all fun p => p.publicId = parent
  | _ => true

namespace State

variable {s t : State} {id parent child q r : ObservationId} {u v p : Ties}

theorem le_bump (bounded : s.next ≤ lastId) : s.next ≤ bump s.next ∧ bump s.next ≤ lastId ∧
    (s.next = bump s.next → s.next = lastId) := by
  unfold bump lastId at *
  omega

theorem start_rooted : start.Rooted := by
  refine ⟨Nat.zero_le _, ?_, ?_, ?_⟩ <;> simp [ties, start]

/-- What is listed, or was current, has no children of its own. -/
theorem Rooted.barren (rooted : s.Rooted) (here : s.ties q = some p)
    (listed : r ∈ p.children ∨ p.activeChild = some r) (there : s.ties id = some u)
    (owner : u.publicId = r) : id = r := by
  by_contra child
  have apart : u.publicId ≠ id := owner.symm ▸ Ne.symm child
  obtain ⟨parent, found, root, -⟩ := rooted.owned id u there apart
  obtain ⟨known, below⟩ := rooted.issued id u there
  rw [owner] at found root
  have last := (rooted.listed q p r here listed).2 parent found root
  have young := below.resolve_left apart
  have bounded := rooted.bounded
  rw [owner, last] at young
  exact absurd (known.trans bounded) (Nat.not_le_of_lt young)

theorem Rooted.of_ties (rooted : s.Rooted) (next : t.next = s.next) (same : t.ties = s.ties) :
    t.Rooted := by
  refine ⟨next ▸ rooted.bounded, ?_, ?_, ?_⟩
  · rw [same, next]
    exact rooted.issued
  · rw [same]
    exact rooted.owned
  · rw [same, next]
    exact rooted.listed

/-- An operation that installs nothing keeps what is listed in order. -/
theorem Rooted.shrink (rooted : s.Rooted) (next : t.next = s.next)
    (old : ∀ q u, t.ties q = some u → ∃ v, s.ties q = some v ∧ u.publicId = v.publicId ∧
      (∀ r ∈ u.children, r ∈ v.children) ∧
      ∀ r, u.activeChild = some r → v.activeChild = some r ∨ r ∈ v.children)
    (owned : ∀ id u, t.ties id = some u → u.publicId ≠ id → ∃ p, t.ties u.publicId = some p ∧
      p.publicId = u.publicId ∧ id ∈ p.children ∧ (u.active = true → p.activeChild = some id)) :
    t.Rooted := by
  refine ⟨next ▸ rooted.bounded, fun q u here => ?_, owned, fun q p r here listed => ?_⟩
  · obtain ⟨v, before, owner, -⟩ := old q u here
    rw [next, owner]
    exact rooted.issued q v before
  · obtain ⟨v, before, -, children, current⟩ := old q p here
    have listed' : r ∈ v.children ∨ v.activeChild = some r := by
      obtain listed | runs := listed
      · exact .inl (children r listed)
      · exact (current r runs).symm
    obtain ⟨known, last⟩ := rooted.listed q v r before listed'
    refine ⟨next ▸ known, fun u there root => ?_⟩
    obtain ⟨w, before', owner, -⟩ := old r u there
    exact last w before' (owner.symm.trans root)

theorem Rooted.installFor {owner : Option ObservationId} (rooted : s.Rooted)
    (root : ∀ p, owner = some p → ∀ u, s.ties p = some u → u.publicId = p)
    (h : s.installFor owner = some t) : t.Rooted := by
  obtain ⟨below, bounded, last⟩ := le_bump rooted.bounded
  obtain ⟨known, next, ties⟩ := ties_installFor h
  generalize bump s.next = new at below bounded last next ties
  have parent : ∀ p, owner = some p → p ≤ new := by
    intro p is
    obtain ⟨u, here⟩ := Option.isSome_iff_exists.mp (known p is)
    exact (rooted.issued p u here).1.trans below
  -- An observation of before, but for the children it lists.
  have old : ∀ q u, t.ties q = some u → q ≠ new → ∃ v, s.ties q = some v ∧
      u.publicId = v.publicId ∧ u.active = v.active ∧ u.activeChild = v.activeChild ∧
        (∀ r ∈ v.children, r ∈ u.children) ∧
          ∀ r ∈ u.children, r ∈ v.children ∨ r = new ∧ owner = some q := by
    intro q u here other
    rw [ties, if_neg other] at here
    obtain ⟨v, before, rfl⟩ := Option.map_eq_some_iff.mp here
    refine ⟨v, before, ?_⟩
    split
    · rename_i owns
      refine ⟨rfl, rfl, rfl, fun r listed => BTreeSet.mem_insert.mpr (.inr listed), fun r listed => ?_⟩
      obtain rfl | before := BTreeSet.mem_insert.mp listed
      · exact .inr ⟨rfl, owns⟩
      · exact .inl before
    · exact ⟨rfl, rfl, rfl, fun r listed => listed, fun r listed => .inl listed⟩
  have young : ∀ u, t.ties new = some u → u.publicId = owner.getD new ∧ u.active = owner.isNone ∧
      u.activeChild = none ∧ ∀ r ∈ u.children, r = new ∧ owner = some new := by
    intro u here
    rw [ties, if_pos rfl, Option.map_some, Option.some.injEq] at here
    subst here
    split
    · rename_i owns
      refine ⟨rfl, rfl, rfl, fun r listed => ?_⟩
      obtain rfl | nothing := BTreeSet.mem_insert.mp listed
      · exact ⟨rfl, owns⟩
      · exact absurd nothing ExtTreeSet.not_mem_empty
    · exact ⟨rfl, rfl, rfl, fun r nothing => absurd nothing ExtTreeSet.not_mem_empty⟩
  refine ⟨next ▸ bounded, fun q u here => ?_, fun q u here child => ?_, fun q p r here listed => ?_⟩
  · rw [next]
    by_cases fresh : q = new
    · subst fresh
      rw [(young u here).1]
      refine ⟨Nat.le_refl _, ?_⟩
      cases is : owner with
      | none => exact .inl rfl
      | some p => exact (parent p is).eq_or_lt
    · obtain ⟨v, before, same, -⟩ := old q u here fresh
      obtain ⟨known, order⟩ := rooted.issued q v before
      exact ⟨known.trans below, same ▸ order⟩
  · by_cases fresh : q = new
    · subst fresh
      obtain ⟨publicId, active, -⟩ := young u here
      cases is : owner with
      | none =>
        rw [is] at publicId
        exact absurd publicId child
      | some p =>
        rw [is, Option.getD_some] at publicId
        rw [is] at active
        rw [publicId] at child ⊢
        obtain ⟨v, before⟩ := Option.isSome_iff_exists.mp (known p is)
        refine ⟨{ v with children := v.children.insert q }, ?_, root p is v before,
          BTreeSet.mem_insert.mpr (.inl rfl), fun runs => ?_⟩
        · rw [ties, if_neg child, before, Option.map_some, if_pos is]
        · rw [active] at runs
          cases runs
    · obtain ⟨v, before, same, active, -⟩ := old q u here fresh
      rw [same] at child ⊢
      obtain ⟨p, found, public', member, runs⟩ := rooted.owned q v before child
      obtain ⟨known', order⟩ := rooted.issued q v before
      have other : v.publicId ≠ new :=
        ((order.resolve_left child).trans_le (known'.trans below)).ne
      rw [ties, if_neg other, found]
      refine ⟨_, rfl, ?_⟩
      split
      · exact ⟨public', BTreeSet.mem_insert.mpr (.inr member), fun on => runs (active ▸ on)⟩
      · exact ⟨public', member, fun on => runs (active ▸ on)⟩
  · -- What was listed before stays so; a last identifier that is issued again was listed as one.
    have earlier : (r ≤ s.next ∧ ∀ u, s.ties r = some u → u.publicId = r → r = lastId) →
        r ≤ t.next ∧ ∀ u, t.ties r = some u → u.publicId = r → r = lastId := by
      rintro ⟨known', before⟩
      refine ⟨next ▸ known'.trans below, fun u there self => ?_⟩
      by_cases fresh : r = new
      · have same := Nat.le_antisymm below (fresh ▸ known')
        exact fresh.trans (same.symm.trans (last same))
      · obtain ⟨v, found, same, -⟩ := old r u there fresh
        exact before v found (same.symm.trans self)
    by_cases fresh : q = new
    · subst fresh
      obtain ⟨-, -, idle, children⟩ := young p here
      obtain member | runs := listed
      · obtain ⟨rfl, owns⟩ := children r member
        refine ⟨next.ge, fun _ _ _ => ?_⟩
        obtain ⟨v, before⟩ := Option.isSome_iff_exists.mp (known r owns)
        have same := Nat.le_antisymm below (rooted.issued r v before).1
        exact same.symm.trans (last same)
      · rw [idle] at runs
        cases runs
    · obtain ⟨v, before, -, -, current, -, children⟩ := old q p here fresh
      obtain member | runs := listed
      · obtain member | ⟨rfl, owns⟩ := children r member
        · exact earlier (rooted.listed q v r before (.inl member))
        · refine ⟨next.ge, fun u there self => ?_⟩
          rw [(young u there).1, owns] at self
          exact absurd self fresh
      · exact earlier (rooted.listed q v r before (.inr (current ▸ runs)))

theorem Rooted.withdraw (rooted : s.Rooted) : (s.withdraw id).Rooted := by
  cases here : s.ties id with
  | none => rwa [withdraw_unknown here]
  | some u =>
    obtain ⟨next, after⟩ := ties_withdraw here
    refine rooted.shrink next (fun q v found => ?_) fun q v found child => ?_
    · obtain ⟨-, -, w, before, owner, -, children, current⟩ := ties_withdraw_old here found
      exact ⟨w, before, owner, children, fun r runs => .inl (current r runs).1⟩
    · obtain ⟨other, kept, w, before, owner, active, -⟩ := ties_withdraw_old here found
      rw [owner] at child ⊢
      obtain ⟨p, parent, root, member, runs⟩ := rooted.owned q w before child
      -- The parent is not withdrawn: then its children would be, and a child has none.
      have self : w.publicId ≠ id := by
        intro is
        rw [is, here, Option.some.injEq] at parent
        exact kept (parent ▸ member)
      have away : w.publicId ∉ u.children := fun inside =>
        child (rooted.barren here (.inl inside) before rfl).symm
      rw [after, if_neg (not_or.mpr ⟨self, away⟩), parent]
      split
      · refine ⟨_, rfl, root, ?_, fun on => ?_⟩
        · exact ExtTreeSet.mem_erase.mpr ⟨fun same => other (LawfulEqOrd.eq_of_compare same).symm, member⟩
        · change (if p.activeChild = some id then none else p.activeChild) = some q
          rw [runs (active ▸ on), if_neg fun same => other (Option.some.inj same)]
      · exact ⟨p, rfl, root, member, active ▸ runs⟩

theorem Rooted.activateChild (rooted : s.Rooted) : (s.activateChild parent child).Rooted := by
  by_cases activates : s.activates parent child = true
  · obtain ⟨c, v, young, owned, idle, above, listed⟩ := activates_iff.mp activates
    obtain ⟨next, after⟩ := ties_activateChild activates
    have retired : ∀ r, s.activeChild parent = some r ↔ v.activeChild = some r := by
      intro r
      rw [activeChild, above, Option.bind_some]
    have old : ∀ q u, (s.activateChild parent child).ties q = some u →
        ¬(s.activeChild parent = some q ∧ q ≠ child) ∧ ∃ w, s.ties q = some w ∧
          u.publicId = w.publicId ∧ (u.active = true → w.active = true ∨ q = child) ∧
            (∀ r ∈ u.children, r ∈ w.children) ∧
              ∀ r, u.activeChild = some r → w.activeChild = some r ∨ r ∈ w.children := by
      intro q u here
      rw [after] at here
      split at here
      · cases here
      · rename_i stays
        refine ⟨stays, ?_⟩
        obtain ⟨w, before, rfl⟩ := Option.map_eq_some_iff.mp here
        refine ⟨w, before, ?_⟩
        have runs (r : ObservationId) (self : q = parent) (is : some child = some r) :
            r ∈ w.children := by
          rw [self, above] at before
          cases before
          cases is
          exact listed
        dsimp only
        split <;> split
        · rename_i new self
          exact ⟨rfl, fun _ => .inr new, fun r hr => mem_listed hr, fun r is => .inr (runs r self is)⟩
        · rename_i new _
          exact ⟨rfl, fun _ => .inr new, fun r hr => hr, fun r is => .inl is⟩
        · rename_i self
          exact ⟨rfl, .inl, fun r hr => mem_listed hr, fun r is => .inr (runs r self is)⟩
        · exact ⟨rfl, .inl, fun r hr => hr, fun r is => .inl is⟩
    refine rooted.shrink next (fun q u here => ?_) fun q u here apart => ?_
    · obtain ⟨-, w, before, owner, -, children, current⟩ := old q u here
      exact ⟨w, before, owner, children, current⟩
    · obtain ⟨stays, w, before, owner, active, -⟩ := old q u here
      rw [owner] at apart ⊢
      obtain ⟨p, found, root, member, runs⟩ := rooted.owned q w before apart
      -- What is retired was current, and so has no children.
      have kept : ¬(s.activeChild parent = some w.publicId ∧ w.publicId ≠ child) := by
        rintro ⟨current, -⟩
        exact apart (rooted.barren above (.inr ((retired _).mp current)) before rfl).symm
      rw [after, if_neg kept, found]
      refine ⟨_, rfl, ?_⟩
      by_cases self : w.publicId = parent
      · obtain rfl : p = v := by
          rw [self, above] at found
          exact (Option.some.inj found).symm
        have remains : q ∈ Evidence.listed (s.activeChild parent) child p.children := by
          unfold Evidence.listed
          split
          · exact member
          · rename_i r current
            split
            · exact member
            · rename_i differs
              refine ExtTreeSet.mem_erase.mpr ⟨fun same => ?_, member⟩
              obtain rfl := LawfulEqOrd.eq_of_compare same
              exact stays ⟨current, differs⟩
        have chosen : u.active = true → some child = some q := by
          intro on
          by_contra other
          have before := (active on).resolve_right fun new => other (congrArg some new.symm)
          exact stays ⟨(retired q).mpr (runs before), fun new => other (congrArg some new.symm)⟩
        dsimp only
        rw [if_pos self]
        split
        · exact ⟨root, remains, chosen⟩
        · exact ⟨root, remains, chosen⟩
      · have other : q ≠ child := by
          rintro rfl
          rw [young] at before
          cases before
          exact self owned
        have on : u.active = true → p.activeChild = some q := fun on =>
          runs ((active on).resolve_right other)
        dsimp only
        rw [if_neg self]
        split
        · exact ⟨root, member, on⟩
        · exact ⟨root, member, on⟩
  · rwa [activateChild_refused activates]

theorem Rooted.apply {op : Op} (rooted : s.Rooted) (forPublic : op.forPublic s = true)
    (h : s.apply op = some t) : t.Rooted := by
  cases op with
  | install =>
    refine rooted.installFor (fun p is => ?_) h
    cases is
  | installChild parent =>
    refine rooted.installFor (fun p is u here => ?_) h
    cases is
    obtain ⟨i, found, rfl⟩ := Option.map_eq_some_iff.mp here
    exact of_decide_eq_true (Option.all_eq_true _ _ |>.mp forPublic i found)
  | activateChild parent child =>
    cases h
    exact rooted.activateChild
  | withdraw id =>
    cases h
    exact rooted.withdraw
  | assign id branch access wanted routeRevision withdrawal | recordState id session generation next
  | recordSharing id session planRevision sharedWith shortfall | recordPlan id plan
  | recordCoalesced id dropped =>
    obtain ⟨next, same⟩ := ties_apply rfl h
    exact rooted.of_ties next same

/-- The state without some of its observations. -/
def without (s : State) (gone : ObservationId → Installed → Bool) : State :=
  { s with observations := s.observations.filter fun id i => !gone id i }

/-- How public observations and their generations hang together. -/
structure Family (s : State) : Prop where
  parent : ∀ (id : ObservationId) (i : Installed), s.observations[id]? = some i → i.publicId ≠ id →
    ∃ p : Installed, s.observations[i.publicId]? = some p ∧ p.publicId = i.publicId ∧ id ∈ p.children ∧
      (i.active = true → p.activeChild = some id)
  single : ∀ (id id' : ObservationId) (i i' : Installed), s.observations[id]? = some i → s.observations[id']? = some i' →
    i.publicId ≠ id → i'.publicId ≠ id' → i.publicId = i'.publicId →
      i.active = true → i'.active = true → id = id'
  idle : ∀ relay, (s.without fun id i => i.publicId ≠ id && !i.active).desired relay = s.desired relay
  withdrawn : ∀ (q : ObservationId) (p : Installed), s.observations[q]? = some p → p.publicId = q →
    (∀ (id : ObservationId) (i : Installed), (s.withdraw q).observations[id]? = some i → id ≠ q ∧ i.publicId ≠ q) ∧
      ∀ relay, ((s.withdraw q).desired relay).Sublist
        ((s.without fun id i => id = q || i.publicId = q).desired relay)

theorem desired_without {gone : ObservationId → Installed → Bool} {relay : RelayUrl} :
    (s.without gone).desired relay = s.observations.toList.filterMap fun (id, i) =>
      if !gone id i && i.active then i.contribution[relay]? else none := by
  unfold desired without
  rw [ExtTreeMap.toList_filter, List.filterMap_filter]
  refine congrArg (List.filterMap · _) (funext fun (id, i) => ?_)
  by_cases gone' : gone id i = true
  · simp [gone']
  · simp [gone']

theorem Rooted.family (rooted : s.Rooted) : s.Family := by
  have parent : ∀ (id : ObservationId) (i : Installed), s.observations[id]? = some i → i.publicId ≠ id →
      ∃ p : Installed, s.observations[i.publicId]? = some p ∧ p.publicId = i.publicId ∧ id ∈ p.children ∧
        (i.active = true → p.activeChild = some id) := by
    intro id i here child
    obtain ⟨u, found, root, member, runs⟩ :=
      rooted.owned id i.ties (by rw [ties, here, Option.map_some]) child
    obtain ⟨p, above, rfl⟩ := Option.map_eq_some_iff.mp found
    exact ⟨p, above, root, member, runs⟩
  refine ⟨parent, ?_, ?_, ?_⟩
  · intro id id' i i' here here' child child' same active active'
    obtain ⟨p, found, -, -, runs⟩ := parent id i here child
    obtain ⟨p', found', -, -, runs'⟩ := parent id' i' here' child'
    rw [← same, found] at found'
    cases found'
    exact Option.some.inj ((runs active).symm.trans (runs' active'))
  · intro relay
    rw [desired_without]
    refine congrArg (List.filterMap · _) (funext fun entry => ?_)
    obtain ⟨id, i⟩ := entry
    by_cases active : i.active = true
    · simp [active]
    · simp [active]
  · intro q p here root
    have after (id : ObservationId) : (s.withdraw q).observations[id]? =
        if id ∈ p.children then none else if q = id then none else s.observations[id]? := by
      rw [State.withdraw, here]
      simp only [if_pos root, BTreeMap.find_foldl_erase, ExtTreeSet.mem_toList, BTreeMap.find_erase]
    have remains : (s.withdraw q).observations =
        (s.without fun id i => id = q || i.publicId = q).observations.filter
          fun id _ => decide (id ∉ p.children) := by
      refine ExtTreeMap.ext_getElem? fun id => ?_
      rw [after, ExtTreeMap.getElem?_filter', State.without, ExtTreeMap.getElem?_filter']
      cases found : s.observations[id]? with
      | none => simp
      | some i =>
        by_cases listed : id ∈ p.children
        · simp [listed]
        · by_cases self : q = id
          · simp [self]
          · have other : i.publicId ≠ q := by
              intro owner
              obtain ⟨p', above, -, member, -⟩ :=
                parent id i found fun same => self (owner.symm.trans same)
              rw [owner, here] at above
              cases above
              exact listed member
            simp [listed, self, Ne.symm self, other, Option.filter_some]
    refine ⟨fun id i found => ?_, fun relay => ?_⟩
    · rw [remains, ExtTreeMap.getElem?_filter', State.without, ExtTreeMap.getElem?_filter'] at found
      obtain ⟨found, -⟩ := Option.filter_eq_some_iff.mp found
      have kept := (Option.filter_eq_some_iff.mp found).2
      simpa using kept
    · unfold State.desired
      rw [remains, ExtTreeMap.toList_filter]
      exact List.filter_sublist.filterMap _

end State

def Sources.ForPublic (s : Sources) : Call → Prop
  | .op op => op.forPublic s.registry = true
  | .recordLiveEvent _ _ => True

instance (s : Sources) : ∀ call, Decidable (s.ForPublic call)
  | .op _ => inferInstanceAs (Decidable (_ = _))
  | .recordLiveEvent _ _ => .isTrue trivial

variable {R : Rules} {calls : List Call} {s s' : Sources} {call : Call}

theorem rooted_step (rooted : s.registry.Rooted) (forPublic : s.ForPublic call)
    (stepped : s.step R call = some s') : s'.registry.Rooted := by
  obtain ⟨op, rfl, applied⟩ | ⟨next, same⟩ := Sources.step_registry stepped
  · exact rooted.apply forPublic applied
  · refine rooted.of_ties next (funext fun id => ?_)
    unfold State.ties
    rw [same]

/-- However the operations follow one another, generations of public observations are
tied to their parents, contribute nothing before their time, and go with them. -/
theorem family_of_public (run : Run (Sources.step R) Sources.ForPublic .start calls s) :
    s.registry.Family :=
  (run.invariant (fun s : Sources => s.registry.Rooted) State.start_rooted fun _ _ _ => rooted_step).family

section Samples

/-- A generation of an observation that is a generation itself. -/
def nestedChild : List Call :=
  [.op .install, .op (.installChild 1), .op (.installChild 2), .op (.withdraw 1)]

/-- It stays behind without a parent. -/
theorem nested_child_orphaned :
    ∃ s, Run (Sources.step (listedRules [])) Free .start nestedChild s ∧ ¬s.registry.Family := by
  obtain ⟨s, run, checked⟩ := Run.of_any (show (exec (Sources.step (listedRules [])) Free .start
    nestedChild).any (fun s => s.registry.observations.keys = [3] &&
      (s.registry.observations[3]?).any (·.publicId = 2)) = true by decide +kernel)
  simp only [Bool.and_eq_true, decide_eq_true_eq, Option.any_eq_true] at checked
  obtain ⟨only, i, here, owner⟩ := checked
  refine ⟨s, run, fun family => ?_⟩
  obtain ⟨p, above, -⟩ := family.parent 3 i here (owner ▸ by decide)
  have listed := ExtTreeMap.mem_keys.mpr (ExtTreeMap.mem_iff_isSome_getElem?.mpr
    (Option.isSome_of_eq_some above))
  rw [only, owner] at listed
  exact absurd listed (by decide)

/-- Two generations, the second of which takes the place of the first. -/
def twoGenerations : List Call :=
  [.op .install, .op (.installChild 1), .op (.activateChild 1 2), .op (.installChild 1),
    .op (.activateChild 1 3)]

theorem twoGenerations_family : ∃ s, Run (Sources.step (listedRules [])) Sources.ForPublic .start
    twoGenerations s ∧ s.registry.observations.keys = [1, 3] ∧ s.registry.Family := by
  obtain ⟨s, run, checked⟩ := Run.of_any (show (exec (Sources.step (listedRules []))
    Sources.ForPublic .start twoGenerations).any
      (fun s => s.registry.observations.keys = [1, 3]) = true by decide +kernel)
  exact ⟨s, run, of_decide_eq_true checked, family_of_public run⟩

end Samples

end Fava.Observe.Evidence
