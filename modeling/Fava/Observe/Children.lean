import Fava.Observe.Evidence

namespace Fava.Observe.Evidence

open Std Fava.Lib Fava.Nostr Fava.Relay Fava.Subscriptions

/-- What ties an observation to others. -/
structure Ties where
  publicId : ObservationId
  active : Bool
  activeChild : Option ObservationId
  children : BTreeSet ObservationId

def Installed.ties (i : Installed) : Ties := ⟨i.publicId, i.active, i.activeChild, i.children⟩

namespace State

def ties (s : State) (id : ObservationId) : Option Ties := s.observations[id]?.map Installed.ties

/-- The concrete generation that is current for a public observation. -/
def activeChild (s : State) (id : ObservationId) : Option ObservationId :=
  (s.ties id).bind Ties.activeChild

/-- Whether a provisional generation may be made current. -/
def activates (s : State) (parent child : ObservationId) : Bool :=
  (s.observations[child]?.any fun i => i.publicId = parent && !i.active) &&
    s.observations[parent]?.any fun p => p.children.contains child

/-- Whether an observation may publish or deliver for a public one. -/
def publishes (s : State) (publicId id : ObservationId) : Bool :=
  (s.observations[id]?).any fun i =>
    if publicId = id then i.active
    else i.active && i.publicId = publicId &&
      (s.observations[publicId]?).any fun p => p.activeChild = some id

/-- Identifiers are issued once, a current generation is installed and active, and what
is listed as a child belongs to its parent. -/
structure Kin (s : State) : Prop where
  issued : ∀ id t, s.ties id = some t → id ≤ s.next
  current : ∀ (q r : ObservationId), s.activeChild q = some r →
    r ≠ q ∧ ∃ t, s.ties r = some t ∧ t.publicId = q ∧ t.active = true
  children : ∀ (q r : ObservationId) (t : Ties), s.ties q = some t → r ∈ t.children →
    r ≤ s.next ∧ r ≠ q ∧ ∀ u, s.ties r = some u → u.publicId = q

end State

variable {s t : State} {id parent child q r : ObservationId} {u v : Ties}

theorem start_kin : State.start.Kin := by
  constructor <;> simp [State.ties, State.activeChild, State.start]

/-- Operations that leave all ties as they are leave the family as it is. -/
theorem State.Kin.of_ties (kin : s.Kin) (next : t.next = s.next) (same : t.ties = s.ties) :
    t.Kin := by
  have active : t.activeChild = s.activeChild := by
    funext q
    rw [State.activeChild, State.activeChild, same]
  constructor
  · rw [same, next]
    exact kin.issued
  · rw [active, same]
    exact kin.current
  · rw [same, next]
    exact kin.children

theorem ties_assign {branch : Nat} {access : Authority} {wanted : Wanted} {route : Option Nat}
    {withdrawal : RelayWithdrawal} :
    (s.assign id branch access wanted route withdrawal).next = s.next ∧
      (s.assign id branch access wanted route withdrawal).ties = s.ties := by
  unfold State.assign
  split
  · exact ⟨rfl, rfl⟩
  · rename_i installed here
    have kept : ∀ i : Installed, i.ties = installed.ties →
        (fun q => (s.observations.insert id i)[q]?.map Installed.ties) = s.ties := by
      intro i same
      funext q
      rw [BTreeMap.find_insert, State.ties]
      split
      · rename_i eq
        rw [← eq, here, Option.map_some, Option.map_some, same]
      · rfl
    dsimp only
    split
    · exact ⟨rfl, kept _ rfl⟩
    · exact ⟨rfl, kept _ rfl⟩

theorem ties_update {change : Installed → Installed × Bool}
    (kept : ∀ i, (change i).1.ties = i.ties) :
    (s.update id change).next = s.next ∧ (s.update id change).ties = s.ties := by
  unfold State.update
  split
  · exact ⟨rfl, rfl⟩
  · rename_i installed here
    refine ⟨rfl, ?_⟩
    funext q
    simp only [State.ties, BTreeMap.find_insert]
    split
    · rename_i eq
      rw [← eq, here, Option.map_some, Option.map_some, kept]
    · rfl

theorem ties_updateRelay {session : RelayUrl} {change : RelayQueryEvidence → RelayQueryEvidence} :
    (s.updateRelay id session change).next = s.next ∧
      (s.updateRelay id session change).ties = s.ties := by
  apply ties_update
  intro i
  split <;> rfl

/-- The operation changes demand and evidence only. -/
def State.Op.evidential : State.Op → Bool
  | .assign _ _ _ _ _ _ | .recordState _ _ _ _ | .recordSharing _ _ _ _ _ | .recordPlan _ _
  | .recordCoalesced _ _ => true
  | .install | .installChild _ | .activateChild _ _ | .withdraw _ => false

theorem ties_apply {op : State.Op} (evidential : op.evidential = true) (h : s.apply op = some t) :
    t.next = s.next ∧ t.ties = s.ties := by
  cases op with
  | install | installChild parent | activateChild parent child | withdraw id => cases evidential
  | assign id branch access wanted routeRevision withdrawal =>
    cases h
    exact ties_assign
  | recordState id session generation next =>
    cases h
    exact ties_updateRelay
  | recordSharing id session planRevision sharedWith shortfall =>
    cases h
    exact ties_updateRelay
  | recordPlan id plan | recordCoalesced id dropped =>
    cases h
    exact ties_update fun _ => rfl

theorem ties_modify {m : BTreeMap ObservationId Installed} {k : ObservationId}
    {f : Installed → Installed} (F : Ties → Ties) (effect : ∀ i, (f i).ties = F i.ties) :
    ((m.modify k f)[q]?).map Installed.ties =
      (m[q]?.map Installed.ties).map fun v => if q = k then F v else v := by
  rw [BTreeMap.find_modify]
  by_cases at' : k = q
  · subst at'
    rw [if_pos rfl, Option.map_map, Option.map_map]
    refine congrArg (Option.map · _) (funext fun i => ?_)
    exact (effect i).trans (if_pos rfl).symm
  · rw [if_neg at']
    simp only [if_neg (Ne.symm at'), Option.map_id']

/-- A new observation, listed as a child of its parent if it has one. -/
theorem ties_installFor {owner : Option ObservationId} (h : s.installFor owner = some t) :
    (∀ p, owner = some p → (s.ties p).isSome) ∧ t.next = bump s.next ∧ ∀ q, t.ties q =
      (if q = bump s.next then some ⟨owner.getD (bump s.next), owner.isNone, none, ∅⟩
        else s.ties q).map fun v =>
          if owner = some q then { v with children := v.children.insert (bump s.next) } else v := by
  unfold State.installFor at h
  rw [Option.ite_none_left_eq_some, Option.some.injEq] at h
  obtain ⟨known, rfl⟩ := h
  have inserted (i : Installed) (q : ObservationId) :
      ((s.observations.insert (bump s.next) i)[q]?).map Installed.ties =
        if q = bump s.next then some i.ties else s.ties q := by
    rw [BTreeMap.find_insert, State.ties]
    by_cases new : q = bump s.next
    · rw [if_pos new, if_pos new.symm]
      rfl
    · rw [if_neg new, if_neg (Ne.symm new)]
  cases owner with
  | none =>
    refine ⟨nofun, rfl, fun q => ?_⟩
    simp only [reduceCtorEq, if_false, Option.map_id']
    exact inserted _ q
  | some p =>
    rw [Option.any_some, Bool.not_eq_true', Bool.not_eq_false, ExtTreeMap.contains_iff_mem,
      ExtTreeMap.mem_iff_isSome_getElem?] at known
    refine ⟨fun _ is => ?_, rfl, fun q => ?_⟩
    · cases is
      rw [State.ties, Option.isSome_map]
      exact known
    · rw [State.ties, ties_modify (fun v => { v with children := v.children.insert (bump s.next) })
        fun _ => rfl, inserted]
      simp only [Option.some.injEq, eq_comm]
      rfl

theorem ties_installFor_fresh {owner : Option ObservationId} (fresh : s.ties (bump s.next) = none)
    (h : s.installFor owner = some t) :
    (∀ p, owner = some p → (s.ties p).isSome) ∧ t.next = bump s.next ∧ ∀ q, t.ties q =
      if q = bump s.next then some ⟨owner.getD (bump s.next), owner.isNone, none, ∅⟩
      else if owner = some q then
        (s.ties q).map fun v => { v with children := v.children.insert (bump s.next) }
      else s.ties q := by
  obtain ⟨known, next, ties⟩ := ties_installFor h
  refine ⟨known, next, fun q => ?_⟩
  rw [ties]
  by_cases new : q = bump s.next
  · have other : owner ≠ some q := by
      intro owns
      have taken := known q owns
      rw [new, fresh] at taken
      cases taken
    rw [if_pos new, if_pos new, Option.map_some, if_neg other]
  · rw [if_neg new, if_neg new]
    split
    · rfl
    · exact Option.map_id'

theorem ties_withdraw (here : s.ties id = some u) : (s.withdraw id).next = s.next ∧
    ∀ q, (s.withdraw id).ties q =
      if q = id ∨ q ∈ u.children then none
      else if q = u.publicId then (s.ties q).map fun v => { v with
        children := v.children.erase id
        activeChild := if v.activeChild = some id then none else v.activeChild }
      else s.ties q := by
  rw [State.ties, Option.map_eq_some_iff] at here
  obtain ⟨installed, found, rfl⟩ := here
  rw [State.withdraw, found]
  refine ⟨rfl, fun q => ?_⟩
  simp only [State.ties, BTreeMap.find_foldl_erase, ExtTreeSet.mem_toList]
  by_cases listed : q ∈ installed.ties.children
  · rw [if_pos (show q ∈ installed.children from listed), if_pos (.inr listed)]
    rfl
  · rw [if_neg (show q ∉ installed.children from listed)]
    by_cases self : q = id
    · rw [@if_pos (q = id ∨ q ∈ installed.ties.children) _ (.inl self), self]
      split
      · rw [BTreeMap.find_erase, if_pos rfl]
        rfl
      · rename_i differs
        rw [BTreeMap.find_modify, if_neg differs, BTreeMap.find_erase, if_pos rfl]
        rfl
    · rw [if_neg (not_or.mpr ⟨self, listed⟩)]
      split
      · rename_i root
        rw [show installed.ties.publicId = id from root, if_neg self, BTreeMap.find_erase, if_neg (Ne.symm self)]
      · rw [BTreeMap.find_modify, BTreeMap.find_erase, if_neg (Ne.symm self)]
        by_cases owner : q = installed.publicId
        · rw [if_pos owner.symm, if_pos (show q = installed.ties.publicId from owner),
            Option.map_map, Option.map_map]
          rfl
        · rw [if_neg (Ne.symm owner), if_neg (show q ≠ installed.ties.publicId from owner)]

/-- What remains listed once a generation is retired for another. -/
def listed (retired : Option ObservationId) (child : ObservationId)
    (children : BTreeSet ObservationId) : BTreeSet ObservationId :=
  match retired with
  | none => children
  | some r => if r = child then children else children.erase r

theorem ties_activateChild (activates : s.activates parent child = true) :
    (s.activateChild parent child).next = s.next ∧
    ∀ q, (s.activateChild parent child).ties q =
      if s.activeChild parent = some q ∧ q ≠ child then none
      else (s.ties q).map fun v =>
        let parental := if q = parent then { v with
          activeChild := some child, children := listed (s.activeChild parent) child v.children } else v
        if q = child then { parental with active := true } else parental := by
  have current : (s.observations[parent]?.bind Installed.activeChild) = s.activeChild parent := by
    rw [State.activeChild, State.ties, Option.bind_map]
    rfl
  rw [State.activates] at activates
  rw [State.activateChild, if_pos activates]
  refine ⟨rfl, fun q => ?_⟩
  simp only [State.ties, current, listed]
  have activated : (((s.observations.modify parent fun p => { p with activeChild := some child }).modify
      child fun i => { i with active := true })[q]?).map Installed.ties = (s.ties q).map fun v =>
        let parental := if q = parent then { v with activeChild := some child } else v
        if q = child then { parental with active := true } else parental := by
    rw [ties_modify (fun v => { v with active := true }) fun _ => rfl,
      ties_modify (fun v => { v with activeChild := some child }) fun _ => rfl, Option.map_map]
    rfl
  cases s.activeChild parent with
  | none =>
    simp only [reduceCtorEq, false_and, if_false]
    exact activated
  | some r =>
    simp only [Option.some.injEq]
    by_cases same : r = child
    · rw [if_neg fun h : r = q ∧ q ≠ child => h.2 (h.1.symm.trans same)]
      simp only [if_pos same]
      exact activated
    · simp only [if_neg same]
      rw [BTreeMap.find_erase]
      by_cases gone : r = q
      · rw [if_pos gone, if_pos ⟨gone, gone ▸ same⟩]
        rfl
      · rw [if_neg gone, if_neg fun h : r = q ∧ q ≠ child => gone h.1,
          ties_modify (fun v => { v with children := v.children.erase r }) fun _ => rfl, activated,
          Option.map_map]
        refine congrArg (Option.map · _) (funext fun v => ?_)
        by_cases at' : q = parent
        · by_cases new : q = child
          · simp only [Function.comp_apply, if_pos at', if_pos new]
          · simp only [Function.comp_apply, if_pos at', if_neg new]
        · simp only [Function.comp_apply, if_neg at']

theorem ties_activateChild_apart (activates : s.activates parent child = true)
    (apart : child ≠ parent) :
    (s.activateChild parent child).next = s.next ∧
    ∀ q, (s.activateChild parent child).ties q =
      if s.activeChild parent = some q ∧ q ≠ child then none
      else if q = parent then (s.ties q).map fun v => { v with
        activeChild := some child, children := listed (s.activeChild parent) child v.children }
      else if q = child then (s.ties q).map fun v => { v with active := true }
      else s.ties q := by
  obtain ⟨next, ties⟩ := ties_activateChild activates
  refine ⟨next, fun q => ?_⟩
  rw [ties]
  refine if_congr Iff.rfl rfl ?_
  by_cases at' : q = parent
  · have other : q ≠ child := at' ▸ apart.symm
    simp only [if_pos at', if_neg other]
  · by_cases new : q = child
    · simp only [if_neg at', if_pos new]
    · simp only [if_neg at', if_neg new, Option.map_id']

namespace State

theorem activeChild_eq_some : s.activeChild q = some r ↔
    ∃ u, s.ties q = some u ∧ u.activeChild = some r := by
  rw [activeChild, Option.bind_eq_some_iff]

/-- Below the largest identifier, the next one is new. -/
theorem Kin.fresh (kin : s.Kin) (room : s.next < 2 ^ 64 - 1) :
    s.next < bump s.next ∧ s.ties (bump s.next) = none := by
  have above : s.next < bump s.next := by
    unfold bump
    omega
  refine ⟨above, ?_⟩
  by_contra taken
  obtain ⟨u, here⟩ := Option.ne_none_iff_exists'.mp taken
  exact Nat.not_lt_of_le (kin.issued _ u here) above

/-- An observation of before, but for the children it lists. -/
theorem ties_installFor_old {owner : Option ObservationId} (fresh : s.ties (bump s.next) = none)
    (h : s.installFor owner = some t) (old : q ≠ bump s.next) (here : t.ties q = some u) :
    ∃ v, s.ties q = some v ∧ u.publicId = v.publicId ∧ u.active = v.active ∧
      u.activeChild = v.activeChild ∧
        ∀ r ∈ u.children, r ∈ v.children ∨ r = bump s.next ∧ owner = some q := by
  obtain ⟨-, -, ties⟩ := ties_installFor_fresh fresh h
  rw [ties, if_neg old] at here
  split at here
  · rename_i owns
    obtain ⟨v, found, rfl⟩ := Option.map_eq_some_iff.mp here
    refine ⟨v, found, rfl, rfl, rfl, fun r hr => ?_⟩
    obtain rfl | kept := BTreeSet.mem_insert.mp hr
    · exact .inr ⟨rfl, owns⟩
    · exact .inl kept
  · exact ⟨u, here, rfl, rfl, rfl, fun r hr => .inl hr⟩

theorem Kin.installFor {owner : Option ObservationId} (kin : s.Kin) (room : s.next < 2 ^ 64 - 1)
    (h : s.installFor owner = some t) : t.Kin := by
  obtain ⟨above, fresh⟩ := kin.fresh room
  obtain ⟨known, next, ties⟩ := ties_installFor_fresh fresh h
  have young : ∀ u, t.ties (bump s.next) = some u → u.publicId = owner.getD (bump s.next) ∧
      u.activeChild = none ∧ u.children = ∅ := by
    intro u here
    rw [ties, if_pos rfl] at here
    cases here
    exact ⟨rfl, rfl, rfl⟩
  have stays : ∀ q v, s.ties q = some v → ∃ u, t.ties q = some u ∧ u.publicId = v.publicId ∧
      u.active = v.active := by
    intro q v here
    have old : q ≠ bump s.next := by
      rintro rfl
      rw [fresh] at here
      cases here
    rw [ties, if_neg old]
    split
    · rw [here]
      exact ⟨_, rfl, rfl, rfl⟩
    · exact ⟨v, here, rfl, rfl⟩
  constructor
  · intro q u here
    rw [next]
    by_cases new : q = bump s.next
    · exact new.le
    · obtain ⟨v, before, -⟩ := ties_installFor_old fresh h new here
      exact (kin.issued q v before).trans above.le
  · intro q r current
    obtain ⟨u, here, runs⟩ := activeChild_eq_some.mp current
    by_cases new : q = bump s.next
    · rw [(young u (new ▸ here)).2.1] at runs
      cases runs
    · obtain ⟨v, before, -, -, same, -⟩ := ties_installFor_old fresh h new here
      obtain ⟨apart, w, found, owner, active⟩ := kin.current q r
        (activeChild_eq_some.mpr ⟨v, before, same ▸ runs⟩)
      obtain ⟨w', found', owner', active'⟩ := stays r w found
      exact ⟨apart, w', found', owner'.trans owner, active'.trans active⟩
  · intro q r u here listed
    by_cases new : q = bump s.next
    · rw [(young u (new ▸ here)).2.2] at listed
      exact (ExtTreeSet.not_mem_empty listed).elim
    · obtain ⟨v, before, -, -, -, children⟩ := ties_installFor_old fresh h new here
      obtain old | ⟨rfl, owns⟩ := children r listed
      · obtain ⟨issued, apart, owned⟩ := kin.children q r v before old
        refine ⟨next ▸ issued.trans above.le, apart, fun w child => ?_⟩
        have earlier : r ≠ bump s.next := (Nat.lt_of_le_of_lt issued above).ne
        obtain ⟨w', before', owner, -⟩ := ties_installFor_old fresh h earlier child
        exact owner.trans (owned w' before')
      · refine ⟨next.ge, Ne.symm new, fun w child => ?_⟩
        rw [(young w child).1, owns]
        rfl

/-- An operation that only removes observations and children keeps the family in order
if it leaves no dangling current generation. -/
theorem Kin.shrink (kin : s.Kin) (next : t.next = s.next)
    (old : ∀ q u, t.ties q = some u → ∃ v, s.ties q = some v ∧ u.publicId = v.publicId ∧
      ∀ r ∈ u.children, r ∈ v.children)
    (current : ∀ q r, t.activeChild q = some r →
      r ≠ q ∧ ∃ w, t.ties r = some w ∧ w.publicId = q ∧ w.active = true) : t.Kin := by
  refine ⟨fun q u here => ?_, current, fun q r u here listed => ?_⟩
  · obtain ⟨v, before, -⟩ := old q u here
    rw [next]
    exact kin.issued q v before
  · obtain ⟨v, before, -, children⟩ := old q u here
    obtain ⟨issued, apart, owned⟩ := kin.children q r v before (children r listed)
    refine ⟨next ▸ issued, apart, fun w child => ?_⟩
    obtain ⟨w', before', owner, -⟩ := old r w child
    exact owner.trans (owned w' before')

theorem withdraw_unknown (missing : s.ties id = none) : s.withdraw id = s := by
  rw [ties, Option.map_eq_none_iff] at missing
  rw [State.withdraw, missing]

/-- What a withdrawal leaves was there before, with no child more. -/
theorem ties_withdraw_old (here : s.ties id = some u) (found : (s.withdraw id).ties q = some v) :
    q ≠ id ∧ q ∉ u.children ∧ ∃ w, s.ties q = some w ∧ v.publicId = w.publicId ∧
      v.active = w.active ∧ (∀ r ∈ v.children, r ∈ w.children) ∧
        ∀ r, v.activeChild = some r → w.activeChild = some r ∧ (q = u.publicId → r ≠ id) := by
  rw [(ties_withdraw here).2] at found
  split at found
  · cases found
  · rename_i stays
    obtain ⟨other, kept⟩ := not_or.mp stays
    refine ⟨other, kept, ?_⟩
    split at found
    · obtain ⟨w, before, rfl⟩ := Option.map_eq_some_iff.mp found
      refine ⟨w, before, rfl, rfl, fun r hr => ExtTreeSet.mem_of_mem_erase hr, fun r runs => ?_⟩
      rw [Option.ite_none_left_eq_some] at runs
      refine ⟨runs.2, fun _ same => runs.1 ?_⟩
      rw [runs.2, same]
    · rename_i other'
      exact ⟨v, found, rfl, rfl, fun r hr => hr, fun r runs =>
        ⟨runs, fun owner => (other' owner).elim⟩⟩

theorem Kin.withdraw (kin : s.Kin) : (s.withdraw id).Kin := by
  cases here : s.ties id with
  | none => rwa [withdraw_unknown here]
  | some u =>
    obtain ⟨next, after⟩ := ties_withdraw here
    refine kin.shrink next (fun q v found => ?_) fun q r current => ?_
    · obtain ⟨-, -, w, before, owner, -, children, -⟩ := ties_withdraw_old here found
      exact ⟨w, before, owner, children⟩
    · obtain ⟨v, found, runs⟩ := activeChild_eq_some.mp current
      obtain ⟨other, kept, w, before, -, -, -, ran⟩ := ties_withdraw_old here found
      obtain ⟨apart, x, child, owner, active⟩ :=
        kin.current q r (activeChild_eq_some.mpr ⟨w, before, (ran r runs).1⟩)
      -- Neither the observation itself nor one of its children can be current elsewhere.
      have self : r ≠ id := by
        rintro rfl
        rw [here, Option.some.injEq] at child
        exact (ran r runs).2 (child ▸ owner.symm) rfl
      have away : r ∉ u.children := fun listed =>
        other (owner.symm.trans ((kin.children id r u here listed).2.2 x child))
      refine ⟨apart, ?_⟩
      rw [after, if_neg (not_or.mpr ⟨self, away⟩)]
      split
      · rw [child]
        exact ⟨_, rfl, owner, active⟩
      · exact ⟨x, child, owner, active⟩

theorem activates_iff : s.activates parent child = true ↔
    ∃ u v, s.ties child = some u ∧ u.publicId = parent ∧ u.active = false ∧
      s.ties parent = some v ∧ child ∈ v.children := by
  simp only [activates, Bool.and_eq_true, Option.any_eq_true, decide_eq_true_eq, Bool.not_eq_true',
    ExtTreeSet.contains_iff_mem, ties, Option.map_eq_some_iff]
  constructor
  · rintro ⟨⟨i, child, owner, idle⟩, p, parent, listed⟩
    exact ⟨_, _, ⟨i, child, rfl⟩, owner, idle, ⟨p, parent, rfl⟩, listed⟩
  · rintro ⟨-, -, ⟨i, child, rfl⟩, owner, idle, ⟨p, parent, rfl⟩, listed⟩
    exact ⟨⟨i, child, owner, idle⟩, p, parent, listed⟩

theorem mem_listed {retired : Option ObservationId} {children : BTreeSet ObservationId}
    (h : r ∈ listed retired child children) : r ∈ children := by
  unfold listed at h
  split at h
  · exact h
  · split at h
    · exact h
    · exact ExtTreeSet.mem_of_mem_erase h

theorem activateChild_refused (refused : ¬s.activates parent child = true) :
    s.activateChild parent child = s := by
  rw [State.activates] at refused
  rw [State.activateChild, if_neg refused]

theorem Kin.activateChild (kin : s.Kin) : (s.activateChild parent child).Kin := by
  by_cases activates : s.activates parent child = true
  · obtain ⟨c, p, young, owned, -, above, listed⟩ := activates_iff.mp activates
    have apart := (kin.children parent child p above listed).2.1
    obtain ⟨next, after⟩ := ties_activateChild_apart activates apart
    -- A generation that is current elsewhere is not the one that is retired here.
    have stays : ∀ q r, q ≠ parent → s.activeChild q = some r →
        ¬(s.activeChild parent = some r ∧ r ≠ child) := by
      rintro q r other current ⟨retired, -⟩
      obtain ⟨-, w, found, owner, -⟩ := kin.current q r current
      obtain ⟨-, w', found', owner', -⟩ := kin.current parent r retired
      rw [found, Option.some.injEq] at found'
      exact other (owner.symm.trans (found' ▸ owner'))
    refine kin.shrink next (fun q u here => ?_) fun q r current => ?_
    · rw [after] at here
      split at here
      · cases here
      · split at here
        · obtain ⟨v, before, rfl⟩ := Option.map_eq_some_iff.mp here
          exact ⟨v, before, rfl, fun r hr => mem_listed hr⟩
        · split at here
          · obtain ⟨v, before, rfl⟩ := Option.map_eq_some_iff.mp here
            exact ⟨v, before, rfl, fun r hr => hr⟩
          · exact ⟨u, here, rfl, fun r hr => hr⟩
    · obtain ⟨u, here, runs⟩ := activeChild_eq_some.mp current
      rw [after] at here
      split at here
      · cases here
      · split at here
        · rename_i self
          obtain ⟨v, before, rfl⟩ := Option.map_eq_some_iff.mp here
          cases runs
          refine ⟨self ▸ apart, ?_⟩
          rw [after, if_neg fun h => h.2 rfl, if_neg apart, if_pos rfl, young]
          exact ⟨_, rfl, self ▸ owned, rfl⟩
        · rename_i other
          have before : s.activeChild q = some r := by
            rw [activeChild_eq_some]
            split at here
            · obtain ⟨v, before, rfl⟩ := Option.map_eq_some_iff.mp here
              exact ⟨v, before, runs⟩
            · exact ⟨u, here, runs⟩
          obtain ⟨differs, w, found, owner, active⟩ := kin.current q r before
          refine ⟨differs, ?_⟩
          rw [after, if_neg (stays q r other before)]
          split
          · rw [found]
            exact ⟨_, rfl, owner, active⟩
          · split
            · rw [found]
              exact ⟨_, rfl, owner, rfl⟩
            · exact ⟨w, found, owner, active⟩
  · rwa [activateChild_refused activates]

theorem Kin.apply {op : Op} (kin : s.Kin) (room : s.next < 2 ^ 64 - 1) (h : s.apply op = some t) :
    t.Kin := by
  cases op with
  | install | installChild parent => exact kin.installFor room h
  | activateChild parent child =>
    cases h
    exact kin.activateChild
  | withdraw id =>
    cases h
    exact kin.withdraw
  | assign id branch access wanted routeRevision withdrawal | recordState id session generation next
  | recordSharing id session planRevision sharedWith shortfall | recordPlan id plan
  | recordCoalesced id dropped =>
    obtain ⟨next, same⟩ := ties_apply rfl h
    exact kin.of_ties next same

/-- Whom an observation belongs to, and which of its generations is current. -/
def head (s : State) (id : ObservationId) : Option (ObservationId × Option ObservationId) :=
  (s.ties id).map fun u => (u.publicId, u.activeChild)

theorem activeChild_eq_head : s.activeChild q = (s.head q).bind Prod.snd := by
  rw [activeChild, head, Option.bind_map]
  rfl

theorem head_installFor {owner : Option ObservationId} (kin : s.Kin) (room : s.next < 2 ^ 64 - 1)
    (h : s.installFor owner = some t) (issued : q ≤ s.next) : t.head q = s.head q := by
  obtain ⟨above, fresh⟩ := kin.fresh room
  obtain ⟨-, -, ties⟩ := ties_installFor_fresh fresh h
  rw [head, ties, if_neg (Nat.lt_of_le_of_lt issued above).ne]
  split
  · rw [Option.map_map]
    rfl
  · rfl

/-- What is left of a public observation when another one is withdrawn. -/
theorem head_withdraw (kin : s.Kin) (root : ∀ u, s.ties q = some u → u.publicId = q)
    (other : q ≠ id) : (s.withdraw id).head q = (s.head q).map fun h =>
      (h.1, if h.2 = some id then none else h.2) := by
  cases here : s.ties q with
  | none =>
    have gone : (s.withdraw id).ties q = none := by
      cases found : s.ties id with
      | none => rwa [withdraw_unknown found]
      | some u =>
        rw [(ties_withdraw found).2, here]
        split <;> simp
    rw [head, head, gone, here]
    rfl
  | some v =>
    -- A current generation belongs to its parent.
    have owned : ∀ u, s.ties id = some u → v.activeChild = some id → u.publicId = q := by
      intro u found runs
      obtain ⟨-, w, found', owner, -⟩ := kin.current q id (activeChild_eq_some.mpr ⟨v, here, runs⟩)
      rw [found, Option.some.injEq] at found'
      exact found' ▸ owner
    cases found : s.ties id with
    | none =>
      have idle : v.activeChild ≠ some id := fun runs => by
        obtain ⟨-, w, found', -⟩ := kin.current q id (activeChild_eq_some.mpr ⟨v, here, runs⟩)
        rw [found] at found'
        cases found'
      rw [withdraw_unknown found, head, here]
      simp only [Option.map_some, if_neg idle]
    | some u =>
      have stays : q ∉ u.children := fun listed =>
        other ((root v here).symm.trans ((kin.children id q u found listed).2.2 v here))
      rw [head, head, (ties_withdraw found).2, if_neg (not_or.mpr ⟨other, stays⟩), here]
      by_cases parent : q = u.publicId
      · rw [if_pos parent]
        rfl
      · rw [if_neg parent]
        have idle : v.activeChild ≠ some id := fun runs => parent (owned u found runs).symm
        simp only [Option.map_some, if_neg idle]

theorem head_activateChild (kin : s.Kin) (root : ∀ u, s.ties q = some u → u.publicId = q)
    (other : q ≠ parent) : (s.activateChild parent child).head q = s.head q := by
  by_cases activates : s.activates parent child = true
  · obtain ⟨c, p, young, owned, -, above, listed⟩ := activates_iff.mp activates
    have apart := (kin.children parent child p above listed).2.1
    have stays : ¬(s.activeChild parent = some q ∧ q ≠ child) := by
      rintro ⟨retired, -⟩
      obtain ⟨-, w, found, owner, -⟩ := kin.current parent q retired
      exact other ((root w found).symm.trans owner)
    rw [head, (ties_activateChild_apart activates apart).2, if_neg stays, if_neg other]
    split
    · rw [Option.map_map]
      rfl
    · rfl
  · rw [activateChild_refused activates]

theorem head_activated (kin : s.Kin) (activates : s.activates parent child = true) :
    ∃ owner, (s.activateChild parent child).head parent = some (owner, some child) ∧
      ∃ current, s.head parent = some (owner, current) := by
  obtain ⟨c, p, young, owned, -, above, listed⟩ := activates_iff.mp activates
  have apart := (kin.children parent child p above listed).2.1
  have stays : ¬(s.activeChild parent = some parent ∧ parent ≠ child) := fun h =>
    (kin.current parent parent h.1).1 rfl
  refine ⟨p.publicId, ?_, p.activeChild, ?_⟩
  · rw [head, (ties_activateChild_apart activates apart).2, if_neg stays, if_pos rfl, above]
    rfl
  · rw [head, above]
    rfl

theorem owner_withdraw (here : (s.withdraw id).ties q = some u) :
    q ≠ id ∧ ∃ v, s.ties q = some v ∧ u.publicId = v.publicId := by
  cases found : s.ties id with
  | none =>
    rw [withdraw_unknown found] at here
    refine ⟨?_, u, here, rfl⟩
    rintro rfl
    rw [found] at here
    cases here
  | some v =>
    obtain ⟨other, -, w, before, owner, -⟩ := ties_withdraw_old found here
    exact ⟨other, w, before, owner⟩

theorem next_withdraw : (s.withdraw id).next = s.next := by
  unfold State.withdraw
  split <;> rfl

theorem next_activateChild : (s.activateChild parent child).next = s.next := by
  unfold State.activateChild
  split <;> rfl

/-- The operation does nothing to a public observation and its generations. -/
def Op.spares (s : State) (p : ObservationId) : Op → Bool
  | .installChild parent => parent ≠ p
  | .activateChild parent _ => parent ≠ p
  | .withdraw id => id ≠ p && (s.ties id).all fun u => u.publicId ≠ p
  | _ => true

theorem head_apply {op : Op} (kin : s.Kin) (room : s.next < 2 ^ 64 - 1) (issued : q ≤ s.next)
    (root : ∀ u, s.ties q = some u → u.publicId = q) (spares : op.spares s q = true)
    (h : s.apply op = some t) : t.head q = s.head q := by
  cases op with
  | install | installChild parent => exact head_installFor kin room h issued
  | activateChild parent child =>
    cases h
    exact head_activateChild kin root (of_decide_eq_true spares).symm
  | withdraw id =>
    cases h
    rw [Op.spares, Bool.and_eq_true, decide_eq_true_eq] at spares
    rw [head_withdraw kin root (Ne.symm spares.1)]
    cases here : s.head q with
    | none => rfl
    | some found =>
      have idle : found.2 ≠ some id := fun runs => by
        have current : s.activeChild q = some id := by
          rw [activeChild_eq_head, here]
          exact runs
        obtain ⟨-, w, child, owner, -⟩ := kin.current q id current
        rw [child, Option.all_some, decide_eq_true_eq] at spares
        exact spares.2 owner
      rw [Option.map_some, if_neg idle]
  | assign id branch access wanted routeRevision withdrawal | recordState id session generation next
  | recordSharing id session planRevision sharedWith shortfall | recordPlan id plan
  | recordCoalesced id dropped => rw [head, head, (ties_apply rfl h).2]

theorem next_apply {op : Op} (h : s.apply op = some t) (room : s.next < 2 ^ 64 - 1) (kin : s.Kin) :
    s.next ≤ t.next := by
  cases op with
  | install | installChild parent =>
    obtain ⟨above, fresh⟩ := kin.fresh room
    rw [(ties_installFor_fresh fresh h).2.1]
    exact above.le
  | activateChild parent child =>
    cases h
    exact next_activateChild.ge
  | withdraw id =>
    cases h
    exact next_withdraw.ge
  | assign id branch access wanted routeRevision withdrawal | recordState id session generation next
  | recordSharing id session planRevision sharedWith shortfall | recordPlan id plan
  | recordCoalesced id dropped => exact (ties_apply rfl h).1.ge

/-- The current generation of a public observation may deliver for it. -/
theorem Kin.publishes (kin : s.Kin) (current : s.activeChild parent = some child) :
    s.publishes parent child = true := by
  obtain ⟨apart, u, found, owner, active⟩ := kin.current parent child current
  obtain ⟨v, above, runs⟩ := activeChild_eq_some.mp current
  rw [ties, Option.map_eq_some_iff] at found above
  obtain ⟨i, child', rfl⟩ := found
  obtain ⟨p, parent', rfl⟩ := above
  rw [State.publishes, child', Option.any_some, if_neg (Ne.symm apart), parent', Option.any_some]
  simp only [Bool.and_eq_true, decide_eq_true_eq]
  exact ⟨⟨active, owner⟩, runs⟩

end State

end Fava.Observe.Evidence
