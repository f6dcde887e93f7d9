import Fava.Lib.Run
import Fava.Observe.Engine

namespace Fava.Observe

open Std Fava.Lib Fava.Nostr Fava.Relay Fava.Subscriptions

inductive RelayDeadline
  | establish
  | write
  | idle
  | close
deriving DecidableEq

/-- Why a relay is no longer asked. -/
inductive RelayWithdrawal
  | routeWithdrawn
  | observationClosed
  | shutdown
deriving DecidableEq

/-- How far one relay has got with one query. -/
inductive RelaySourceState
  | planned
  | connecting
  | opened (requestedAt : Timestamp)
  | storedEventsComplete (completedAt : Timestamp)
  | refused (message : BoundedText) (refusedAt : Timestamp)
  | authenticationRequired (progress : Progress) (learnedAt : Timestamp)
  | timedOut (deadline : RelayDeadline) (afterMs : Nat)
  | disconnected (detail : BoundedText)
  | unreachable (attempts : Nat) (detail : BoundedText)
  | ownerRefused (detail : BoundedText)
  | withdrawn (reason : RelayWithdrawal)
deriving DecidableEq

def RelaySourceState.isWithdrawn : RelaySourceState → Bool
  | .withdrawn _ => true
  | _ => false

inductive RouteOrigin
  | explicit
  | automatic (revision : Nat)
deriving DecidableEq

structure RelayShortfall where
  branches : List Nat
  detail : BoundedText
deriving DecidableEq

structure RelayQueryEvidence where
  session : RelayUrl
  generation : Option Round
  planRevision : Nat
  branches : List Nat
  state : RelaySourceState
  sharedWith : List ObservationId
  shortfall : Option RelayShortfall
  route : RouteOrigin
deriving DecidableEq

structure DesiredPlanEvidence where
  revision : Nat
  relays : List RelayUrl
  installed : Nat
deriving DecidableEq

/-- A route withdrawal keeps its evidence; a closing observation keeps nothing. -/
def retainWithdrawn : RelayWithdrawal → Bool
  | .routeWithdrawn => true
  | _ => false

/-- First report for a relay routing has named but no session has reached yet. -/
def plannedEvidence (session : RelayUrl) (branch : Nat) (route : RouteOrigin) : RelayQueryEvidence :=
  ⟨session, none, 0, [branch], .planned, [], none, route⟩

namespace Evidence

/-- One observation's demand at one relay, with the evidence that follows it. -/
structure Assigned where
  demand : RelayDemand
  evidence : RelayQueryEvidence
deriving DecidableEq

/-- Everything retained for one installed observation. -/
structure Installed where
  publicId : ObservationId
  active : Bool
  activeChild : Option ObservationId
  children : BTreeSet ObservationId
  relays : BTreeMap RelayUrl Assigned
  access : Authority
  plan : Option DesiredPlanEvidence
  routeRevision : Option Nat
  coalesced : Nat

/-- Every installed observation, the counter that mints their identities, and what was
sent to the readers of aggregate demand. -/
structure State where
  next : Nat
  revision : Nat
  observations : BTreeMap ObservationId Installed
  demandChanged : List Nat

/-- A counter of 64 bits that stays at its largest value. -/
def bump (revision : Nat) : Nat := min (revision + 1) (2 ^ 64 - 1)

abbrev Wanted := BTreeMap RelayUrl (RelayDemand × RouteOrigin)

/-- What an observation adds to the demand at each relay. -/
def Installed.contribution (i : Installed) : BTreeMap RelayUrl (RelayDemand × Authority) :=
  i.relays.filterMap fun _ a =>
    if a.evidence.state.isWithdrawn then none else some (a.demand, i.access)

/-- The assignments that survive a new one, as withdrawn evidence if it leaves them out. -/
def Installed.retained (i : Installed) (wanted : Wanted) (withdrawal : RelayWithdrawal) :
    BTreeMap RelayUrl Assigned :=
  (i.relays.map fun session a =>
    if wanted.contains session then a
    else { a with evidence := { a.evidence with state := .withdrawn withdrawal } }).filter
      fun session _ => wanted.contains session || retainWithdrawn withdrawal

/-- A wanted relay with the evidence it keeps, or with the first one. -/
def Assigned.renew (branch : Nat) (session : RelayUrl) (wanted : RelayDemand × RouteOrigin) :
    Option Assigned → Assigned
  | some a => { a with demand := wanted.1, evidence := { a.evidence with route := wanted.2 } }
  | none => ⟨wanted.1, plannedEvidence session branch wanted.2⟩

namespace State

def start : State := ⟨0, 0, ∅, []⟩

def signal (s : State) : State :=
  { s with revision := bump s.revision, demandChanged := s.demandChanged ++ [bump s.revision] }

def installFor (s : State) (parent : Option ObservationId) : Option State :=
  if parent.any fun id => !s.observations.contains id then none
  else
    let id := bump s.next
    let inserted := s.observations.insert id
      ⟨parent.getD id, parent.isNone, none, ∅, ∅, .unauthenticated, none, none, 0⟩
    some { s with
      next := id
      observations := match parent with
        | none => inserted
        | some parent => inserted.modify parent fun p => { p with children := p.children.insert id } }

/-- Make one concrete generation current and retire its predecessor. -/
def activateChild (s : State) (parent child : ObservationId) : State :=
  if (s.observations[child]?.any fun i => i.publicId = parent && !i.active) &&
      s.observations[parent]?.any fun p => p.children.contains child then
    let activated := (s.observations.modify parent fun p => { p with activeChild := some child }).modify
      child fun i => { i with active := true }
    { s.signal with
      observations := match s.observations[parent]?.bind Installed.activeChild with
        | none => activated
        | some retired =>
          if retired = child then activated
          else (activated.modify parent fun p =>
            { p with children := p.children.erase retired }).erase retired }
  else s

/-- Replace the relays one observation demands. Evidence survives for relays that stayed;
a relay that left is dropped, or retained as withdrawn evidence. -/
def assign (s : State) (id : ObservationId) (branch : Nat) (access : Authority) (wanted : Wanted)
    (routeRevision : Option Nat) (withdrawal : RelayWithdrawal) : State :=
  match s.observations[id]? with
  | none => s
  | some installed =>
    let left := installed.relays.keys.any fun session => !wanted.contains session
    let retained := installed.retained wanted withdrawal
    let relays := BTreeMap.updateAll retained (Assigned.renew branch) wanted.toList
    let entered := wanted.keys.any fun session => !retained.contains session
    let assigned := { s with
      revision := bump s.revision
      observations := s.observations.insert id { installed with
        relays := relays, access := access, routeRevision := routeRevision } }
    if left || entered then
      { assigned with demandChanged := s.demandChanged ++ [assigned.revision] }
    else assigned

/-- Close one observation and release its demand. -/
def withdraw (s : State) (id : ObservationId) : State :=
  match s.observations[id]? with
  | none => s
  | some installed =>
    let removed := s.observations.erase id
    let orphaned := if installed.publicId = id then removed else
      removed.modify installed.publicId fun p => { p with
        children := p.children.erase id
        activeChild := if p.activeChild = some id then none else p.activeChild }
    { s.signal with
      observations := installed.children.toList.foldl (fun m child => m.erase child) orphaned }

/-- The complete current demand at one relay. -/
def desired (s : State) (relay : RelayUrl) : List (RelayDemand × Authority) :=
  s.observations.toList.filterMap fun (_, i) =>
    if i.active then i.contribution[relay]? else none

/-- Change one observation; readers are woken if the change says so. -/
def update (s : State) (id : ObservationId) (change : Installed → Installed × Bool) : State :=
  match s.observations[id]? with
  | none => s
  | some installed =>
    { s with
      observations := s.observations.insert id (change installed).1
      revision := if (change installed).2 then bump s.revision else s.revision }

/-- Change the evidence of one observation at one relay. -/
def updateRelay (s : State) (id : ObservationId) (session : RelayUrl)
    (change : RelayQueryEvidence → RelayQueryEvidence) : State :=
  s.update id fun installed =>
    match installed.relays[session]? with
    | none => (installed, false)
    | some a =>
      ({ installed with
        relays := installed.relays.insert session { a with evidence := change a.evidence } },
        decide (change a.evidence ≠ a.evidence))

/-- Replace how far one relay has got with one observation's demand. -/
def recordState (s : State) (id : ObservationId) (session : RelayUrl) (generation : Option Round)
    (next : RelaySourceState) : State :=
  s.updateRelay id session fun evidence => { evidence with generation := generation, state := next }

/-- Note which observations share one relay's wire work, under which plan revision, and
what that plan omits. -/
def recordSharing (s : State) (id : ObservationId) (session : RelayUrl) (planRevision : Nat)
    (sharedWith : List ObservationId) (shortfall : Option RelayShortfall) : State :=
  s.updateRelay id session fun evidence => { evidence with
    planRevision := planRevision, sharedWith := sharedWith, shortfall := shortfall }

def recordPlan (s : State) (id : ObservationId) (plan : DesiredPlanEvidence) : State :=
  s.update id fun installed =>
    ({ installed with plan := some plan }, decide (installed.plan ≠ some plan))

/-- Count current-state revisions superseded before delivery. -/
def recordCoalesced (s : State) (id : ObservationId) (dropped : Nat) : State :=
  s.update id fun installed =>
    ({ installed with coalesced := min (installed.coalesced + dropped) (2 ^ 64 - 1) }, false)

/-- What one observation adds to the demand, if it is there and active. -/
def contribution (s : State) (id : ObservationId) : BTreeMap RelayUrl (RelayDemand × Authority) :=
  match s.observations[id]? with
  | none => ∅
  | some installed => if installed.active then installed.contribution else ∅

/-- What the engine reads. -/
def view (s : State) : Registry :=
  s.observations.toList.map fun (id, i) => ⟨id, i.access, i.active,
    i.relays.toList.map fun (relay, a) => ⟨relay, a.demand, a.evidence.state.isWithdrawn⟩⟩

/-- What can be done to the registry. -/
inductive Op
  | install
  | installChild (parent : ObservationId)
  | activateChild (parent child : ObservationId)
  | assign (id : ObservationId) (branch : Nat) (access : Authority) (wanted : Wanted)
      (routeRevision : Option Nat) (withdrawal : RelayWithdrawal)
  | withdraw (id : ObservationId)
  | recordState (id : ObservationId) (session : RelayUrl) (generation : Option Round)
      (next : RelaySourceState)
  | recordSharing (id : ObservationId) (session : RelayUrl) (planRevision : Nat)
      (sharedWith : List ObservationId) (shortfall : Option RelayShortfall)
  | recordPlan (id : ObservationId) (plan : DesiredPlanEvidence)
  | recordCoalesced (id : ObservationId) (dropped : Nat)

def apply (s : State) : Op → Option State
  | .install => s.installFor none
  | .installChild parent => s.installFor (some parent)
  | .activateChild parent child => some (s.activateChild parent child)
  | .assign id branch access wanted routeRevision withdrawal =>
    some (s.assign id branch access wanted routeRevision withdrawal)
  | .withdraw id => some (s.withdraw id)
  | .recordState id session generation next => some (s.recordState id session generation next)
  | .recordSharing id session planRevision sharedWith shortfall =>
    some (s.recordSharing id session planRevision sharedWith shortfall)
  | .recordPlan id plan => some (s.recordPlan id plan)
  | .recordCoalesced id dropped => some (s.recordCoalesced id dropped)

end State

/-- The relay is held as evidence of demand that was withdrawn. -/
def Installed.holdsWithdrawn (i : Installed) (session : RelayUrl) : Bool :=
  i.relays[session]?.any fun a => a.evidence.state.isWithdrawn

section Assign

variable {s : State} {i : Installed} {id : ObservationId} {branch : Nat} {access : Authority}
  {wanted : Wanted} {routeRevision : Option Nat} {withdrawal : RelayWithdrawal} {session : RelayUrl}

theorem mem_desired_iff {x : RelayDemand × Authority} :
    x ∈ s.desired session ↔ ∃ id, (s.contribution id)[session]? = some x := by
  simp only [State.desired, List.mem_filterMap, Prod.exists, ExtTreeMap.mem_toList_iff_getElem?_eq_some,
    Option.ite_none_right_eq_some]
  refine exists_congr fun id => ?_
  unfold State.contribution
  cases s.observations[id]? with
  | none => simp
  | some i => by_cases active : i.active = true <;> simp [active]

theorem getElem?_contribution : i.contribution[session]? = i.relays[session]?.bind fun a =>
    if a.evidence.state.isWithdrawn then none else some (a.demand, i.access) :=
  ExtTreeMap.getElem?_filterMap'

/-- The engine reads the demand that is desired. -/
theorem view_desired : s.view.desired session = s.desired session := by
  have one : ∀ i : Installed,
      ((i.relays.toList.map fun (relay, a) =>
        Observe.Assigned.mk relay a.demand a.evidence.state.isWithdrawn).filter
          fun a => !a.withdrawn && a.relay = session).map (fun a => (a.demand, i.access)) =
            i.contribution[session]?.toList := by
    intro i
    rw [getElem?_contribution, List.filter_map, List.map_map]
    change (i.relays.toList.filter fun e => !e.2.evidence.state.isWithdrawn && decide (e.1 = session)).map
      (fun e => (e.2.demand, i.access)) = _
    rw [← List.filter_filter, BTreeMap.filter_toList]
    cases i.relays[session]? with
    | none => rfl
    | some a =>
      rw [Option.map_some, Option.toList_some, Option.bind_some]
      by_cases gone : a.evidence.state.isWithdrawn = true
      · rw [List.filter_cons_of_neg (by simp [gone]), if_pos gone]
        rfl
      · rw [List.filter_cons_of_pos (by simp [gone]), if_neg gone]
        rfl
  unfold State.view Registry.desired State.desired
  induction s.observations.toList with
  | nil => rfl
  | cons entry entries ih =>
    obtain ⟨id, i⟩ := entry
    rw [List.map_cons, List.filterMap_cons]
    dsimp only
    by_cases active : i.active = true
    · rw [if_pos active, List.filter_cons_of_pos (p := Observation.active) (by exact active),
        List.flatMap_cons, ih]
      dsimp only
      rw [one i]
      cases i.contribution[session]? <;> rfl
    · rw [if_neg active, List.filter_cons_of_neg (p := Observation.active) (by exact active), ih]

theorem retained_of_wanted (named : wanted.contains session = true) :
    (i.retained wanted withdrawal)[session]? = i.relays[session]? := by
  rw [Installed.retained, ExtTreeMap.getElem?_filter', ExtTreeMap.getElem?_map]
  cases i.relays[session]? with
  | none => rfl
  | some a => simp [named]

/-- A relay that was left out is kept as withdrawn evidence, if at all. -/
theorem retained_of_left (left : wanted.contains session = false) {a : Assigned}
    (held : (i.retained wanted withdrawal)[session]? = some a) :
    a.evidence.state.isWithdrawn = true := by
  rw [Installed.retained, ExtTreeMap.getElem?_filter', ExtTreeMap.getElem?_map,
    Option.filter_eq_some_iff, Option.map_eq_some_iff] at held
  obtain ⟨⟨b, -, rfl⟩, -⟩ := held
  rw [left]
  rfl

variable (here : s.observations[id]? = some i)
include here

theorem contribution_eq (active : i.active = true) : s.contribution id = i.contribution := by
  rw [State.contribution, here]
  exact if_pos active

/-- After an assignment the observation asks for the wanted relays, except for those it
holds as withdrawn. -/
theorem getElem?_contribution_assign (active : i.active = true) :
    ((s.assign id branch access wanted routeRevision withdrawal).contribution id)[session]? =
      if i.holdsWithdrawn session then none else wanted[session]?.map fun w => (w.1, access) := by
  have after : ∃ i', (s.assign id branch access wanted routeRevision withdrawal).observations[id]? =
      some i' ∧ i'.active = true ∧ i'.access = access ∧ i'.relays[session]? =
        wanted[session]?.elim (i.retained wanted withdrawal)[session]? fun w =>
          some (Assigned.renew branch session w (i.retained wanted withdrawal)[session]?) := by
    rw [State.assign, here]
    dsimp only
    have found := BTreeMap.find_updateAll_toList (m := i.retained wanted withdrawal) (w := wanted)
      (a := session) (g := Assigned.renew branch)
    split
    all_goals exact ⟨_, ExtTreeMap.getElem?_insert_self, active, rfl, found⟩
  obtain ⟨i', here', active', access', relays'⟩ := after
  rw [contribution_eq here' active', getElem?_contribution, relays', access', Installed.holdsWithdrawn]
  cases wants : wanted[session]? with
  | some w =>
    have named : wanted.contains session = true := by
      rw [ExtTreeMap.contains_eq_isSome_getElem?, wants]
      rfl
    rw [retained_of_wanted named, Option.elim_some]
    cases i.relays[session]? with
    | none => rfl
    | some a => rfl
  | none =>
    have left : wanted.contains session = false := by
      rw [ExtTreeMap.contains_eq_isSome_getElem?, wants]
      rfl
    rw [Option.map_none, ite_self, Option.elim_none]
    cases held : (i.retained wanted withdrawal)[session]? with
    | none => rfl
    | some a => rw [Option.bind_some, if_pos (retained_of_left left held)]

/-- The readers of demand are told whenever a relay is not held before or not wanted. -/
theorem demandChanged_assign :
    (s.assign id branch access wanted routeRevision withdrawal).demandChanged = s.demandChanged ↔
      ∀ session, session ∈ i.relays ↔ session ∈ wanted := by
  have retains : ∀ session ∈ wanted, session ∈ i.retained wanted withdrawal ↔ session ∈ i.relays := by
    intro session named
    rw [ExtTreeMap.mem_iff_isSome_getElem?, retained_of_wanted (ExtTreeMap.contains_iff_mem.mpr named),
      ExtTreeMap.mem_iff_isSome_getElem?]
  have stays : (i.relays.keys.any fun session => !wanted.contains session) = false ↔
      ∀ session ∈ i.relays, session ∈ wanted := by
    simp only [List.any_eq_false, ExtTreeMap.mem_keys, Bool.not_eq_true', Bool.not_eq_false,
      ExtTreeMap.contains_iff_mem]
  have held : (wanted.keys.any fun session => !(i.retained wanted withdrawal).contains session) = false ↔
      ∀ session ∈ wanted, session ∈ i.relays := by
    simp only [List.any_eq_false, ExtTreeMap.mem_keys, Bool.not_eq_true', Bool.not_eq_false,
      ExtTreeMap.contains_iff_mem]
    exact forall₂_congr retains
  rw [State.assign, here]
  dsimp only
  split
  · rename_i told
    refine iff_of_false (by simp) fun same => ?_
    rw [Bool.or_eq_true, ← Bool.not_eq_false, ← Bool.not_eq_false, stays, held] at told
    obtain left | entered := told
    · exact left fun session => (same session).mp
    · exact entered fun session => (same session).mpr
  · rename_i quiet
    rw [Bool.not_eq_true, Bool.or_eq_false_iff, stays, held] at quiet
    exact iff_of_true rfl fun session => ⟨quiet.1 session, quiet.2 session⟩

/-- The demand is exactly what is wanted unless a wanted relay is held as withdrawn. -/
theorem exact_assign (active : i.active = true) :
    (s.assign id branch access wanted routeRevision withdrawal).contribution id =
        wanted.map (fun _ w => (w.1, access)) ↔
      ∀ session ∈ wanted, i.holdsWithdrawn session = false := by
  constructor
  · intro exactly session named
    obtain ⟨w, wants⟩ := Option.isSome_iff_exists.mp (ExtTreeMap.mem_iff_isSome_getElem?.mp named)
    have found : ((s.assign id branch access wanted routeRevision withdrawal).contribution id)[session]? =
        some (w.1, access) := by
      rw [exactly, ExtTreeMap.getElem?_map, wants]
      rfl
    rw [getElem?_contribution_assign here active] at found
    by_contra withdrawn
    rw [Bool.not_eq_false] at withdrawn
    rw [if_pos withdrawn] at found
    cases found
  · intro current
    apply ExtTreeMap.ext_getElem?
    intro session
    rw [getElem?_contribution_assign here active, ExtTreeMap.getElem?_map]
    by_cases named : session ∈ wanted
    · rw [current session named]
      rfl
    · rw [ExtTreeMap.getElem?_eq_none named, Option.map_none, ite_self]

/-- An assignment sets the demand of an observation exactly, and tells its readers of a
change, unless it wants a relay that is held as withdrawn or changes nothing but what is
asked of the relays it keeps. -/
theorem assign_exact_iff (active : i.active = true) :
    ((s.assign id branch access wanted routeRevision withdrawal).contribution id =
        wanted.map (fun _ w => (w.1, access)) ∧
      ((s.assign id branch access wanted routeRevision withdrawal).contribution id ≠ s.contribution id →
        (s.assign id branch access wanted routeRevision withdrawal).demandChanged ≠ s.demandChanged)) ↔
    (∀ session ∈ wanted, i.holdsWithdrawn session = false) ∧
      ((∀ session, session ∈ i.relays ↔ session ∈ wanted) →
        (∀ (session : RelayUrl) (a : Assigned) (w : RelayDemand × RouteOrigin),
          i.relays[session]? = some a → wanted[session]? = some w → a.demand = w.1) ∧
        (wanted = ∅ ∨ access = i.access)) := by
  rw [exact_assign here active, ne_eq, ne_eq, not_imp_not, demandChanged_assign here,
    contribution_eq here active]
  refine and_congr_right fun current => forall_congr' fun same => ?_
  have asked : (s.assign id branch access wanted routeRevision withdrawal).contribution id =
      wanted.map fun _ w => (w.1, access) := (exact_assign here active).mpr current
  have kept : ∀ (session : RelayUrl) (a : Assigned), i.relays[session]? = some a →
      i.contribution[session]? = some (a.demand, i.access) := by
    intro session a held
    have unwithdrawn := current session ((same session).mp
      (ExtTreeMap.mem_iff_isSome_getElem?.mpr (Option.isSome_of_eq_some held)))
    rw [Installed.holdsWithdrawn, held, Option.any_some] at unwithdrawn
    rw [getElem?_contribution, held, Option.bind_some, unwithdrawn]
    rfl
  rw [asked]
  constructor
  · intro unchanged
    have agree : ∀ (session : RelayUrl) (a : Assigned) (w : RelayDemand × RouteOrigin),
        i.relays[session]? = some a → wanted[session]? = some w →
          (w.1, access) = (a.demand, i.access) := by
      intro session a w held wants
      rw [← Option.some.injEq, ← kept session a held, ← unchanged, ExtTreeMap.getElem?_map, wants]
      rfl
    refine ⟨fun session a w held wants => (Prod.ext_iff.mp (agree session a w held wants)).1.symm, ?_⟩
    by_cases empty : wanted = ∅
    · exact .inl empty
    · rw [ExtTreeMap.eq_empty_iff_forall_not_mem] at empty
      push Not at empty
      obtain ⟨session, named⟩ := empty
      obtain ⟨w, wants⟩ := Option.isSome_iff_exists.mp (ExtTreeMap.mem_iff_isSome_getElem?.mp named)
      obtain ⟨a, held⟩ := Option.isSome_iff_exists.mp
        (ExtTreeMap.mem_iff_isSome_getElem?.mp ((same session).mpr named))
      exact .inr (Prod.ext_iff.mp (agree session a w held wants)).2
  · rintro ⟨alike, authorized⟩
    apply ExtTreeMap.ext_getElem?
    intro session
    rw [ExtTreeMap.getElem?_map]
    cases wants : wanted[session]? with
    | none =>
      have away : session ∉ i.relays := by
        rw [same session, ExtTreeMap.mem_iff_isSome_getElem?, wants]
        exact Bool.false_ne_true
      rw [getElem?_contribution, ExtTreeMap.getElem?_eq_none away]
      rfl
    | some w =>
      have named : session ∈ wanted :=
        ExtTreeMap.mem_iff_isSome_getElem?.mpr (Option.isSome_of_eq_some wants)
      obtain ⟨a, held⟩ := Option.isSome_iff_exists.mp
        (ExtTreeMap.mem_iff_isSome_getElem?.mp ((same session).mpr named))
      obtain rfl | rfl := authorized
      · exact (ExtTreeMap.not_mem_empty named).elim
      · rw [kept session a held, alike session a w held wants]
        rfl

end Assign

section Returned

/-- What the first observation wants of the relay. -/
def wantRelay : Wanted :=
  (∅ : Wanted).insert "wss://relay" (⟨1, 0, Filter.new, ⟨none, none, none⟩⟩, .automatic 1)

/-- The relay leaves the route of the observation. -/
def leaveRelay : List State.Op :=
  [.install, .assign 1 0 .unauthenticated wantRelay (some 1) .routeWithdrawn,
    .assign 1 0 .unauthenticated ∅ (some 2) .routeWithdrawn]

/-- When the relay comes back, nothing is asked of it. -/
theorem returned_relay_not_desired :
    ∃ ops s, Run State.apply Free State.start ops s ∧
      ∃ i, s.observations[1]? = some i ∧ i.active = true ∧
        (s.assign 1 0 .unauthenticated wantRelay (some 3) .routeWithdrawn).contribution 1 ≠
          wantRelay.map fun _ w => (w.1, .unauthenticated) := by
  obtain ⟨s, run, checked⟩ := Run.of_any (show (exec State.apply Free State.start leaveRelay).any
    (fun s => s.observations[1]?.any (fun i => i.active) &&
      (((s.assign 1 0 .unauthenticated wantRelay (some 3) .routeWithdrawn).contribution
        1)["wss://relay"]?).isNone) = true by decide +kernel)
  rw [Bool.and_eq_true, Option.isNone_iff_eq_none] at checked
  obtain ⟨i, here, active⟩ := (Option.any_eq_true _ _).mp checked.1
  refine ⟨_, s, run, i, here, active, fun exactly => ?_⟩
  have asked := checked.2
  rw [exactly, ExtTreeMap.getElem?_map, wantRelay, ExtTreeMap.getElem?_insert_self] at asked
  cases asked

/-- What it wants once it has moved on to another relay. -/
def wantOther : Wanted :=
  (∅ : Wanted).insert "wss://other" (⟨1, 0, Filter.new, ⟨none, none, none⟩⟩, .automatic 2)

/-- The relay that was left is held as evidence, and the one it moves on to is asked. -/
theorem moved_assignment_exact :
    ∃ s i, Run State.apply Free State.start leaveRelay s ∧ s.observations[1]? = some i ∧
      i.holdsWithdrawn "wss://relay" = true ∧
      (s.assign 1 0 .unauthenticated wantOther (some 3) .routeWithdrawn).contribution 1 =
        wantOther.map (fun _ w => (w.1, .unauthenticated)) ∧
      (s.assign 1 0 .unauthenticated wantOther (some 3) .routeWithdrawn).demandChanged ≠
        s.demandChanged := by
  obtain ⟨s, run, checked⟩ := Run.of_any (show (exec State.apply Free State.start leaveRelay).any
    (fun s => s.observations[1]?.any (fun i => i.active && i.holdsWithdrawn "wss://relay" &&
      !i.holdsWithdrawn "wss://other") && ((s.contribution 1)["wss://other"]?).isNone) = true by
    decide +kernel)
  rw [Bool.and_eq_true, Option.isNone_iff_eq_none] at checked
  obtain ⟨i, here, held⟩ := (Option.any_eq_true _ _).mp checked.1
  simp only [Bool.and_eq_true, Bool.not_eq_true'] at held
  obtain ⟨⟨active, left⟩, other⟩ := held
  have only : ∀ session ∈ wantOther, session = "wss://other" := by
    intro session named
    obtain is | named := ExtTreeMap.mem_insert.mp named
    · exact (LawfulEqCmp.compare_eq_iff_eq.mp is).symm
    · exact (ExtTreeMap.not_mem_empty named).elim
  have bare : ∀ session ∈ wantOther, i.holdsWithdrawn session = false :=
    fun session named => only session named ▸ other
  have moves : ¬∀ session, session ∈ i.relays ↔ session ∈ wantOther := by
    intro same
    obtain ⟨a, found, -⟩ := (Option.any_eq_true _ _).mp left
    have asked := only _ ((same "wss://relay").mp (ExtTreeMap.mem_iff_isSome_getElem?.mpr
      (Option.isSome_of_eq_some found)))
    exact absurd asked (by decide)
  obtain ⟨exactly, told⟩ :
      (s.assign 1 0 .unauthenticated wantOther (some 3) .routeWithdrawn).contribution 1 =
          wantOther.map (fun _ w => (w.1, .unauthenticated)) ∧
        ((s.assign 1 0 .unauthenticated wantOther (some 3) .routeWithdrawn).contribution 1 ≠
            s.contribution 1 →
          (s.assign 1 0 .unauthenticated wantOther (some 3) .routeWithdrawn).demandChanged ≠
            s.demandChanged) :=
    (assign_exact_iff here active).mpr ⟨bare, fun same => absurd same moves⟩
  refine ⟨s, i, run, here, left, exactly, told fun unchanged => ?_⟩
  have asked := checked.2
  rw [← unchanged, exactly, ExtTreeMap.getElem?_map, wantOther, ExtTreeMap.getElem?_insert_self] at asked
  cases asked

end Returned

end Evidence

end Fava.Observe
