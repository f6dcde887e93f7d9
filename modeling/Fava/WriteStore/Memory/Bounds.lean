import Fava.WriteStore.Memory.Regular

namespace Fava.WriteStore.Memory

open Std Fava.Lib Fava.Nostr Fava.Relay Fava.Routing Fava.Write

/-- The lanes of a receipt fit the bound, those that are pending are wanted, and only
lanes are counted. -/
structure Bounded (receipt : Receipt) : Prop where
  pending : ∀ session : RelayUrl, receipt.destinations[session]? = some .pending →
    session ∈ receipt.desiredDestinations
  desired : ∀ session ∈ receipt.desiredDestinations, session ∈ receipt.destinations
  attempted : ∀ session ∈ receipt.attempts, session ∈ receipt.destinations
  lanes : receipt.destinations.size ≤ destinationEvidenceCapacity

/-- The lanes a receipt has once it follows a plan: those the plan names, and those of
the others that were tried. -/
def lanesUnder (receipt : Receipt) (plan : RoutePlan) : Nat :=
  plan.destinations.size + (receipt.destinations.toList.filter fun (session, outcome) =>
    outcome ≠ .pending && !plan.destinations.contains session).length

/-- A newer plan names so many relays that they and those tried before pass the bound. -/
def overflows (N : Library) (s : WriteState) : Action → Bool
  | .applyRoute writeId r revisionId eventId plan => (s.writes[r]?).any fun receipt =>
      (validateCurrentRevision receipt writeId revisionId eventId).isOk &&
        receipt.routing = .automatic && receipt.routeRevision < plan.revision &&
        (validatePlan N plan).isOk && destinationEvidenceCapacity < lanesUnder receipt plan
  | _ => false

/-- The relays of every plan and those tried before fit the bound together. -/
def Fits (N : Library) (s : WriteState) (action : Action) : Prop := overflows N s action = false

instance (N : Library) (s : WriteState) (action : Action) : Decidable (Fits N s action) :=
  inferInstanceAs (Decidable (_ = false))

variable {N : Library} {s : WriteState} {r : ReceiptId} {receipt updated : Receipt}
  {plan : RoutePlan} {session other : RelayUrl}

theorem find_attempts_withdraw : (withdraw receipt session).attempts[other]? =
    if session = other ∧ receipt.destinations[session]? = some .pending then none
    else receipt.attempts[other]? := by
  unfold withdraw
  split
  · rename_i pending
    refine BTreeMap.find_erase.trans ?_
    by_cases same : session = other
    · rw [if_pos same, if_pos ⟨same, pending⟩]
    · rw [if_neg same, if_neg fun both => same both.1]
  · rename_i reason retryable
    rw [if_neg fun both => by rw [retryable] at both; cases both.2]
    rfl
  · rename_i pending _
    rw [if_neg fun both => pending both.2]

theorem withdrawnLane_ne_pending {lane : Option RelayDeliveryOutcome} :
    withdrawnLane lane ≠ some .pending := by
  obtain _ | outcome := lane
  · exact nofun
  · cases outcome <;> exact nofun

/-- Withdrawing a pending lane drops what was counted for it, and nothing else is dropped. -/
theorem find_attempts_foldl_withdraw {sessions : List RelayUrl} :
    (sessions.foldl withdraw receipt).attempts[session]? =
      if session ∈ sessions ∧ receipt.destinations[session]? = some .pending then none
      else receipt.attempts[session]? := by
  induction sessions generalizing receipt with
  | nil => rw [if_neg fun listed => List.not_mem_nil listed.1, List.foldl_nil]
  | cons first sessions ih =>
    rw [List.foldl_cons, ih, destinations_withdraw, find_attempts_withdraw]
    by_cases here : first = session
    · subst here
      by_cases pending : receipt.destinations[first]? = some .pending
      · simp [pending, withdrawnLane]
      · simp [pending, withdrawnLane_ne_pending]
    · simp [here, Ne.symm here]

/-- A newer route drops the counts of the pending lanes that it withdraws. -/
theorem mem_attempts_applyNewer (applied : applyNewerRouteToReceipt N receipt plan = .ok updated) :
    session ∈ updated.attempts ↔ session ∈ receipt.attempts ∧
      (receipt.destinations[session]? = some .pending → session ∈ receipt.desiredDestinations →
        session ∈ plan.destinations) := by
  obtain ⟨_, -, applied⟩ := bind_eq_ok.mp applied
  obtain rfl := Except.ok.inj applied
  rw [attempts_settleRoute]
  change session ∈ (List.foldl provide _ _).attempts ↔ _
  rw [attempts_foldl_provide, ExtTreeMap.mem_iff_isSome_getElem?, find_attempts_foldl_withdraw,
    ExtTreeMap.mem_iff_isSome_getElem?]
  simp only [mem_removed]
  by_cases dropped : (session ∈ receipt.desiredDestinations ∧ session ∉ plan.destinations) ∧
      receipt.destinations[session]? = some .pending
  · rw [if_pos dropped]
    exact iff_of_false nofun fun both => dropped.1.2 (both.2 dropped.2 dropped.1.1)
  · rw [if_neg dropped]
    refine (and_iff_left fun pending wanted => ?_).symm
    by_contra unplanned
    exact dropped ⟨⟨wanted, unplanned⟩, pending⟩

/-- What is left of a lane that is withdrawn was tried. -/
theorem tried_of_withdrawnLane {lane : Option RelayDeliveryOutcome} {left : RelayDeliveryOutcome}
    (h : withdrawnLane lane = some left) : ∃ outcome, lane = some outcome ∧ outcome ≠ .pending := by
  obtain _ | outcome := lane
  · cases h
  · refine ⟨outcome, rfl, ?_⟩
    rintro rfl
    cases h

/-- A lane that a plan leaves is named by the plan, or was tried before. -/
theorem Bounded.lane_from (pending : ∀ session : RelayUrl,
      receipt.destinations[session]? = some .pending → session ∈ receipt.desiredDestinations)
    (applied : applyNewerRouteToReceipt N receipt plan = .ok updated)
    (lane : session ∈ updated.destinations) : session ∈ plan.destinations ∨
      session ∉ plan.destinations ∧
        ∃ outcome, receipt.destinations[session]? = some outcome ∧ outcome ≠ .pending := by
  by_cases planned : session ∈ plan.destinations
  · exact .inl planned
  · refine .inr ⟨planned, ?_⟩
    obtain ⟨left, found⟩ := Option.isSome_iff_exists.mp (ExtTreeMap.mem_iff_isSome_getElem?.mp lane)
    rw [(applyNewer_lanes applied).2, if_neg planned] at found
    split at found
    · exact tried_of_withdrawnLane found
    · rename_i unwanted
      refine ⟨left, found, ?_⟩
      rintro rfl
      exact unwanted (pending session found)

theorem mem_of_applyNewer (applied : applyNewerRouteToReceipt N receipt plan = .ok updated)
    (lane : session ∈ plan.destinations ∨
      ∃ outcome, receipt.destinations[session]? = some outcome ∧ outcome ≠ .pending) :
    session ∈ updated.destinations := by
  rw [ExtTreeMap.mem_iff_isSome_getElem?, (applyNewer_lanes applied).2]
  by_cases planned : session ∈ plan.destinations
  · rw [if_pos planned]
    rfl
  · rw [if_neg planned]
    obtain ⟨outcome, found, tried⟩ := lane.resolve_left planned
    rw [found]
    split
    · cases outcome <;> first | rfl | exact absurd rfl tried
    · rfl

/-- The lanes a plan leaves are as many as it was expected to leave. -/
theorem size_of_applyNewer (pending : ∀ session : RelayUrl,
      receipt.destinations[session]? = some .pending → session ∈ receipt.desiredDestinations)
    (applied : applyNewerRouteToReceipt N receipt plan = .ok updated) :
    lanesUnder receipt plan = updated.destinations.size := by
  let tried := receipt.destinations.toList.filter fun (session, outcome) =>
    outcome ≠ .pending && !plan.destinations.contains session
  have mem_tried : ∀ session outcome, (session, outcome) ∈ tried ↔
      receipt.destinations[session]? = some outcome ∧ outcome ≠ .pending ∧
        session ∉ plan.destinations := by
    intro session outcome
    rw [List.mem_filter, ExtTreeMap.mem_toList_iff_getElem?_eq_some, ← ExtTreeMap.contains_iff_mem]
    simp only [Bool.and_eq_true, decide_eq_true_eq, Bool.not_eq_true', Bool.not_eq_true]
  have nodup : (plan.destinations.keys ++ tried.map Prod.fst).Nodup := by
    refine List.nodup_append.mpr ⟨BTreeMap.nodup_keys, ?_, ?_⟩
    · refine List.Nodup.sublist (List.filter_sublist.map Prod.fst) ?_
      rw [ExtTreeMap.map_fst_toList_eq_keys]
      exact BTreeMap.nodup_keys
    · rintro session planned other listed rfl
      obtain ⟨⟨_, outcome⟩, member, rfl⟩ := List.mem_map.mp listed
      exact ((mem_tried _ _).mp member).2.2 (ExtTreeMap.mem_keys.mp planned)
  have counted := BTreeMap.length_eq_size (m := updated.destinations) nodup fun session => by
    rw [List.mem_append, ExtTreeMap.mem_keys]
    constructor
    · rintro (planned | listed)
      · exact mem_of_applyNewer applied (.inl planned)
      · obtain ⟨⟨_, outcome⟩, member, rfl⟩ := List.mem_map.mp listed
        obtain ⟨found, tried, -⟩ := (mem_tried _ _).mp member
        exact mem_of_applyNewer applied (.inr ⟨outcome, found, tried⟩)
    · intro lane
      refine (Bounded.lane_from pending applied lane).imp_right ?_
      rintro ⟨unplanned, outcome, found, tried⟩
      exact List.mem_map.mpr ⟨(session, outcome), (mem_tried _ _).mpr ⟨found, tried, unplanned⟩, rfl⟩
  rw [List.length_append, List.length_map, ExtTreeMap.length_keys] at counted
  exact counted

theorem Bounded.applyNewer (bounded : Bounded receipt)
    (fits : lanesUnder receipt plan ≤ destinationEvidenceCapacity)
    (applied : applyNewerRouteToReceipt N receipt plan = .ok updated) : Bounded updated := by
  obtain ⟨desired, lanes⟩ := applyNewer_lanes applied
  refine ⟨fun session lane => ?_, fun session wanted => ?_, fun session counted => ?_,
    (size_of_applyNewer bounded.pending applied).symm.le.trans fits⟩
  · rw [desired, BTreeMap.mem_keySet]
    by_contra unplanned
    rw [lanes, if_neg unplanned] at lane
    split at lane
    · exact withdrawnLane_ne_pending lane
    · rename_i unwanted
      exact unwanted (bounded.pending session lane)
  · rw [desired, BTreeMap.mem_keySet] at wanted
    rw [ExtTreeMap.mem_iff_isSome_getElem?, lanes, if_pos wanted]
    rfl
  · obtain ⟨before, planned⟩ := (mem_attempts_applyNewer applied).mp counted
    rw [ExtTreeMap.mem_iff_isSome_getElem?, lanes]
    obtain ⟨outcome, found⟩ := Option.isSome_iff_exists.mp
      (ExtTreeMap.mem_iff_isSome_getElem?.mp (bounded.attempted session before))
    rw [found]
    split
    · rfl
    · rename_i unplanned
      split
      · rename_i wanted
        have tried : outcome ≠ .pending := by
          rintro rfl
          exact unplanned (planned found wanted)
        cases outcome <;> first | rfl | exact absurd rfl tried
      · rfl

theorem Bounded.applyRoute (bounded : Bounded receipt)
    (fits : receipt.routing = .automatic → receipt.routeRevision < plan.revision →
      validatePlan N plan = .ok () → lanesUnder receipt plan ≤ destinationEvidenceCapacity)
    (applied : applyRouteToReceipt N receipt plan = .ok updated) : Bounded updated := by
  obtain rfl | ⟨automatic, later, applied⟩ := applyRoute_cases applied
  · exact bounded
  · exact bounded.applyNewer (fits automatic later (applyNewer_eq_ok applied).1) applied

theorem destinations_le_of_validatePlan {u : Unit} (valid : validatePlan N plan = .ok u) :
    plan.destinations.size ≤ destinationEvidenceCapacity := by
  unfold validatePlan at valid
  split at valid
  · cases valid
  · rename_i few
    exact Nat.le_of_not_lt few

/-- A receipt no delivery was tried for follows any plan. -/
theorem Bounded.applyInitialRoute {route : Option RoutePlan} (bounded : Bounded receipt)
    (fresh : ∀ (session : RelayUrl) (outcome : RelayDeliveryOutcome),
      receipt.destinations[session]? = some outcome → outcome = .pending)
    (applied : applyInitialRoute N receipt route = .ok updated) : Bounded updated := by
  cases route with
  | none =>
    obtain rfl := Except.ok.inj applied
    exact bounded
  | some plan =>
    refine bounded.applyRoute (fun _ _ valid => ?_) applied
    have untried : (receipt.destinations.toList.filter fun (session, outcome) =>
        outcome ≠ .pending && !plan.destinations.contains session) = [] := by
      rw [List.filter_eq_nil_iff]
      rintro ⟨session, outcome⟩ lane
      rw [fresh session outcome (ExtTreeMap.mem_toList_iff_getElem?_eq_some.mp lane)]
      simp
    rw [lanesUnder, untried]
    exact destinations_le_of_validatePlan valid

theorem size_constant_le {V : Type} {sessions : List RelayUrl} {value : V} :
    (BTreeMap.constant sessions value).size ≤ sessions.length := by
  rw [← ExtTreeMap.length_keys]
  refine (List.Nodup.subperm BTreeMap.nodup_keys fun session lane => ?_).length_le
  exact BTreeMap.mem_constant.mp (ExtTreeMap.mem_keys.mp lane)

theorem length_le_of_validate {relays : List RelayUrl} {u : Unit}
    (valid : (WriteRouting.explicit relays).validate = .ok u) :
    relays.length ≤ destinationEvidenceCapacity := by
  simp only [WriteRouting.validate] at valid
  split_ifs at valid with none many
  exact Nat.le_of_not_lt many

theorem size_destinations_le {routing : WriteRouting} {u : Unit} (valid : routing.validate = .ok u) :
    (destinations routing).size ≤ destinationEvidenceCapacity := by
  cases routing with
  | automatic => exact Nat.zero_le _
  | explicit relays => exact size_constant_le.trans (length_le_of_validate valid)

theorem Bounded.ofFresh (desired : receipt.desiredDestinations = receipt.destinations.keySet)
    (attempts : receipt.attempts = ∅)
    (lanes : receipt.destinations.size ≤ destinationEvidenceCapacity) : Bounded receipt := by
  refine ⟨fun session pending => ?_, fun session wanted => ?_, fun session counted => ?_, lanes⟩
  · rw [desired, BTreeMap.mem_keySet, ExtTreeMap.mem_iff_isSome_getElem?, pending]
    rfl
  · rw [desired] at wanted
    exact BTreeMap.mem_keySet.mp wanted
  · rw [attempts] at counted
    exact absurd counted ExtTreeMap.not_mem_empty

theorem bounded_of_enters (enters : Enters N r receipt) (routed : receipt.routing.validate = .ok ()) :
    Bounded receipt := by
  obtain ⟨event, signature, source, routing, access, -, -, made, applied⟩ := enters
  obtain ⟨current, new, made⟩ := bind_eq_ok.mp made
  obtain rfl := Except.ok.inj made
  have same : receipt.routing = routing :=
    congrArg (·.routing) (applyInitialRoute_eq_ok applied).1
  unfold LocalWriteEvent.new at new
  split at new
  · cases new
  · obtain rfl := Except.ok.inj new
    refine Bounded.applyInitialRoute (.ofFresh rfl rfl ?_) (fun _ _ => pending_of_destinations) applied
    exact size_destinations_le (same ▸ routed)

/-- With every wanted relay on a lane, correcting the source keeps to the lanes. -/
theorem Bounded.correction_le (bounded : Bounded receipt) :
    (correctionDestinations receipt).toList.length ≤ destinationEvidenceCapacity := by
  refine Nat.le_trans ?_ bounded.lanes
  apply BTreeMap.length_le_size BTreeSet.nodup_toList
  intro session listed
  obtain wanted | lane := ExtTreeSet.mem_union_iff.mp (ExtTreeSet.mem_toList.mp listed)
  · exact bounded.desired session wanted
  · exact BTreeMap.mem_keySet.mp lane

theorem Bounded.change {action : Action} (bounded : Bounded receipt)
    (found : s.writes[r]? = some receipt) (fits : Fits N s action)
    (routed : receipt.routing.validate = .ok ())
    (changes : Changes N r receipt action updated) : Bounded updated := by
  cases changes with
  | sign => exact ⟨bounded.pending, bounded.desired, bounded.attempted, bounded.lanes⟩
  | refuse => exact ⟨bounded.pending, bounded.desired, bounded.attempted, bounded.lanes⟩
  | retry => exact ⟨bounded.pending, bounded.desired, bounded.attempted, bounded.lanes⟩
  | authorize => exact ⟨bounded.pending, bounded.desired, bounded.attempted, bounded.lanes⟩
  | fail => exact ⟨bounded.pending, bounded.desired, bounded.attempted, bounded.lanes⟩
  | @route writeId revisionId eventId plan _ _ current applied =>
    refine bounded.applyRoute (fun automatic newer valid => ?_) applied
    change overflows N s _ = false at fits
    by_contra many
    have overflow : overflows N s (.applyRoute writeId r revisionId eventId plan) = true := by
      rw [overflows, found, Option.any_some, current, automatic,
        valid]
      simp [newer, Nat.lt_of_not_le many, Except.isOk, Except.toBool]
    rw [fits] at overflow
    cases overflow
  | @begin _ _ _ session attempt outcome _ _ lane =>
    refine ⟨fun other pending => ?_, fun other wanted => ?_, fun other counted => ?_, ?_⟩
    · change (receipt.destinations.insert session .attempting)[other]? = some .pending at pending
      rw [BTreeMap.find_insert] at pending
      split at pending
      · cases pending
      · exact bounded.pending other pending
    · exact ExtTreeMap.mem_insert.mpr (.inr (bounded.desired other wanted))
    · change other ∈ receipt.destinations.insert session .attempting
      change other ∈ receipt.attempts.insert session attempt at counted
      rw [ExtTreeMap.mem_insert] at counted ⊢
      exact counted.imp_right (bounded.attempted other)
    · change (receipt.destinations.insert session .attempting).size ≤ _
      rw [ExtTreeMap.size_insert, if_pos (ExtTreeMap.contains_iff_mem.mpr
        (ExtTreeMap.mem_iff_isSome_getElem?.mpr (by rw [lane]; rfl)))]
      exact bounded.lanes
  | @outcome _ _ _ session _ outcome _ _ _ decided _ lane =>
    have here : session ∈ receipt.destinations :=
      ExtTreeMap.mem_iff_isSome_getElem?.mpr (by rw [lane]; rfl)
    have reported : outcome ≠ .pending := by
      rintro rfl
      obtain is | is := decided <;> cases is
    obtain ⟨destinations, desired⟩ := settle_lanes
      (receipt.withDestinations (receipt.destinations.insert session outcome))
    have lanes : (settle (receipt.withDestinations
        (receipt.destinations.insert session outcome))).destinations =
        receipt.destinations.insert session outcome := destinations
    refine ⟨fun other pending => ?_, fun other wanted => ?_, fun other counted => ?_, ?_⟩
    · rw [lanes, BTreeMap.find_insert] at pending
      rw [desired]
      split at pending
      · exact absurd (Option.some.inj pending) reported
      · exact bounded.pending other pending
    · rw [desired] at wanted
      rw [lanes]
      exact ExtTreeMap.mem_insert.mpr (.inr (bounded.desired other wanted))
    · rw [attempts_settle] at counted
      rw [lanes]
      exact ExtTreeMap.mem_insert.mpr (.inr (bounded.attempted other counted))
    · rw [lanes, ExtTreeMap.size_insert, if_pos (ExtTreeMap.contains_iff_mem.mpr here)]
      exact bounded.lanes
  | cancel =>
    have lanes : ∀ session : RelayUrl, session ∈ (cancelled receipt).destinations ↔
        session ∈ receipt.destinations := by
      intro session
      change session ∈ receipt.destinations.map _ ↔ _
      exact ExtTreeMap.mem_map
    refine ⟨fun session pending => ?_, fun session wanted => ?_, fun session counted => ?_, ?_⟩
    · change (receipt.destinations.map fun _ _ =>
        RelayDeliveryOutcome.cancelledBeforeHandoff)[session]? = some .pending at pending
      rw [ExtTreeMap.getElem?_map] at pending
      obtain ⟨_, -, is⟩ := Option.map_eq_some_iff.mp pending
      cases is
    · exact (lanes session).mpr (bounded.desired session wanted)
    · exact (lanes session).mpr (bounded.attempted session counted)
    · change (receipt.destinations.map fun _ _ =>
        RelayDeliveryOutcome.cancelledBeforeHandoff).size ≤ _
      rw [ExtTreeMap.size_map]
      exact bounded.lanes
  | restart _ _ _ _ origin generated applied =>
    obtain ⟨id, -, rfl⟩ := nextGeneration_eq_ok generated
    refine Bounded.applyInitialRoute (.ofFresh rfl rfl ?_) (fun _ _ => pending_of_origin origin) applied
    obtain rfl | rfl := origin
    · exact size_destinations_le routed
    · exact size_constant_le.trans bounded.correction_le
  | correct _ _ _ _ few generated applied =>
    obtain ⟨id, -, rfl⟩ := nextGeneration_eq_ok generated
    refine Bounded.applyInitialRoute (.ofFresh ?_ rfl ?_) (fun _ _ => pending_of_constant) applied
    · apply ExtTreeSet.ext_mem
      intro session
      rw [BTreeMap.mem_keySet]
      exact ExtTreeSet.mem_toList.symm.trans BTreeMap.mem_constant.symm
    · rw [← ExtTreeSet.length_toList] at few
      exact size_constant_le.trans few

theorem Bounded.attempts (bounded : Bounded receipt) :
    receipt.attempts.size ≤ destinationEvidenceCapacity :=
  (BTreeMap.size_le_of_subset bounded.attempted).trans bounded.lanes

/-- While every newer plan fits beside the lanes that were tried, no receipt holds more
lanes or attempt counters than recovery takes. The routing of an intent is validated when
it is built. -/
theorem evidence_bounded_of_fits {capacity : Nat} {actions : List Action}
    (run : Run (step N capacity) (Fits N) .default actions s) :
    ∀ (r : ReceiptId) (receipt : Receipt), s.writes[r]? = some receipt →
      receipt.routing.validate = .ok () →
      receipt.destinations.size ≤ destinationEvidenceCapacity ∧
        receipt.attempts.size ≤ destinationEvidenceCapacity := by
  intro r receipt found routed
  have bounded : Bounded receipt := by
    refine run_receipts (fun _ receipt => receipt.routing.validate = .ok () → Bounded receipt)
      (fun _ _ enters routed => bounded_of_enters enters routed) ?_ run r receipt found routed
    intro t action q before after fits held bounded changes routed
    rw [routing_of_changes changes] at routed
    exact (bounded routed).change held fits routed changes
  exact ⟨bounded.lanes, bounded.attempts⟩

theorem routeRevision_settleRoute : (settleRoute receipt).routeRevision = receipt.routeRevision := by
  unfold settleRoute
  repeat' split
  all_goals rfl

/-- A newer plan within the bounds is applied. -/
theorem perform_applyRoute (capacity : Nat) {revisionId : RevisionId} {writeId : WriteId} {eventId : EventId}
    (found : s.writes[r]? = some receipt)
    (current : validateCurrentRevision receipt writeId revisionId eventId = .ok ())
    (automatic : receipt.routing = .automatic) (newer : receipt.routeRevision < plan.revision)
    (valid : validatePlan N plan = .ok ()) (counted : s.revision + 1 < counterBound) :
    ∃ updated, applyNewerRouteToReceipt N receipt plan = .ok updated ∧
      (perform N capacity s (.applyRoute writeId r revisionId eventId plan)).writes[r]? =
        some updated := by
  obtain ⟨updated, applied⟩ : ∃ updated, applyNewerRouteToReceipt N receipt plan = .ok updated := by
    rw [applyNewerRouteToReceipt, valid]
    exact ⟨_, rfl⟩
  have routed : applyRouteToReceipt N receipt plan = .ok updated := by
    rw [applyRouteToReceipt, if_neg (not_not.mpr automatic), if_neg (by omega), if_neg (by omega)]
    exact applied
  have changed : updated ≠ receipt := by
    rintro rfl
    obtain ⟨_, -, applied⟩ := bind_eq_ok.mp applied
    have revised := congrArg (·.routeRevision) (Except.ok.inj applied)
    rw [routeRevision_settleRoute] at revised
    exact absurd revised (Nat.ne_of_gt newer)
  refine ⟨updated, applied, ?_⟩
  have done : (perform N capacity s (.applyRoute writeId r revisionId eventId plan)).writes =
      s.writes.insert r updated := by
    simp only [perform, applyRouteCurrent, atomically, found, demand, bind, Except.bind, current,
      routed, if_neg changed, WriteState.record, nextRevision, if_pos counted]
    by_cases terminal : updated.isTerminal = true
    · rw [if_pos terminal]
      rfl
    · rw [if_neg terminal]
  rw [done, BTreeMap.find_insert, if_pos rfl]

section Sample

/-- As many relays as one plan may name. -/
def plannedRelays : List RelayUrl :=
  (List.range destinationEvidenceCapacity).map fun i =>
    "wss://b.example/" ++ String.ofList (List.replicate i 'b')

def widePlan : RoutePlan where
  revision := 2
  destinations := (BTreeMap.constant plannedRelays ()).map fun relay _ => ⟨relay, ∅, ∅⟩
  coverage := ∅
  unresolved := ∅
  shortfalls := []

theorem nodup_plannedRelays : plannedRelays.Nodup := by
  refine List.Nodup.map (fun i j same => ?_) List.nodup_range
  simpa using congrArg String.length same

theorem not_mem_plannedRelays : "wss://a.example" ∉ plannedRelays := by
  intro listed
  obtain ⟨i, -, same⟩ := List.mem_map.mp listed
  have lengths := congrArg String.length same
  rw [String.length_append] at lengths
  change 16 + _ = 15 at lengths
  omega

theorem size_widePlan : widePlan.destinations.size = destinationEvidenceCapacity := by
  have counted := BTreeMap.length_eq_size (m := BTreeMap.constant plannedRelays ())
    nodup_plannedRelays fun _ => BTreeMap.mem_constant.symm
  rw [widePlan, ExtTreeMap.size_map, ← counted, plannedRelays, List.length_map, List.length_range]

/-- A delivery is tried, and the next plan names as many other relays as it may: one lane
more than recovery takes is kept. -/
theorem tried_lane_passes_bound : ∃ s receipt,
    Run (step plainLibrary 10) Free .default
        (firstAttempt ++ [.applyRoute 1 1 1 18 widePlan]) s ∧
      s.writes[1]? = some receipt ∧ receipt.routing.validate = .ok () ∧
      widePlan.destinations.size ≤ destinationEvidenceCapacity ∧
      ¬receipt.destinations.size ≤ destinationEvidenceCapacity := by
  obtain ⟨s, run, checked⟩ := Run.of_any (show (exec (step plainLibrary 10) Free .default
    firstAttempt).any (fun s => s.revision = 3 && (s.writes[1]?).any fun receipt =>
      receipt.routing = .automatic && receipt.routeRevision = 1 &&
        (validateCurrentRevision receipt 1 1 18).isOk &&
        receipt.destinations.toList = [("wss://a.example", .attempting)]) = true by decide +kernel)
  simp only [Bool.and_eq_true, decide_eq_true_eq] at checked
  obtain ⟨counted, checked⟩ := checked
  obtain ⟨receipt, found, checked⟩ := (Option.any_eq_true _ _).mp checked
  simp only [Bool.and_eq_true, decide_eq_true_eq] at checked
  obtain ⟨⟨⟨automatic, routed⟩, current⟩, lanes⟩ := checked
  obtain ⟨_, current⟩ := isOk_iff.mp current
  have valid : validatePlan plainLibrary widePlan = .ok () := by
    rw [validatePlan, if_neg (Nat.not_lt.mpr size_widePlan.le)]
    rfl
  obtain ⟨updated, applied, placed⟩ := perform_applyRoute 10 found current automatic
    (by rw [routed]; decide) valid (by rw [counted]; decide)
  have same : updated.routing = receipt.routing := congrArg (·.routing) (applyNewer_eq_ok applied).2
  refine ⟨_, updated, run.snoc trivial rfl, placed, by rw [same, automatic]; rfl, size_widePlan.le, ?_⟩
  have pending : ∀ session : RelayUrl, receipt.destinations[session]? ≠ some .pending := by
    intro session lane
    have listed := ExtTreeMap.mem_toList_iff_getElem?_eq_some.mpr lane
    rw [lanes, List.mem_singleton] at listed
    cases listed
  have unplanned : widePlan.destinations.contains "wss://a.example" = false := by
    rw [← Bool.not_eq_true, ExtTreeMap.contains_iff_mem]
    exact fun planned => not_mem_plannedRelays (BTreeMap.mem_constant.mp (ExtTreeMap.mem_map.mp planned))
  rw [← size_of_applyNewer (fun session lane => (pending session lane).elim) applied, lanesUnder,
    size_widePlan, lanes]
  simp [unplanned]

/-- A plan that names one relay fits beside the lane that was tried. -/
theorem evidence_bounded_after_rerouting : ∃ s,
    Run (step plainLibrary 10) (Fits plainLibrary) .default (firstAttempt ++ [rerouted, offline]) s ∧
      ∀ (r : ReceiptId) (receipt : Receipt), s.writes[r]? = some receipt →
        receipt.routing.validate = .ok () →
        receipt.destinations.size ≤ destinationEvidenceCapacity ∧
          receipt.attempts.size ≤ destinationEvidenceCapacity := by
  obtain ⟨s, run, -⟩ := Run.of_any (show (exec (step plainLibrary 10) (Fits plainLibrary) .default
    (firstAttempt ++ [rerouted, offline])).any (fun _ => true) = true by decide +kernel)
  exact ⟨s, run, evidence_bounded_of_fits run⟩

end Sample

end Fava.WriteStore.Memory
