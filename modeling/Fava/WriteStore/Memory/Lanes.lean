import Fava.WriteStore.Memory.Transition

namespace Fava.WriteStore.Memory

open Std Fava.Lib Fava.Nostr Fava.Relay Fava.Routing Fava.Write

/-- No lane waits for an attempt that nobody will make: what is pending or can be
retried is still wanted. -/
def LanesWanted (receipt : Receipt) : Prop :=
  ∀ (session : RelayUrl) (outcome : RelayDeliveryOutcome),
    receipt.destinations[session]? = some outcome → outcome.isPreHandoff = true →
    session ∈ receipt.desiredDestinations

/-- An attempt reports a failure that can be retried after its relay was withdrawn. -/
def failsAfterWithdrawal (s : WriteState) : Action → Bool
  | .recordOutcome _ r _ _ session _ outcome =>
    outcome.isRetryable && (s.writes[r]?).any fun receipt =>
      receipt.destinations[session]? = some .attempting &&
        !receipt.desiredDestinations.contains session
  | _ => false

/-- No failure that can be retried comes from a relay that was withdrawn meanwhile. -/
def InTime (s : WriteState) (action : Action) : Prop := failsAfterWithdrawal s action = false

instance (s : WriteState) (action : Action) : Decidable (InTime s action) :=
  inferInstanceAs (Decidable (_ = false))

variable {N : Library} {s : WriteState} {r : ReceiptId} {receipt updated : Receipt}

theorem LanesWanted.of_keys (lanes : ∀ session : RelayUrl, session ∈ receipt.destinations →
    session ∈ receipt.desiredDestinations) : LanesWanted receipt := by
  intro session outcome found _
  apply lanes
  rw [ExtTreeMap.mem_iff_isSome_getElem?, found]
  rfl

/-- Withdrawing closes every lane that still waits. -/
theorem not_preHandoff_of_withdrawnLane {lane : Option RelayDeliveryOutcome}
    {outcome : RelayDeliveryOutcome} (h : withdrawnLane lane = some outcome) :
    outcome.isPreHandoff = false := by
  obtain _ | previous := lane
  · cases h
  · cases previous <;> cases h <;> rfl

theorem LanesWanted.applyRoute {plan : RoutePlan} (wanted : LanesWanted receipt)
    (applied : applyRouteToReceipt N receipt plan = .ok updated) : LanesWanted updated := by
  obtain rfl | ⟨-, -, applied⟩ := applyRoute_cases applied
  · exact wanted
  · obtain ⟨desired, lanes⟩ := applyNewer_lanes applied
    intro session outcome found waits
    rw [lanes session] at found
    rw [desired, BTreeMap.mem_keySet]
    by_contra unplanned
    rw [if_neg unplanned] at found
    by_cases before : session ∈ receipt.desiredDestinations
    · rw [if_pos before] at found
      rw [not_preHandoff_of_withdrawnLane found] at waits
      cases waits
    · rw [if_neg before] at found
      exact before (wanted session outcome found waits)

theorem LanesWanted.applyInitialRoute {route : Option RoutePlan} (wanted : LanesWanted receipt)
    (applied : applyInitialRoute N receipt route = .ok updated) : LanesWanted updated := by
  cases route with
  | none =>
    obtain rfl := Except.ok.inj applied
    exact wanted
  | some plan => exact wanted.applyRoute applied

theorem lanesWanted_of_enters (enters : Enters N r receipt) : LanesWanted receipt := by
  obtain ⟨event, signature, source, routing, access, -, -, made, applied⟩ := enters
  obtain ⟨lanes, desired⟩ := lanes_of_acceptedReceipt made
  refine LanesWanted.applyInitialRoute (.of_keys ?_) applied
  intro session present
  rw [lanes] at present
  rw [desired]
  exact BTreeMap.mem_keySet.mpr present

theorem settle_lanes (receipt : Receipt) : (settle receipt).destinations = receipt.destinations ∧
    (settle receipt).desiredDestinations = receipt.desiredDestinations := by
  unfold settle
  split <;> exact ⟨rfl, rfl⟩

theorem LanesWanted.change {action : Action} (wanted : LanesWanted receipt)
    (found : s.writes[r]? = some receipt) (inTime : InTime s action)
    (changes : Changes N r receipt action updated) : LanesWanted updated := by
  cases changes with
  | sign => exact wanted
  | refuse => exact wanted
  | retry => exact wanted
  | authorize => exact wanted
  | fail => exact wanted
  | route _ _ applied => exact wanted.applyRoute applied
  | @begin _ _ _ session =>
    intro other outcome lane waits
    change (receipt.destinations.insert session .attempting)[other]? = some outcome at lane
    rw [BTreeMap.find_insert] at lane
    split at lane
    · cases lane
      cases waits
    · exact wanted other outcome lane waits
  | @outcome _ _ _ session _ outcome current _ _ decided _ lane moves =>
    intro other reported lane' waits
    rw [(settle_lanes _).1] at lane'
    rw [(settle_lanes _).2]
    change (receipt.destinations.insert session outcome)[other]? = some reported at lane'
    rw [BTreeMap.find_insert] at lane'
    split at lane'
    · -- The reported lane: only a failure that can be retried leaves it waiting.
      rename_i same
      subst same
      cases lane'
      have undecided : outcome.isTerminal ≠ true := by
        intro terminal
        rw [RelayDeliveryOutcome.isPreHandoff_of_isTerminal terminal] at waits
        cases waits
      have retryable : outcome.isRetryable = true := decided.resolve_left undecided
      obtain rfl : current = .attempting := by
        obtain attempting | ⟨-, givenUp⟩ := moves
        · exact attempting
        · exact absurd (RelayDeliveryOutcome.isTerminal_of_isGivenUp givenUp) undecided
      show session ∈ receipt.desiredDestinations
      change failsAfterWithdrawal _ _ = false at inTime
      simpa [failsAfterWithdrawal, retryable, found, lane, ExtTreeSet.contains_iff_mem] using inTime
    · exact wanted other reported lane' waits
  | cancel =>
    intro session outcome lane waits
    change (receipt.destinations.map fun _ _ =>
      RelayDeliveryOutcome.cancelledBeforeHandoff)[session]? = _ at lane
    rw [ExtTreeMap.getElem?_map] at lane
    obtain ⟨_, -, rfl⟩ := Option.map_eq_some_iff.mp lane
    cases waits
  | restart event source lanes _ _ generated applied =>
    obtain ⟨id, -, rfl⟩ := nextGeneration_eq_ok generated
    refine LanesWanted.applyInitialRoute (.of_keys ?_) applied
    intro session present
    exact BTreeMap.mem_keySet.mpr present
  | correct event source _ _ _ generated applied =>
    obtain ⟨id, -, rfl⟩ := nextGeneration_eq_ok generated
    refine LanesWanted.applyInitialRoute (.of_keys ?_) applied
    intro session present
    exact ExtTreeSet.mem_toList.mp (BTreeMap.mem_constant.mp present)

/-- In every run in which no failure that can be retried comes from a relay withdrawn
meanwhile, every lane that waits is wanted. -/
theorem lanes_wanted_of_inTime {capacity : Nat} {actions : List Action}
    (run : Run (step N capacity) InTime .default actions s) :
    ∀ (r : ReceiptId) (receipt : Receipt), s.writes[r]? = some receipt → LanesWanted receipt :=
  run_receipts (fun _ => LanesWanted) (fun _ _ => lanesWanted_of_enters)
    (fun _ _ _ _ _ inTime found wanted changes => wanted.change found inTime changes) run

section Sample

/-- A signed note, and plans that name one relay each. -/
def note : Event := ⟨18, 7, 10, 1, [], "", 0⟩

def planTo (revision : Nat) (relay : RelayUrl) : RoutePlan :=
  ⟨revision, BTreeMap.constant [relay] ⟨relay, ∅, ∅⟩, ∅, ∅, []⟩

def firstAttempt : List Action :=
  [.accept ⟨.presigned note, .automatic, .unauthenticated⟩,
    .applyRoute 1 1 1 18 (planTo 1 "wss://a.example"),
    .beginAttempt 1 1 1 18 "wss://a.example" 1]

def offline : Action :=
  .recordOutcome 1 1 1 18 "wss://a.example" 1 (.retryable "offline")

def rerouted : Action := .applyRoute 1 1 1 18 (planTo 2 "wss://b.example")

/-- The relay is withdrawn while the attempt is in flight, and the attempt then fails
before handoff: the receipt stays open for a lane nobody wants. -/
theorem withdrawn_lane_stays_retryable : ∃ s receipt,
    Run (step plainLibrary 10) Free .default (firstAttempt ++ [rerouted, offline]) s ∧
      s.writes[1]? = some receipt ∧ receipt.isTerminal = false ∧ ¬LanesWanted receipt := by
  obtain ⟨s, run, checked⟩ := Run.of_any (show (exec (step plainLibrary 10) Free .default
    (firstAttempt ++ [rerouted, offline])).any (fun s => (s.writes[1]?).any fun receipt =>
      !receipt.isTerminal && receipt.destinations["wss://a.example"]? = some (.retryable "offline") &&
        !receipt.desiredDestinations.contains "wss://a.example") = true by decide +kernel)
  obtain ⟨receipt, found, checked⟩ := (Option.any_eq_true _ _).mp checked
  simp only [Bool.and_eq_true, Bool.not_eq_true', decide_eq_true_eq] at checked
  obtain ⟨⟨isOpen, lane⟩, unwanted⟩ := checked
  refine ⟨s, receipt, run, found, isOpen, fun wanted => ?_⟩
  have desired := wanted _ _ lane rfl
  rw [← ExtTreeSet.contains_iff_mem, unwanted] at desired
  cases desired

/-- A failure reported before the relay is withdrawn closes its lane. -/
theorem lanes_wanted_after_rerouting : ∃ s,
    Run (step plainLibrary 10) InTime .default (firstAttempt ++ [offline, rerouted]) s ∧
      ∀ (r : ReceiptId) (receipt : Receipt), s.writes[r]? = some receipt → LanesWanted receipt := by
  obtain ⟨s, run, -⟩ := Run.of_any (show (exec (step plainLibrary 10) InTime .default
    (firstAttempt ++ [offline, rerouted])).any (fun _ => true) = true by decide +kernel)
  exact ⟨s, run, lanes_wanted_of_inTime run⟩

end Sample

end Fava.WriteStore.Memory
