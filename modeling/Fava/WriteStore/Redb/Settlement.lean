import Fava.WriteStore.Memory.Lanes
import Fava.WriteStore.Memory.Settlement
import Fava.WriteStore.Redb.Encoding
import Fava.WriteStore.Redb.Opening

namespace Fava.WriteStore.Redb

open Std Fava.Lib Fava.Nostr Fava.Relay Fava.Routing Fava.Write
open Memory (Settled settled_of_enters settled_of_run)

variable {N : Library} {W : NostrJson} {receipt : Receipt} {r : ReceiptId}
  {semantic : Option SemanticCustody}

theorem agrees_of_outcomeAgrees (agrees : outcomeAgrees receipt = true) : Agrees receipt := by
  unfold outcomeAgrees at agrees
  unfold Agrees derivedOutcome
  cases outcome : receipt.outcome with
  | cancelled => exact .inl rfl
  | isOpen | complete | noDestination =>
    rw [outcome] at agrees
    cases settled : receipt.routeSettled <;> cases all : receipt.allTerminal <;>
      cases wanted : receipt.desiredDestinations.isEmpty <;> simp [settled, all, wanted] at agrees ⊢

/-- What a row says of its outcome and its lanes is checked when it is read. -/
theorem settled_of_valid (valid : validateReceipt N r receipt semantic = .ok ()) : Settled receipt := by
  obtain ⟨-, valid⟩ := require_bind_eq_ok.mp valid
  obtain ⟨-, valid⟩ := require_bind_eq_ok.mp valid
  obtain ⟨_, -, valid⟩ := bind_eq_ok.mp valid
  obtain ⟨_, routed, valid⟩ := bind_eq_ok.mp valid
  obtain ⟨_, -, valid⟩ := bind_eq_ok.mp valid
  obtain ⟨_, agrees, -⟩ := bind_eq_ok.mp valid
  have agrees := of_require agrees
  refine ⟨agrees_of_outcomeAgrees agrees, fun explicit => ?_⟩
  unfold validateRouting at routed
  cases routing : receipt.routing with
  | automatic =>
    rw [routing] at explicit
    cases explicit
  | explicit relays =>
    rw [routing] at routed
    obtain ⟨some, routed⟩ := require_bind_eq_ok.mp routed
    obtain ⟨-, routed⟩ := require_bind_eq_ok.mp routed
    obtain ⟨lanes, -⟩ := of_require routed
    obtain ⟨relay, relays, rfl⟩ := List.exists_cons_of_ne_nil some
    refine ⟨relay, BTreeMap.mem_keySet.mp ?_⟩
    rw [lanes, ExtTreeSet.mem_ofList]
    simp

/-- An attempt that is under way is one of an open receipt. -/
theorem open_of_ambiguous (valid : validateReceipt N r receipt semantic = .ok ())
    (ambiguous : isAmbiguous receipt = true) : receipt.outcome = .isOpen := by
  obtain ⟨-, valid⟩ := require_bind_eq_ok.mp valid
  obtain ⟨-, valid⟩ := require_bind_eq_ok.mp valid
  obtain ⟨_, -, valid⟩ := bind_eq_ok.mp valid
  obtain ⟨_, -, valid⟩ := bind_eq_ok.mp valid
  obtain ⟨_, -, valid⟩ := bind_eq_ok.mp valid
  obtain ⟨_, agrees, -⟩ := bind_eq_ok.mp valid
  have agrees := of_require agrees
  obtain ⟨outcome, listed, is⟩ := List.any_eq_true.mp ambiguous
  obtain rfl := of_decide_eq_true is
  obtain cancelled | derived := agrees_of_outcomeAgrees agrees
  · rw [outcomeAgrees, cancelled] at agrees
    have withdrawn := of_decide_eq_true (List.all_eq_true.mp agrees _ listed)
    cases withdrawn
  · obtain ⟨session, lane⟩ := BTreeMap.mem_values.mp listed
    rw [derived, derivedOutcome_of_lane session _ lane rfl]

/-- Ending the attempts that were under way settles the receipt again. -/
theorem settled_recoverReceipt (valid : validateReceipt N r receipt semantic = .ok ()) :
    Settled (recoverReceipt receipt) := by
  have settled := settled_of_valid valid
  unfold recoverReceipt
  split
  · rename_i interrupted
    have isOpen := open_of_ambiguous valid interrupted
    apply Settled.of_settle
    · exact isOpen
    · intro explicit
      obtain ⟨session, lane⟩ := settled.lanes explicit
      exact ⟨session, ExtTreeMap.mem_map.mpr lane⟩
  · exact settled

/-- In every store a process has open, the outcome of a receipt that is not cancelled says
whether there is work left. -/
theorem settled_of_running {commands : List Command} {s : Store}
    (run : Run (step N W) Free .initial commands (.running s)) :
    ∀ (r : ReceiptId) (receipt : Receipt), s.state.receipts[r]? = some receipt →
      receipt.routing.validate = .ok () → Settled receipt := by
  refine (running_of_transitions (I := fun s => ∀ (r : ReceiptId) (receipt : Receipt),
    s.state.receipts[r]? = some receipt → receipt.routing.validate = .ok () → Settled receipt)
    ?_ (fun _ _ holds => holds) ?_ run).2
  · intro limits database loaded s read recovered r receipt found _
    obtain ⟨-, loads, valid⟩ := load_eq_ok.mp read
    rw [(recovered.find loads r).1, Option.map_eq_some_iff] at found
    obtain ⟨row, here, rfl⟩ := found
    have held : loaded.receipts[r]? = some row.receipt := by
      rw [loads.receipts, here]
      rfl
    exact settled_recoverReceipt (valid_of_reconstructed valid held).1
  · intro t action u _ settled transition r updated found routed
    obtain kept | ⟨receipt, present, changes⟩ | ⟨-, enters⟩ := transition.receipts r updated found
    · exact settled r updated kept routed
    · rw [Memory.routing_of_changes changes] at routed
      exact (settled r receipt present routed).change routed changes
    · exact settled_of_enters enters routed

/-- A receipt of a ledger that one of the two stores can reach. -/
inductive Kept (N : Library) (W : NostrJson) (capacity : Nat) (receipt : Receipt) : Prop
  | inMemory {actions : List Memory.Action} {s : Memory.WriteState} {r : ReceiptId}
      (run : Run (Memory.step N capacity) Free .default actions s) (found : s.writes[r]? = some receipt)
  | onDisk {commands : List Command} {s : Store} {r : ReceiptId}
      (run : Run (step N W) Free .initial commands (.running s))
      (found : s.state.receipts[r]? = some receipt)

/-- What a receipt says of its outcome follows from its route and its lanes, and both ways
of settling an open receipt give it the same outcome. -/
theorem kept_receipts_coherent {capacity : Nat} (kept : Kept N W capacity receipt)
    (routed : receipt.routing.validate = .ok ()) (live : receipt.outcome ≠ .cancelled) :
    OutcomeCoherent receipt ∧
      ∀ other : Receipt, other.outcome = .isOpen → settle other = settleRoute other := by
  refine ⟨?_, fun other isOpen => settle_eq_settleRoute isOpen⟩
  cases kept with
  | inMemory run found => exact (settled_of_run run _ receipt found routed).agrees.coherent live
  | onDisk run found => exact (settled_of_running run _ receipt found routed).agrees.coherent live

section Sample

def smallLimits : StoreLimits := ⟨4, 2, four_active, Nat.two_pos⟩

/-- One attempt was made when the process ended. -/
def interruptedAttempt : List Command :=
  [.reopen smallLimits none] ++ Memory.firstAttempt.map (.perform none) ++ [.reopen smallLimits none]

/-- The attempt that was interrupted is the last one of its route. -/
theorem interrupted_receipt_coherent : ∃ receipt,
    Kept plainLibrary plainJson 4 receipt ∧ receipt.outcome = .complete ∧ OutcomeCoherent receipt := by
  obtain ⟨system, run, checked⟩ := Run.of_any (show (exec (step plainLibrary plainJson) Free .initial
    interruptedAttempt).any (System.holds fun s => (s.state.receipts[1]?).any fun receipt =>
      receipt.outcome = .complete && receipt.routing = .automatic) = true by decide +kernel)
  obtain ⟨s, rfl, checked⟩ := holds_iff.mp checked
  obtain ⟨receipt, found, checked⟩ := (Option.any_eq_true _ _).mp checked
  rw [Bool.and_eq_true, decide_eq_true_eq, decide_eq_true_eq] at checked
  have routed : receipt.routing.validate = .ok () := by
    rw [checked.2]
    rfl
  have kept : Kept plainLibrary plainJson 4 receipt := .onDisk run found
  exact ⟨receipt, kept, checked.1, (kept_receipts_coherent kept routed (by rw [checked.1]; decide)).1⟩

end Sample

end Fava.WriteStore.Redb
