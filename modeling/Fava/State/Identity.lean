import Fava.State.Mutations

namespace Fava.State

open Fava.Nostr Fava.Write

/-- The identifier of a verified event is the digest of all but its signature, and
deletions are not replaceable. -/
structure Rules.Lawful (R : Rules) : Prop where
  binding : ∀ a b : Event, R.verify a = .ok () → R.verify b = .ok () → a.id = b.id →
    { a with sig := b.sig } = b
  deletion : R.isReplaceable eventDeletion = false

variable {R : Rules} {a b target deletion e : Event} {known other incoming : RelayEvent}
  {id : EventId} {author : PublicKey} {kind : Kind} {identifier : Option String} {now : Timestamp}

theorem eventCoordinate_eq_event {N : Library} {tags : List Tag} {id' : EventId}
    (h : eventCoordinate N id' author kind tags = .event id) : id' = id := by
  unfold eventCoordinate at h
  split at h
  · cases h
  · split at h
    · cases h
    · exact EventCoordinate.event.inj h

theorem id_of_coordinate (h : coordinateOf R e = .event id) : e.id = id :=
  eventCoordinate_eq_event h

theorem coordinateOf_replaceable (h : coordinateOf R e = .replaceable author kind identifier) :
    e.pubkey = author ∧ e.kind = kind := by
  unfold coordinateOf eventCoordinate at h
  split at h
  · obtain ⟨rfl, rfl, -⟩ := EventCoordinate.replaceable.inj h
    exact ⟨rfl, rfl⟩
  · split at h
    · obtain ⟨rfl, rfl, -⟩ := EventCoordinate.replaceable.inj h
      exact ⟨rfl, rfl⟩
    · cases h

/-- Events of one coordinate are one event, or have one author and one kind. -/
theorem same_of_coordinate (h : coordinateOf R a = coordinateOf R b) :
    a.id = b.id ∨ (∃ author kind identifier, coordinateOf R b = .replaceable author kind identifier) ∧
      a.pubkey = b.pubkey ∧ a.kind = b.kind := by
  cases is : coordinateOf R b with
  | event id =>
    rw [is] at h
    exact .inl ((id_of_coordinate h).trans (id_of_coordinate is).symm)
  | replaceable author kind identifier =>
    rw [is] at h
    obtain ⟨rfl, rfl⟩ := coordinateOf_replaceable is
    obtain ⟨author, kind⟩ := coordinateOf_replaceable h
    exact .inr ⟨⟨_, _, _, rfl⟩, author, kind⟩

theorem coordinateOf_deletion (lawful : R.Lawful) (h : e.kind = eventDeletion) :
    coordinateOf R e = .event e.id := by
  unfold coordinateOf eventCoordinate
  rw [h, lawful.deletion]
  rfl

theorem kind_of_deletes (h : deletionApplies R deletion target = true) :
    deletion.kind = eventDeletion ∧ target.kind ≠ eventDeletion ∧ deletion.pubkey = target.pubkey := by
  unfold deletionApplies at h
  split at h
  · cases h
  · rename_i applies
    simpa [and_assoc] using applies

theorem not_deletes_of_kind (h : deletion.kind ≠ eventDeletion) :
    deletionApplies R deletion target = false := by
  by_contra applies
  exact h (kind_of_deletes (by simpa using applies)).1

/-- The deletion names the target by its identifier. -/
def NamesEvent (R : Rules) (deletion target : Event) : Prop :=
  (deletion.tags.any fun tag => (tagValue "e" tag).bind R.idFromHex = some target.id) = true

/-- The deletion names the coordinate of the target. -/
def NamesCoordinate (R : Rules) (deletion target : Event) : Prop :=
  (deletion.tags.any fun tag => ((tagValue "a" tag).bind R.parseCoordinate).any fun c =>
    coordinateOf R target = .replaceable c.publicKey c.kind
      (if inAddressableRange c.kind then some c.identifier else none)) = true

/-- A deletion that does not name an event by its identifier deletes all its coordinate
had up to the time of the deletion. -/
theorem deletes_iff (unnamed : ¬NamesEvent R deletion target) :
    deletionApplies R deletion target = true ↔
      (deletion.kind = eventDeletion ∧ target.kind ≠ eventDeletion ∧ deletion.pubkey = target.pubkey) ∧
        target.createdAt ≤ deletion.createdAt ∧ NamesCoordinate R deletion target := by
  unfold NamesEvent at unnamed
  unfold deletionApplies
  rw [if_neg unnamed]
  split
  · rename_i refused
    refine ⟨nofun, fun ⟨⟨kind, target, author⟩, _⟩ => ?_⟩
    simp [kind, target, author] at refused
  · rename_i applies
    have applies : deletion.kind = eventDeletion ∧ target.kind ≠ eventDeletion ∧
        deletion.pubkey = target.pubkey := by simpa [and_assoc] using applies
    split
    · rename_i later
      exact ⟨nofun, fun h => absurd h.2.1 (Nat.not_le_of_lt later)⟩
    · rename_i earlier
      exact ⟨fun named => ⟨applies, Nat.le_of_not_lt earlier, named⟩, fun h => h.2.2⟩

section Lawful

variable (lawful : R.Lawful) (first : R.verify a = .ok ()) (second : R.verify b = .ok ())
  (same : a.id = b.id)
include lawful first second same

theorem Rules.Lawful.eq_of_id : ∃ sig, b = { a with sig := sig } :=
  ⟨b.sig, (lawful.binding a b first second same).symm⟩

theorem Rules.Lawful.coordinate_eq : coordinateOf R a = coordinateOf R b := by
  obtain ⟨sig, rfl⟩ := lawful.eq_of_id first second same
  rfl

theorem Rules.Lawful.deleted_eq : deletionApplies R deletion a = deletionApplies R deletion b := by
  obtain ⟨sig, rfl⟩ := lawful.eq_of_id first second same
  rfl

theorem Rules.Lawful.expired_eq : eventIsExpired a.tags now = eventIsExpired b.tags now := by
  obtain ⟨sig, rfl⟩ := lawful.eq_of_id first second same
  rfl

theorem Rules.Lawful.kind_eq : a.kind = b.kind := by
  obtain ⟨sig, rfl⟩ := lawful.eq_of_id first second same
  rfl

end Lawful

/-- Copies of one event in one session differ at most in when they were seen, for whom,
and in their signature. -/
def Alike (a b : RelayEvent) : Prop :=
  a.occurrence.session = b.occurrence.session ∧ ∃ sig, b.event = { a.event with sig := sig }

section Alike

variable {a b c : RelayEvent}

theorem Alike.kind_eq (alike : Alike a b) : a.event.kind = b.event.kind := by
  obtain ⟨-, sig, is⟩ := alike
  rw [is]

theorem Alike.deletes (alike : Alike a b) :
    deletionApplies R a.event target = deletionApplies R b.event target := by
  obtain ⟨-, sig, is⟩ := alike
  rw [is]
  rfl

theorem Alike.deleted (alike : Alike a b) :
    deletionApplies R deletion a.event = deletionApplies R deletion b.event := by
  obtain ⟨-, sig, is⟩ := alike
  rw [is]
  rfl

theorem Alike.newer (alike : Alike a b) : a.newer c = b.newer c := by
  obtain ⟨-, sig, is⟩ := alike
  rw [RelayEvent.newer, RelayEvent.newer, is]

theorem Alike.older (alike : Alike a b) : c.newer a = c.newer b := by
  obtain ⟨-, sig, is⟩ := alike
  rw [RelayEvent.newer, RelayEvent.newer, is]

theorem Alike.rivals (alike : Alike a b) : Rivals R a b := by
  obtain ⟨session, sig, is⟩ := alike
  rw [Rivals, is]
  exact ⟨session, rfl⟩

end Alike

theorem Rivals.symm {a b : RelayEvent} (rivals : Rivals R a b) : Rivals R b a :=
  ⟨rivals.1.symm, rivals.2.symm⟩

theorem Rivals.trans {a b c : RelayEvent} (first : Rivals R a b) (second : Rivals R b c) :
    Rivals R a c :=
  ⟨first.1.trans second.1, first.2.trans second.2⟩

section Deleted

variable {d x w : RelayEvent} (rivals : Rivals R x w) (differ : x.event.id ≠ w.event.id)
include rivals differ

/-- Of two events of one coordinate, a deletion of the coordinate that spares one of them
is older than it. -/
theorem newer_of_spared (unnamed : ¬NamesEvent R d.event w.event) (unnamed' : ¬NamesEvent R d.event x.event)
    (deletes : deletionApplies R d.event w.event = true)
    (spares : deletionApplies R d.event x.event = false) : x.newer w = true := by
  obtain ⟨-, author, kind⟩ := (same_of_coordinate rivals.2).resolve_left differ
  obtain ⟨⟨deletion, target, own⟩, until', named⟩ := (deletes_iff unnamed).mp deletes
  have later : d.event.createdAt < x.event.createdAt := by
    by_contra early
    have deletes' : deletionApplies R d.event x.event = true := by
      refine (deletes_iff unnamed').mpr ⟨⟨deletion, ?_, ?_⟩, Nat.le_of_not_lt early, ?_⟩
      · rw [kind]
        exact target
      · rw [author]
        exact own
      · rw [NamesCoordinate, rivals.2]
        exact named
    rw [spares] at deletes'
    cases deletes'
  simp only [RelayEvent.newer, eventIsNewer, Bool.or_eq_true, decide_eq_true_eq]
  exact .inl (Nat.lt_of_le_of_lt until' later)

/-- A deletion of a coordinate that deletes an event deletes the older ones too. -/
theorem deletes_of_newer (unnamed : ¬NamesEvent R d.event w.event)
    (unnamed' : ¬NamesEvent R d.event x.event)
    (deletes : deletionApplies R d.event x.event = true) (newer : x.newer w = true) :
    deletionApplies R d.event w.event = true := by
  by_contra spares
  rw [Bool.not_eq_true] at spares
  have newer' := newer_of_spared rivals.symm differ.symm unnamed' unnamed deletes spares
  rw [newer_asymm newer'] at newer
  cases newer

end Deleted

section Plain

def plainCoordinate (text : String) : Option Coordinate :=
  match text.toList.splitOn ':' with
  | kind :: author :: identifier => do
    let kind ← parseU64 (String.ofList kind)
    let author ← fromHex (String.ofList author)
    some ⟨author, kind, String.ofList ([':'].intercalate identifier)⟩
  | _ => none

/-- The rules where just these events verify. -/
def listedRules (events : List Event) : Rules where
  toLibrary := { plainLibrary with
    verify := fun event => if event ∈ events then .ok () else .error "invalid event signature" }
  parseCoordinate := plainCoordinate

theorem verify_listed {events : List Event} :
    (listedRules events).verify e = .ok () ↔ e ∈ events := by
  change (if e ∈ events then Except.ok () else .error "invalid event signature") = .ok () ↔ e ∈ events
  by_cases listed : e ∈ events <;> simp [listed]

theorem listedRules_lawful {events : List Event}
    (binding : ∀ a ∈ events, ∀ b ∈ events, a.id = b.id → { a with sig := b.sig } = b) :
    (listedRules events).Lawful := by
  refine ⟨fun a b first second => ?_, rfl⟩
  exact binding a (verify_listed.mp first) b (verify_listed.mp second)

end Plain

end Fava.State
