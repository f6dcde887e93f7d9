import Fava.Edits.Nip02
import Fava.Edits.Bookmarks
import Fava.Edits.SavedGroups
import Fava.Write.Intent
import Mathlib.Data.List.Infix

namespace Fava

open Lib Nostr Relay Write Edits

inductive Publication.PublicationError
  | routing (reason : String)

open Publication in
/-- The appliers selected by kind, and the routing of an event that has been built. -/
structure Publication (RoutePlan : Type) where
  appliers : Kind → Option EditApplier
  routeFor : UnsignedEvent → WriteRouting → Authority → Except PublicationError RoutePlan

namespace Publication

/-- The newest of the source's and the current revision's timestamps. -/
def newest (source current : Option EventValue) : Option Timestamp :=
  (source.toList ++ current.toList).map EventValue.createdAt |>.max?

/-- A timestamp after both the source and the current revision. -/
def injectedTimestamp (now : Timestamp) (source current : Option EventValue) :
    Except PublicationError Timestamp :=
  match newest source current with
  | none => .ok now
  | some timestamp =>
    if timestamp + 1 < 2 ^ 64 then .ok (max now (timestamp + 1))
    else .error (.routing "revision timestamp exhausted")

def validateRevision (N : Library) (edit : EventEdit) (author : PublicKey) (event : UnsignedEvent)
    (injectedCreatedAt : Timestamp) : Except PublicationError Unit :=
  match event.id with
  | none => .error (.routing "semantic revision has no event id")
  | some id =>
    let coordinate := eventCoordinate N id event.pubkey event.kind event.tags
    if event.createdAt ≠ injectedCreatedAt then
      .error (.routing "semantic revision ignored the injected timestamp")
    else if event.pubkey ≠ author ∨ coordinate ≠ editCoordinate edit author then
      .error (.routing "semantic revision author or coordinate does not match accepted write")
    else .ok ()

section Sequence

variable {RoutePlan : Type} (N : Library) (P : Publication RoutePlan)

def applier (edit : EventEdit) : Except PublicationError EditApplier :=
  match P.appliers edit.kind with
  | none => .error (.routing ("no selected applier for kind " ++ toString edit.kind))
  | some applier =>
    if applier.supports edit then .ok applier
    else .error (.routing
      ("selected applier does not support kind " ++ toString edit.kind ++ " edit"))

/-- Apply the edit at one place of a sequence. -/
def applyEdit (author : PublicKey) (createdAt : Timestamp) (count index : Nat)
    (input : Option EventValue) (edit : EventEdit) : Except PublicationError UnsignedEvent := do
  let applier ← P.applier edit
  let event ← (applier.apply edit author input createdAt).mapError fun error =>
    .routing ("semantic edit " ++ toString (index + 1) ++ " of " ++ toString count ++
      " revision refused: " ++ error.text)
  validateRevision N edit author event createdAt
  pure event

/-- Apply a non-empty sequence of edits, each to the event the previous one gave, all
at one timestamp. -/
def applySequence (author : PublicKey) (createdAt : Timestamp) (count : Nat) :
    Nat → Option EventValue → EventEdit → List EventEdit → Except PublicationError UnsignedEvent
  | index, input, edit, [] => P.applyEdit N author createdAt count index input edit
  | index, input, edit, next :: rest => do
    let event ← P.applyEdit N author createdAt count index input edit
    applySequence author createdAt count (index + 1) (some (.unsigned event)) next rest

def applySequenceAndRoute (now : Timestamp) (edits : List EventEdit) (author : PublicKey)
    (source current : Option EventValue) (routing : WriteRouting) (access : Authority) :
    Except PublicationError (UnsignedEvent × RoutePlan) :=
  match edits with
  | [] => .error (.routing "semantic edit sequence is empty")
  | first :: rest => do
    let createdAt ← injectedTimestamp now source current
    let event ← P.applySequence N author createdAt edits.length 0 source first rest
    let route ← P.routeFor event routing access
    pure (event, route)

end Sequence

/-- The lists whose edits the repository knows how to apply. -/
inductive ListProtocol
  | contacts
  | bookmarks
  | savedGroups

namespace ListProtocol

def applier (N : Library) : ListProtocol → EditApplier
  | .contacts => Nip02.applier N
  | .bookmarks => Bookmarks.applier N
  | .savedGroups => SavedGroups.applier N

/-- The tag transformation of a single edit. -/
def transform (N : Library) : ListProtocol → EventEdit → List Tag → Except WriteIntentError (List Tag)
  | .contacts => Nip02.transform N
  | .bookmarks => Bookmarks.transform N
  | .savedGroups => SavedGroups.transform N

/-- The tags after each edit in turn. -/
def folded (N : Library) (protocol : ListProtocol) (source : Option EventValue)
    (edits : List EventEdit) : Except WriteIntentError (List Tag) :=
  edits.foldlM (fun tags edit => protocol.transform N edit tags) (sourceTags source)

/-- The source and every list along the way stay within the bounds of an event. -/
def InBounds (N : Library) (protocol : ListProtocol) (author : PublicKey) (createdAt : Timestamp)
    (source : Option EventValue) (edits : List EventEdit) : Prop :=
  (∀ s, source = some s → Nip02.validateValueSource s = .ok ()) ∧
    ∀ applied, applied ≠ [] → applied <+: edits → ∀ tags, protocol.folded N source applied = .ok tags →
      ∃ event, buildEvent N author (protocol.applier N).kind createdAt tags (sourceContent source) =
        .ok event ∧ Nip02.validateValueSource (.unsigned event) = .ok ()

/-- The event the sequence is to end in. -/
def Rebased (N : Library) (protocol : ListProtocol) (source : Option EventValue)
    (edits : List EventEdit) (event : UnsignedEvent) : Prop :=
  event.content = sourceContent source ∧ protocol.folded N source edits = .ok event.tags

variable {N : Library}

theorem rebases (protocol : ListProtocol) : Rebases N (protocol.applier N) (protocol.transform N)
    (Nip02.validateValueSource · = .ok ()) := by
  cases protocol with
  | contacts => exact Nip02.rebases
  | bookmarks =>
    have rebases := Bookmarks.rebases (N := N)
    exact { rebases with
      applies := fun edit author source createdAt tags event supported qualified =>
        rebases.applies edit author source createdAt tags event supported
          fun s here => ⟨trivial, (qualified s here).2⟩ }
  | savedGroups =>
    have rebases := SavedGroups.rebases (N := N)
    exact { rebases with
      applies := fun edit author source createdAt tags event supported qualified =>
        rebases.applies edit author source createdAt tags event supported
          fun s here => ⟨trivial, (qualified s here).2⟩ }

end ListProtocol

section Rebased

variable {RoutePlan : Type} {N : Library} {P : Publication RoutePlan} {author : PublicKey}
  {createdAt now : Timestamp} {count index : Nat} {source current input : Option EventValue}
  {edit : EventEdit} {edits : List EventEdit} {event : UnsignedEvent} {protocol : ListProtocol}

/-- One edit of a sequence is applied by the selected applier. -/
theorem applyEdit_eq_ok (selected : P.appliers edit.kind = some (protocol.applier N))
    (h : P.applyEdit N author createdAt count index input edit = .ok event) :
    (protocol.applier N).apply edit author input createdAt = .ok event ∧
      event.createdAt = createdAt := by
  obtain ⟨applier, found, h⟩ := bind_eq_ok.mp h
  obtain ⟨applied, changed, h⟩ := bind_eq_ok.mp h
  obtain ⟨_, valid, h⟩ := bind_eq_ok.mp h
  cases h
  unfold Publication.applier at found
  rw [selected] at found
  dsimp only at found
  split at found
  · cases found
    refine ⟨mapError_eq_ok.mp changed, ?_⟩
    unfold validateRevision at valid
    split at valid
    · cases valid
    · dsimp only at valid
      split at valid
      · cases valid
      · rename_i same
        exact not_not.mp same
  · cases found

/-- No second edit is ever applied: its source has the very timestamp it is to carry. -/
theorem applySequence_ne_ok {next : EventEdit} {rest : List EventEdit}
    (selected : ∀ edit ∈ next :: rest, P.appliers edit.kind = some (protocol.applier N))
    (late : ∀ s, input = some s → createdAt ≤ s.createdAt) (here : input.isSome) :
    P.applySequence N author createdAt count index input next rest ≠ .ok event := by
  obtain ⟨s, rfl⟩ := Option.isSome_iff_exists.mp here
  have never : ∀ applied, P.applyEdit N author createdAt count index (some s) next ≠ .ok applied :=
    fun applied h => protocol.rebases.refuses _ _ _ _ _ (late s rfl)
      (applyEdit_eq_ok (selected next List.mem_cons_self) h).1
  cases rest with
  | nil => exact never event
  | cons other rest =>
    intro h
    obtain ⟨applied, first, -⟩ := bind_eq_ok.mp h
    exact never applied first

theorem injectedTimestamp_eq_ok (h : injectedTimestamp now source current = .ok createdAt) :
    ∀ s, source = some s ∨ current = some s → s.createdAt < createdAt := by
  intro s here
  have listed : s ∈ source.toList ++ current.toList := by
    obtain rfl | rfl := here
    · simp
    · simp
  unfold injectedTimestamp at h
  split at h
  · rename_i none
    rw [newest, List.max?_eq_none_iff, List.map_eq_nil_iff] at none
    rw [none] at listed
    cases listed
  · rename_i timestamp most
    split at h
    · cases h
      have bound : s.createdAt ≤ timestamp :=
        (List.max?_eq_some_iff.mp most).2 _ (List.mem_map.mpr ⟨s, listed, rfl⟩)
      exact (Nat.lt_succ_of_le bound).trans_le (Nat.le_max_right _ _)
    · cases h

/-- There is a later timestamp unless one of the two is the last there is. -/
theorem injectedTimestamp_ok_iff (now : Timestamp) :
    (∃ createdAt, injectedTimestamp now source current = .ok createdAt) ↔
      ∀ s, source = some s ∨ current = some s → s.createdAt < 2 ^ 64 - 1 := by
  have listed : ∀ s, source = some s ∨ current = some s ↔ s ∈ source.toList ++ current.toList := by
    simp
  simp only [listed]
  unfold injectedTimestamp
  split
  · rename_i none
    rw [newest, List.max?_eq_none_iff, List.map_eq_nil_iff] at none
    simp [none]
  · rename_i timestamp most
    obtain ⟨attained, bound⟩ := List.max?_eq_some_iff.mp most
    obtain ⟨s, hs, rfl⟩ := List.mem_map.mp attained
    by_cases room : s.createdAt + 1 < 2 ^ 64
    · rw [if_pos room]
      refine ⟨fun _ t ht => ?_, fun _ => ⟨_, rfl⟩⟩
      exact (bound _ (List.mem_map.mpr ⟨t, ht, rfl⟩)).trans_lt (Nat.lt_sub_of_add_lt room)
    · rw [if_neg room]
      refine iff_of_false ?_ fun all => room (Nat.add_lt_of_lt_sub (all s hs))
      rintro ⟨_, ⟨⟩⟩

/-- A revision of one of the lists has the coordinate of its edit. -/
theorem validateRevision_of_buildEvent {tags : List Tag} {content : String}
    (supported : (protocol.applier N).supports edit = true)
    (built : buildEvent N author (protocol.applier N).kind createdAt tags content = .ok event) :
    validateRevision N edit author event createdAt = .ok () := by
  obtain ⟨kind, identifier⟩ := protocol.rebases.coordinate edit supported
  have list := (protocol.rebases (N := N)).list
  have replaceable := N.isReplaceable_list _ list
  have plain : inAddressableRange (protocol.applier N).kind = false := by
    rw [inAddressableRange, Bool.and_eq_false_iff, decide_eq_false_iff_not, Nat.not_le]
    obtain three | range := list
    · exact .inl (by rw [three]; decide)
    · exact .inl (range.2.trans (by decide))
  rw [buildEvent_eq_ok built, validateRevision]
  simp only [eventCoordinate, plain, replaceable, editCoordinate, kind, identifier, ne_eq,
    not_true_eq_false, or_self, if_false, if_true, Bool.false_eq_true]

theorem applyEdit_of_qualified {tags : List Tag}
    (selected : P.appliers edit.kind = some (protocol.applier N))
    (supported : (protocol.applier N).supports edit = true)
    (qualified : ∀ s, source = some s → Nip02.validateValueSource s = .ok () ∧
      s.verify N = .ok () ∧ s.author = author ∧ s.kind = (protocol.applier N).kind ∧
        s.createdAt < createdAt)
    (transformed : protocol.transform N edit (sourceTags source) = .ok tags)
    (built : buildEvent N author (protocol.applier N).kind createdAt tags (sourceContent source) =
      .ok event) : P.applyEdit N author createdAt count index source edit = .ok event := by
  have applied := protocol.rebases.applies edit author source createdAt tags event supported
    qualified transformed built
  refine bind_eq_ok.mpr ⟨protocol.applier N, ?_, ?_⟩
  · unfold Publication.applier
    rw [selected]
    exact if_pos supported
  · refine bind_eq_ok.mpr ⟨event, mapError_eq_ok.mpr applied, ?_⟩
    exact bind_eq_ok.mpr ⟨(), validateRevision_of_buildEvent supported built, rfl⟩

/-- A sequence of edits that should rebase does so exactly when it is a single edit and
a later timestamp is left. -/
theorem applySequenceAndRoute_rebases_iff (N : Library) (P : Publication RoutePlan)
    (protocol : ListProtocol) (now : Timestamp) (edits : List EventEdit) (author : PublicKey)
    (source current : Option EventValue) (routing : WriteRouting) (access : Authority)
    (filled : edits ≠ [])
    (selected : P.appliers (protocol.applier N).kind = some (protocol.applier N))
    (supported : ∀ edit ∈ edits, (protocol.applier N).supports edit = true)
    (qualified : ∀ s, source = some s → s.verify N = .ok () ∧ s.author = author ∧
      s.kind = (protocol.applier N).kind)
    (bounded : ∀ createdAt, injectedTimestamp now source current = .ok createdAt →
      protocol.InBounds N author createdAt source edits)
    (routes : ∀ event, ∃ route, P.routeFor event routing access = .ok route) :
    (∃ event route, P.applySequenceAndRoute N now edits author source current routing access =
        .ok (event, route) ∧ protocol.Rebased N source edits event) ↔
      edits.length = 1 ∧ ∀ s, source = some s ∨ current = some s → s.createdAt < 2 ^ 64 - 1 := by
  have chosen : ∀ edit ∈ edits, P.appliers edit.kind = some (protocol.applier N) := by
    intro edit he
    rw [(protocol.rebases.coordinate edit (supported edit he)).1]
    exact selected
  obtain - | ⟨first, rest⟩ := edits
  · exact (filled rfl).elim
  rw [← injectedTimestamp_ok_iff now]
  constructor
  · rintro ⟨event, route, h, -⟩
    obtain ⟨createdAt, injected, h⟩ := bind_eq_ok.mp h
    obtain ⟨applied, h, -⟩ := bind_eq_ok.mp h
    refine ⟨?_, createdAt, injected⟩
    cases rest with
    | nil => rfl
    | cons next rest =>
      -- The first edit's event already has the timestamp of the second one.
      obtain ⟨middle, once, again⟩ := bind_eq_ok.mp h
      have same := (applyEdit_eq_ok (chosen first List.mem_cons_self) once).2
      refine (applySequence_ne_ok (fun edit he => chosen edit (List.mem_cons_of_mem _ he))
        (fun s here => ?_) rfl again).elim
      cases here
      exact same.ge
  · rintro ⟨single, createdAt, injected⟩
    obtain rfl : rest = [] := by simpa using single
    have earlier := injectedTimestamp_eq_ok injected
    obtain ⟨fits, inside⟩ := bounded createdAt injected
    obtain ⟨tags, transformed⟩ := protocol.rebases.total first (sourceTags source)
      (supported first List.mem_cons_self)
    have folded : protocol.folded N source [first] = .ok tags := bind_eq_ok.mpr ⟨tags, transformed, rfl⟩
    obtain ⟨event, built, -⟩ := inside [first] (by simp) (List.prefix_refl _) tags folded
    obtain ⟨route, routed⟩ := routes event
    have applied : P.applyEdit N author createdAt 1 0 source first = .ok event :=
      applyEdit_of_qualified (chosen first List.mem_cons_self) (supported first List.mem_cons_self)
        (fun s here => ⟨fits s here, (qualified s here).1, (qualified s here).2.1,
          (qualified s here).2.2, earlier s (.inl here)⟩) transformed built
    refine ⟨event, route, ?_, ?_⟩
    · exact bind_eq_ok.mpr ⟨createdAt, injected, bind_eq_ok.mpr ⟨event, applied,
        bind_eq_ok.mpr ⟨route, routed, rfl⟩⟩⟩
    · obtain rfl := buildEvent_eq_ok built
      exact ⟨rfl, folded⟩

section TwoFollows

/-- Follow the key of this number. -/
def follow (key : UInt8) : EventEdit := ⟨3, none, 1 :: List.replicate 31 0 ++ [key]⟩

def contactPublication : Publication Unit where
  appliers kind := if kind = 3 then some (Nip02.applier plainLibrary) else none
  routeFor _ _ _ := .ok ()

/-- The event built from the folded tags fits, and encodes again within the bounds. -/
def fits (edits : List EventEdit) : Bool :=
  (ListProtocol.contacts.folded plainLibrary none edits).toOption.any fun tags =>
    (buildEvent plainLibrary 9 3 1000 tags "").toOption.any fun event =>
      (Nip02.validateValueSource (.unsigned event)).isOk

theorem inBounds_of_fits {edits : List EventEdit}
    (all : ∀ applied ∈ edits.inits, applied ≠ [] → fits applied = true) :
    ListProtocol.contacts.InBounds plainLibrary 9 1000 none edits := by
  refine ⟨fun s here => (by cases here), fun applied filled sub tags folded => ?_⟩
  have fit := all applied ((List.mem_inits _ _).mpr sub) filled
  rw [fits, folded] at fit
  cases built : buildEvent plainLibrary 9 3 1000 tags "" with
  | error e =>
    rw [Except.toOption, Option.any_some, built] at fit
    cases fit
  | ok event =>
    rw [Except.toOption, Option.any_some, built] at fit
    obtain ⟨_, valid⟩ := isOk_iff.mp fit
    exact ⟨event, built, valid⟩

/-- Two follows, both supported and within every bound, do not rebase. -/
theorem two_follows_refused :
    (∀ edit ∈ [follow 1, follow 2], (Nip02.applier plainLibrary).supports edit = true) ∧
      (∀ createdAt, injectedTimestamp 1000 none none = .ok createdAt →
        ListProtocol.contacts.InBounds plainLibrary 9 createdAt none [follow 1, follow 2]) ∧
      ∀ result, contactPublication.applySequenceAndRoute plainLibrary 1000 [follow 1, follow 2] 9
        none none .automatic .unauthenticated ≠ .ok result := by
  refine ⟨by decide +kernel, fun createdAt injected => ?_, fun result h => ?_⟩
  · cases injected
    exact inBounds_of_fits (by decide +kernel)
  · have refused : (contactPublication.applySequenceAndRoute plainLibrary 1000
        [follow 1, follow 2] 9 none none .automatic .unauthenticated).isOk = false := by
      decide +kernel
    rw [h] at refused
    cases refused

theorem one_follow_rebases :
    ∃ event route, contactPublication.applySequenceAndRoute plainLibrary 1000 [follow 1] 9 none none
        .automatic .unauthenticated = .ok (event, route) ∧
      ListProtocol.contacts.Rebased plainLibrary none [follow 1] event := by
  refine (applySequenceAndRoute_rebases_iff plainLibrary contactPublication .contacts 1000 [follow 1]
    9 none none .automatic .unauthenticated (by decide) rfl (by decide +kernel) ?_ ?_
    fun _ => ⟨(), rfl⟩).mpr ⟨rfl, ?_⟩
  · intro s here
    cases here
  · intro createdAt injected
    cases injected
    exact inBounds_of_fits (by decide +kernel)
  · rintro s (here | here)
    · cases here
    · cases here

end TwoFollows

end Rebased

end Publication

end Fava
