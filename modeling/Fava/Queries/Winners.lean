import Fava.Queries.Merging

namespace Fava.Queries

open Std Fava.Lib Fava.Nostr Fava.Relay Fava.State Fava.Subscriptions Fava.Write

variable {N : Library} {query : Query} {sources : List SourceSnapshot} {cs : List SourceEvent}
  {record other : EventRecord} {records all : List EventRecord} {a b c : Timestamp × EventId}
  {ordering : QueryOrdering}

theorem eq_of_not_newer (h : eventIsNewer a b = false) (h' : eventIsNewer b a = false) : a = b := by
  simp only [eventIsNewer, Bool.or_eq_false_iff, Bool.and_eq_false_iff, decide_eq_false_iff_not,
    gt_iff_lt, Nat.not_lt] at h h'
  have time : a.1 = b.1 := Nat.le_antisymm h.1 h'.1
  refine Prod.ext time (Nat.le_antisymm ?_ ?_)
  · exact h'.2.resolve_left (not_not.mpr time.symm)
  · exact h.2.resolve_left (not_not.mpr time)

namespace QueryOrdering

theorem le_trans (first : ordering.le a b = true) (second : ordering.le b c = true) :
    ordering.le a c = true := by
  cases ordering <;>
    simp only [le, Bool.or_eq_true, Bool.and_eq_true, decide_eq_true_eq] at first second ⊢ <;>
    grind

theorem le_total : (ordering.le a b || ordering.le b a) = true := by
  cases ordering <;>
    simp only [le, Bool.or_eq_true, Bool.and_eq_true, decide_eq_true_eq] <;>
    grind

theorem le_antisymm (first : ordering.le a b = true) (second : ordering.le b a = true) : a = b := by
  cases ordering <;>
    simp only [le, Bool.or_eq_true, Bool.and_eq_true, decide_eq_true_eq] at first second <;>
    grind

end QueryOrdering

theorem EventRecord.newer_irrefl (record : EventRecord) : record.newer record = false :=
  eventIsNewer_irrefl

theorem EventRecord.newer_trans (first second third : EventRecord)
    (h : first.newer second = true) (h' : second.newer third = true) : first.newer third = true :=
  eventIsNewer_trans h h'

theorem find_winners {coordinate : EventCoordinate} :
    (records.foldl (insertNewest N) ∅)[coordinate]? =
      (records.filter (·.coordinate N = coordinate)).foldl
        (fun v r => some (keepGreater EventRecord.newer r v)) none := by
  unfold insertNewest
  rw [BTreeMap.find_foldl_merge, ExtTreeMap.getElem?_empty]

/-- A record wins if none of its coordinate is newer. -/
theorem mem_coordinateWinners (nodup : (records.map (·.id)).Nodup) :
    record ∈ coordinateWinners N records ↔ record ∈ records ∧
      ∀ other ∈ records, other.coordinate N = record.coordinate N → other.newer record = false := by
  rw [coordinateWinners, BTreeMap.mem_values]
  constructor
  · rintro ⟨coordinate, found⟩
    rw [find_winners] at found
    have here := mem_of_foldl_keepGreater found
    rw [List.mem_filter, decide_eq_true_eq] at here
    obtain ⟨here, rfl⟩ := here
    refine ⟨here, fun other listed same => ?_⟩
    exact foldl_keepGreater_greatest EventRecord.newer_irrefl EventRecord.newer_trans found other
      (List.mem_filter.mpr ⟨listed, decide_eq_true same⟩)
  · rintro ⟨here, newest⟩
    refine ⟨record.coordinate N, ?_⟩
    have rival : record ∈ records.filter (·.coordinate N = record.coordinate N) :=
      List.mem_filter.mpr ⟨here, decide_eq_true rfl⟩
    rw [find_winners]
    cases chosen : (records.filter (·.coordinate N = record.coordinate N)).foldl
        (fun v r => some (keepGreater EventRecord.newer r v)) none with
    | none =>
      rw [foldl_keepGreater_eq_none.mp chosen] at rival
      cases rival
    | some best =>
      have listed := List.mem_filter.mp (mem_of_foldl_keepGreater chosen)
      have same := eq_of_not_newer (newest best listed.1 (of_decide_eq_true listed.2))
        (foldl_keepGreater_greatest EventRecord.newer_irrefl EventRecord.newer_trans chosen record rival)
      rw [List.inj_on_of_nodup_map nodup listed.1 here (congrArg Prod.snd same)]

theorem coordinates_coordinateWinners :
    ((coordinateWinners N records).map (·.coordinate N)).Nodup := by
  have keys : (coordinateWinners N records).map (·.coordinate N) =
      (records.foldl (insertNewest N) ∅).toList.map Prod.fst := by
    rw [coordinateWinners, BTreeMap.values_eq, List.map_map]
    apply List.map_congr_left
    rintro ⟨coordinate, winner⟩ listed
    rw [ExtTreeMap.mem_toList_iff_getElem?_eq_some, find_winners] at listed
    exact of_decide_eq_true (List.mem_filter.mp (mem_of_foldl_keepGreater listed)).2
  rw [keys, ExtTreeMap.map_fst_toList_eq_keys]
  exact BTreeMap.nodup_keys

/-- The record is of what the query selects. -/
def Matches (query : Query) (record : EventRecord) : Prop :=
  matchesSelection query.selection record.id record.event = true

/-- What an evaluation makes of the records of a merge. -/
structure Chosen (N : Library) (query : Query) (records all : List EventRecord) : Prop where
  sorted : all.Pairwise fun left right => query.ordering.le left.stamp right.stamp = true
  ids : (all.map (·.id)).Nodup
  coordinates : (all.map (·.coordinate N)).Nodup
  mem_iff : ∀ record, record ∈ all ↔ record ∈ records ∧ Matches query record ∧
    ∀ other ∈ records, Matches query other → other.coordinate N = record.coordinate N →
      other.newer record = false

theorem chosen_of_merged (merged : Merged query sources records) :
    Chosen N query records ((coordinateWinners N (records.filter fun record =>
      matchesSelection query.selection record.id record.event)).mergeSort fun left right =>
        query.ordering.le left.stamp right.stamp) := by
  have kept : ((records.filter fun record =>
      matchesSelection query.selection record.id record.event).map (·.id)).Nodup :=
    merged.nodup.sublist (List.filter_sublist.map _)
  have member : ∀ record, record ∈ coordinateWinners N (records.filter fun record =>
      matchesSelection query.selection record.id record.event) ↔ record ∈ records ∧
        Matches query record ∧ ∀ other ∈ records, Matches query other →
          other.coordinate N = record.coordinate N → other.newer record = false := by
    intro record
    rw [mem_coordinateWinners kept, List.mem_filter, and_assoc]
    refine and_congr Iff.rfl (and_congr Iff.rfl ?_)
    exact ⟨fun h other here fits => h other (List.mem_filter.mpr ⟨here, fits⟩),
      fun h other here => h other (List.mem_filter.mp here).1 (List.mem_filter.mp here).2⟩
  have winners : ((coordinateWinners N (records.filter fun record =>
      matchesSelection query.selection record.id record.event))).Nodup :=
    List.Nodup.of_map _ coordinates_coordinateWinners
  refine ⟨?_, ?_, ?_, fun record => ?_⟩
  · apply List.pairwise_mergeSort
    · exact fun _ _ _ => QueryOrdering.le_trans
    · exact fun _ _ => QueryOrdering.le_total
  · rw [((List.mergeSort_perm _ _).map _).nodup_iff]
    refine winners.map_on fun left here right here' same => ?_
    exact List.inj_on_of_nodup_map merged.nodup ((member left).mp here).1 ((member right).mp here').1 same
  · rw [((List.mergeSort_perm _ _).map _).nodup_iff]
    exact coordinates_coordinateWinners
  · rw [List.mem_mergeSort]
    exact member record

theorem evaluateAll_eq_ok (h : evaluateAll N query sources = .ok all) :
    ∃ records, Merged query sources records ∧ Chosen N query records all := by
  obtain ⟨records, translated, h⟩ := bind_eq_ok.mp h
  obtain rfl := Except.ok.inj h
  have merged := merged_of_mapM translated
  exact ⟨records, merged, chosen_of_merged merged⟩

/-- The data of two events that an identifier stands for. -/
def SameBody (a b : EventValue) : Prop :=
  a.author = b.author ∧ a.kind = b.kind ∧ a.createdAt = b.createdAt ∧ a.tags = b.tags

/-- Every contribution goes by the identifier of its event, and an identifier stands for
one event, as digests do. -/
structure Digested (cs : List SourceEvent) : Prop where
  named : ∀ c ∈ cs, c.value.id = some c.id
  body : ∀ c ∈ cs, ∀ d ∈ cs, c.id = d.id → SameBody c.value d.value

def SourceEvent.coordinate (N : Library) (c : SourceEvent) : EventCoordinate :=
  eventCoordinate N c.id c.value.author c.value.kind c.value.tags

def SourceEvent.stamp (c : SourceEvent) : Timestamp × EventId := (c.value.createdAt, c.id)

/-- A contribution is selected, and newer than all others that are selected at its
coordinate. -/
structure Wins (N : Library) (selection : FilterSelection) (cs : List SourceEvent)
    (c : SourceEvent) : Prop where
  here : c ∈ cs
  selected : matchesSelection selection c.id c.value = true
  greatest : ∀ d ∈ cs, matchesSelection selection d.id d.value = true →
    d.coordinate N = c.coordinate N → d.id = c.id ∨ eventIsNewer c.stamp d.stamp = true

/-- Whether some contribution of an event is signed. -/
def signedIn (cs : List SourceEvent) (id : EventId) : Bool :=
  cs.any fun c => c.id = id && isSigned c.value

/-- The earliest occurrences of one event. -/
def occurrencesIn (cs : List SourceEvent) (id : EventId) : RelayOccurrences :=
  ⟨id, ((cs.filter (·.id = id)).filterMap (·.relayEvent)).foldl addOccurrence ∅⟩

/-- What a result shows of a record whatever the order of the sources. -/
def EventRecord.view (record : EventRecord) : (Timestamp × EventId) × Bool × RelayOccurrences :=
  (record.stamp, isSigned record.event, record.relayOccurrences)

theorem matchesSelection_congr {selection : FilterSelection} {id : EventId} {a b : EventValue}
    (same : SameBody a b) : matchesSelection selection id a = matchesSelection selection id b := by
  obtain ⟨author, kind, -, tags⟩ := same
  unfold matchesSelection
  rw [author, kind, tags]

theorem Merged.isSigned_eq (merged : Merged query sources records) (here : record ∈ records) :
    isSigned record.event = signedIn (offered query sources) record.id := by
  obtain ⟨candidate, gathers, is⟩ := merged.gathers here
  rw [is]
  change isSigned candidate.event = _
  rw [gathers.signed, List.any_filter]
  rfl

theorem Merged.occurrences_eq (merged : Merged query sources records) (here : record ∈ records) :
    record.relayOccurrences = occurrencesIn (offered query sources) record.id := by
  obtain ⟨candidate, gathers, is⟩ := merged.gathers here
  rw [is]
  change RelayOccurrences.mk record.id _ = occurrencesIn _ record.id
  rw [gathers.relay, occurrencesIn]

section Digested

variable (digested : Digested (offered query sources)) (merged : Merged query sources records)
include digested merged

theorem Digested.same_body {c : SourceEvent} (here : record ∈ records)
    (offer : c ∈ offered query sources) (same : c.id = record.id) :
    SameBody c.value record.event := by
  obtain ⟨candidate, gathers, is⟩ := merged.gathers here
  obtain ⟨d, listed, value⟩ := gathers.value
  rw [List.mem_filter, decide_eq_true_eq] at listed
  rw [is]
  change SameBody c.value candidate.event
  rw [← value]
  exact digested.body c offer d listed.1 (same.trans listed.2.symm)

theorem Digested.coordinate_eq {c : SourceEvent} (here : record ∈ records)
    (offer : c ∈ offered query sources) (same : c.id = record.id) :
    c.coordinate N = record.coordinate N := by
  obtain ⟨author, kind, -, tags⟩ := digested.same_body merged here offer same
  rw [SourceEvent.coordinate, EventRecord.coordinate, same, author, kind, tags]

theorem Digested.stamp_eq {c : SourceEvent} (here : record ∈ records)
    (offer : c ∈ offered query sources) (same : c.id = record.id) : c.stamp = record.stamp :=
  Prod.ext (digested.same_body merged here offer same).2.2.1 same

theorem Digested.matches_iff {c : SourceEvent} (here : record ∈ records)
    (offer : c ∈ offered query sources) (same : c.id = record.id) :
    matchesSelection query.selection c.id c.value = true ↔ Matches query record := by
  rw [Matches, same, matchesSelection_congr (digested.same_body merged here offer same)]

/-- The records of a result are those of the contributions that win. -/
theorem Digested.wins_iff (chosen : Chosen N query records all) {c : SourceEvent}
    (offer : c ∈ offered query sources) (here : record ∈ records) (same : c.id = record.id) :
    record ∈ all ↔ Wins N query.selection (offered query sources) c := by
  rw [chosen.mem_iff]
  constructor
  · rintro ⟨-, fits, newest⟩
    refine ⟨offer, (digested.matches_iff merged here offer same).mpr fits, ?_⟩
    intro d offer' selected rivals
    obtain ⟨other, here', same'⟩ := merged.exists_record offer'
    rw [digested.coordinate_eq merged here' offer' same'.symm,
      digested.coordinate_eq merged here offer same] at rivals
    have lower := newest other here'
      ((digested.matches_iff merged here' offer' same'.symm).mp selected) rivals
    rw [digested.stamp_eq merged here offer same, digested.stamp_eq merged here' offer' same'.symm]
    cases above : record.newer other with
    | true => exact .inr above
    | false =>
      have equal := congrArg Prod.snd (eq_of_not_newer lower above)
      exact .inl (same'.symm.trans (equal.trans same.symm))
  · intro wins
    refine ⟨here, (digested.matches_iff merged here offer same).mp wins.selected, ?_⟩
    intro other here' fits rivals
    obtain ⟨candidate, gathers, -⟩ := merged.gathers here'
    obtain ⟨d, listed, -⟩ := gathers.value
    rw [List.mem_filter, decide_eq_true_eq] at listed
    obtain ⟨offer', same'⟩ := listed
    rw [← digested.coordinate_eq merged here' offer' same',
      ← digested.coordinate_eq merged here offer same] at rivals
    obtain equal | above := wins.greatest d offer'
      ((digested.matches_iff merged here' offer' same').mpr fits) rivals
    · rw [same', same] at equal
      rw [List.inj_on_of_nodup_map merged.nodup here' here equal]
      exact EventRecord.newer_irrefl record
    · rw [digested.stamp_eq merged here offer same, digested.stamp_eq merged here' offer' same'] at above
      by_contra lower
      rw [Bool.not_eq_false] at lower
      have loop := eventIsNewer_trans lower above
      rw [eventIsNewer_irrefl] at loop
      cases loop

theorem Digested.mem_view (chosen : Chosen N query records all)
    {view : (Timestamp × EventId) × Bool × RelayOccurrences} :
    view ∈ all.map EventRecord.view ↔ ∃ c, Wins N query.selection (offered query sources) c ∧
      view = (c.stamp, signedIn (offered query sources) c.id,
        occurrencesIn (offered query sources) c.id) := by
  rw [List.mem_map]
  constructor
  · rintro ⟨record, member, rfl⟩
    have here := ((chosen.mem_iff record).mp member).1
    obtain ⟨candidate, gathers, -⟩ := merged.gathers here
    obtain ⟨c, listed, -⟩ := gathers.value
    rw [List.mem_filter, decide_eq_true_eq] at listed
    obtain ⟨offer, same⟩ := listed
    refine ⟨c, (digested.wins_iff merged chosen offer here same).mp member, ?_⟩
    rw [EventRecord.view, digested.stamp_eq merged here offer same, same, merged.isSigned_eq here,
      merged.occurrences_eq here]
  · rintro ⟨c, wins, rfl⟩
    obtain ⟨record, here, same⟩ := merged.exists_record wins.here
    refine ⟨record, (digested.wins_iff merged chosen wins.here here same.symm).mpr wins, ?_⟩
    rw [EventRecord.view, digested.stamp_eq merged here wins.here same.symm, ← same,
      merged.isSigned_eq here, merged.occurrences_eq here]

end Digested

/-- Where identifiers are digests, nothing keeps an evaluation from its result. -/
theorem Digested.evaluateAll_total (digested : Digested (offered query sources)) :
    ∃ all, evaluateAll N query sources = .ok all := by
  have translated : ∃ records,
      (mergeAll query sources).toList.mapM (fun e => e.2.intoRecord e.1) = .ok records := by
    refine mapM_ok_iff.mpr ?_
    rintro ⟨id, candidate⟩ listed
    rw [ExtTreeMap.mem_toList_iff_getElem?_eq_some, find_mergeAll] at listed
    have gathers := gathers_of_gather listed
    refine ⟨_, intoRecord_eq_ok.mpr ⟨fun relay here => ?_, ?_, rfl⟩⟩
    · rw [gathers.relay, List.mem_filterMap] at here
      obtain ⟨c, listed, is⟩ := here
      cases c with
      | relay contribution =>
        cases is
        exact of_decide_eq_true (List.mem_filter.mp listed).2
      | localWrite contribution => cases is
    · obtain ⟨c, listed, value⟩ := gathers.value
      rw [List.mem_filter, decide_eq_true_eq] at listed
      rw [← value, digested.named c listed.1, listed.2]
  obtain ⟨records, translated⟩ := translated
  exact ⟨_, bind_eq_ok.mpr ⟨records, translated, rfl⟩⟩

theorem Digested.perm {cs' : List SourceEvent} (digested : Digested cs) (perm : cs.Perm cs') :
    Digested cs' :=
  ⟨fun c here => digested.named c (perm.mem_iff.mpr here),
    fun c here d here' => digested.body c (perm.mem_iff.mpr here) d (perm.mem_iff.mpr here')⟩

theorem Wins.perm {cs' : List SourceEvent} {selection : FilterSelection} {c : SourceEvent}
    (wins : Wins N selection cs c) (perm : cs.Perm cs') : Wins N selection cs' c :=
  ⟨perm.mem_iff.mp wins.here, wins.selected, fun d here => wins.greatest d (perm.mem_iff.mpr here)⟩

theorem offered_perm {sources' : List SourceSnapshot}
    (perm : (contributions sources).Perm (contributions sources')) :
    (offered query sources).Perm (offered query sources') :=
  perm.filter _

theorem authority_of_offered {c : RelayEvent} (here : .relay c ∈ offered query sources) :
    c.occurrence.authority = query.access := by
  have qualifies : relayQualifies query c = true := (List.mem_filter.mp here).2
  unfold relayQualifies at qualifies
  rw [Bool.and_eq_true, decide_eq_true_eq] at qualifies
  exact qualifies.1

/-- Occurrences under one authority may be added in any order. -/
theorem addOccurrence_comm {m : BTreeMap RelayUrl RelayOccurrence} {x y : RelayEvent}
    (same : x.occurrence.authority = y.occurrence.authority) :
    addOccurrence (addOccurrence m x) y = addOccurrence (addOccurrence m y) x := by
  obtain ⟨event, sx, ax, tx⟩ := x
  obtain ⟨event', sy, ay, ty⟩ := y
  obtain rfl : ax = ay := same
  apply ExtTreeMap.ext_getElem?
  intro k
  simp only [addOccurrence, BTreeMap.find_insert]
  by_cases together : sx = sy
  · subst together
    by_cases here : sx = k
    · simp only [here, if_true]
      cases m[k]? <;> grind
    · simp only [here, if_false]
  · by_cases left : sx = k <;> by_cases right : sy = k <;>
      simp_all

theorem occurrencesIn_perm {sources' : List SourceSnapshot} {id : EventId}
    (perm : (offered query sources).Perm (offered query sources')) :
    occurrencesIn (offered query sources) id = occurrencesIn (offered query sources') id := by
  unfold occurrencesIn
  congr 1
  refine ((perm.filter _).filterMap _).foldl_eq' (fun x hx y hy m => ?_) _
  have under : ∀ z ∈ ((offered query sources).filter (·.id = id)).filterMap (·.relayEvent),
      z.occurrence.authority = query.access := by
    intro z hz
    obtain ⟨c, listed, is⟩ := List.mem_filterMap.mp hz
    cases c with
    | relay contribution =>
      cases is
      exact authority_of_offered (List.mem_filter.mp listed).1
    | localWrite contribution => cases is
  exact addOccurrence_comm ((under x hx).trans (under y hy).symm)

/-- One result shows what the other shows, record by record. -/
theorem Digested.view_eq {sources' : List SourceSnapshot} {records' all' : List EventRecord}
    (digested : Digested (offered query sources))
    (perm : (offered query sources).Perm (offered query sources'))
    (merged : Merged query sources records) (chosen : Chosen N query records all)
    (merged' : Merged query sources' records') (chosen' : Chosen N query records' all') :
    all.map EventRecord.view = all'.map EventRecord.view := by
  have digested' := digested.perm perm
  have member : ∀ view, view ∈ all.map EventRecord.view ↔ view ∈ all'.map EventRecord.view := by
    intro view
    rw [digested.mem_view merged chosen, digested'.mem_view merged' chosen']
    have signed : ∀ id, signedIn (offered query sources) id = signedIn (offered query sources') id :=
      fun id => perm.any_eq
    constructor
    · rintro ⟨c, wins, is⟩
      exact ⟨c, wins.perm perm, is.trans (by rw [signed, occurrencesIn_perm perm])⟩
    · rintro ⟨c, wins, is⟩
      exact ⟨c, wins.perm perm.symm, is.trans (by rw [signed, occurrencesIn_perm perm])⟩
  have nodup : ∀ {records all}, Chosen N query records all → (all.map EventRecord.view).Nodup := by
    intro records all chosen
    refine (List.Nodup.of_map _ chosen.ids).map_on fun left here right here' same => ?_
    exact List.inj_on_of_nodup_map chosen.ids here here' (congrArg (·.1.2) same)
  have sorted : ∀ {records all}, Chosen N query records all →
      (all.map EventRecord.view).Pairwise fun left right => query.ordering.le left.1 right.1 = true := by
    intro records all chosen
    rw [List.pairwise_map]
    exact chosen.sorted
  have shown : (all.map EventRecord.view).Perm (all'.map EventRecord.view) :=
    (List.perm_ext_iff_of_nodup (nodup chosen) (nodup chosen')).mpr member
  refine shown.eq_of_pairwise (fun left right here here' first second => ?_) (sorted chosen)
    (sorted chosen')
  obtain ⟨record, listed, rfl⟩ := List.mem_map.mp here
  obtain ⟨other, listed', rfl⟩ := List.mem_map.mp (shown.mem_iff.mpr here')
  have equal := congrArg Prod.snd (QueryOrdering.le_antisymm first second)
  rw [List.inj_on_of_nodup_map chosen.ids listed listed' equal]

end Fava.Queries
