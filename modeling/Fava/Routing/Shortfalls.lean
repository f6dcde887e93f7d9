import Fava.Routing.Replacement

namespace Fava.Routing

open Std Fava.Lib Fava.Nostr Fava.Relay Fava.Queries Fava.Write

section Cutting

variable {router reason : String} {error : RouterError}

/-- The full text of a failure. -/
def failureText (router : String) (error : RouterError) : String := router ++ ": " ++ error.text

/-- A failure is recorded as a prefix of its text within the bound, exactly if the text is
within the bound or a character of it ends there. -/
theorem failure_recorded_iff (composer : Composer) (router : String) (error : RouterError) :
    (∃ text rest, boundedError router error = some text ∧
        composer.fail router error = composer.record text ∧
        text.utf8ByteSize ≤ maxTextBytes ∧ text ++ rest = failureText router error) ↔
      (failureText router error).utf8ByteSize ≤ maxTextBytes ∨
        ∃ kept rest, kept ++ rest = failureText router error ∧ kept.utf8ByteSize = maxTextBytes := by
  have size : (failureText router error).utf8ByteSize =
      String.utf8Len (failureText router error).toList := by
    rw [← String.utf8ByteSize_ofList, String.ofList_toList]
  constructor
  · rintro ⟨text, -, recorded, -, -, -⟩
    obtain ⟨kept, cut, rfl⟩ := Option.map_eq_some_iff.mp recorded
    obtain short | ⟨kept, ⟨rest, whole⟩, filled⟩ :=
      cutAt_isSome_iff.mp (Option.isSome_of_eq_some cut)
    · exact .inl (size ▸ short)
    · refine .inr ⟨String.ofList kept, String.ofList rest, ?_, ?_⟩
      · rw [← String.ofList_append, whole]
        exact String.ofList_toList
      · rw [String.utf8ByteSize_ofList, filled]
  · intro clean
    have cut : (cutAt maxTextBytes (failureText router error).toList).isSome = true := by
      refine cutAt_isSome_iff.mpr (clean.imp (fun short => size ▸ short) ?_)
      rintro ⟨kept, rest, whole, filled⟩
      refine ⟨kept.toList, ⟨rest.toList, by rw [← whole, String.toList_append]⟩, ?_⟩
      rw [← filled, ← String.utf8ByteSize_ofList, String.ofList_toList]
    obtain ⟨kept, cut⟩ := Option.isSome_iff_exists.mp cut
    obtain ⟨⟨rest, whole⟩, within, -⟩ := prefix_of_cutAt cut
    have recorded : boundedError router error = some (String.ofList kept) := by
      unfold boundedError truncateText
      exact congrArg (Option.map String.ofList) cut
    refine ⟨String.ofList kept, String.ofList rest, recorded, ?_, ?_, ?_⟩
    · rw [Composer.fail, recorded]
    · rw [String.utf8ByteSize_ofList]
      exact within
    · rw [← String.ofList_append, whole, String.ofList_toList]

/-- Cut among characters of two bytes, an odd bound lands inside one. -/
theorem cutAt_odd {bytes count : Nat} {c : Char} (wide : c.utf8Size = 2) (many : bytes < count) :
    cutAt (2 * bytes + 1) (List.replicate count c) = none := by
  induction bytes generalizing count with
  | zero =>
    obtain ⟨count, rfl⟩ := Nat.exists_eq_add_of_lt many
    rw [Nat.zero_add, List.replicate_succ, cutAt_cons (by omega), if_neg (by omega)]
  | succ bytes ih =>
    obtain ⟨count, rfl⟩ := Nat.exists_eq_add_one_of_ne_zero (show count ≠ 0 by omega)
    rw [List.replicate_succ, cutAt_cons (by omega), if_pos (by omega), wide,
      show 2 * (bytes + 1) + 1 - 2 = 2 * bytes + 1 by omega, ih (by omega)]
    rfl

/-- A router that always fails in the same words. -/
def failing (error : RouterError) : Router Unit where
  name := "router"
  queries _ _ := .ok []
  preview _ _ _ := .error error
  openSession _ _ _ := .error error
  current _ := .none
  replace session _ _ := (.error error, session)

theorem preview_failing (panics : boundedError "router" error = none) :
    preview noTags plainWrite [failing error] [[]] = none := by
  have valid : validateChain [failing error] [[]] = validateChain [failing .closed] [[]] := rfl
  have computed : (validateChain [failing .closed] [[]]).isOk = true := by decide +kernel
  obtain ⟨_, ok⟩ := isOk_iff.mp computed
  have failed : previewAll plainWrite (.new 1 (plainWrite.targets noTags)) 0 [(failing error, [])] =
      (Composer.new 1 (plainWrite.targets noTags)).fail "router" error := rfl
  unfold preview
  rw [valid, ok]
  change Composer.returned (previewAll plainWrite (.new 1 (plainWrite.targets noTags)) 0
    [(failing error, [])]) _ = none
  rw [failed, Composer.fail, panics]
  rfl

/-- Accented words that are long. -/
def accents : RouterError := .refused (String.ofList (List.replicate 3000 'é'))

theorem toList_refused (cs : List Char) :
    ("router" ++ ": " ++ (RouterError.refused (String.ofList cs)).text).toList =
      "router: router refused work: ".toList ++ cs := by
  have words : "router".toList ++ ": ".toList ++ "router refused work: ".toList =
      "router: router refused work: ".toList := by decide
  unfold RouterError.text
  simp only [String.toList_append, String.toList_ofList]
  rw [← List.append_assoc, words]

theorem accents_panic : boundedError "router" accents = none := by
  have start : String.utf8Len "router: router refused work: ".toList = 29 := by decide
  unfold boundedError truncateText maxTextBytes accents
  have cut : cutAt (2 * 2033 + 1) (List.replicate 3000 'é') = none := cutAt_odd (by decide) (by omega)
  rw [toList_refused, cutAt_append (by omega), start, cut]
  rfl

/-- The failure of one router takes the whole preview down. -/
theorem accented_failure_panics : boundedError "router" accents = none ∧
    preview noTags plainWrite [failing accents] [[]] = none :=
  ⟨accents_panic, preview_failing accents_panic⟩

end Cutting

/-- Shortfalls under their bound: all of them, or as many as leave room to say how many more
there are. -/
def boundedShortfalls (shortfalls : List String) : List String :=
  if shortfalls.length ≤ maxShortfalls then shortfalls
  else shortfalls.take (maxShortfalls - 1) ++
    [Composer.shortfallBound (shortfalls.length - (maxShortfalls - 1))]

/-- One router's turn in a pass: its name and what it makes of its inputs, or nothing where
it has no session. -/
abbrev Turn := Option (String × Except RouterError RouteContribution)

namespace Composer

variable {C : Composer} {index n : Nat} {turns : List Turn} {given : List RouteContribution}
  {targets : BTreeSet RouteTarget} {own : List String}

/-- One pass over the routers. -/
def pass (C : Composer) (index : Nat) : List Turn → Composer
  | [] => C
  | none :: rest => C.pass (index + 1) rest
  | some (router, result) :: rest => (C.take index router result).pass (index + 1) rest

/-- Every router succeeds in the pass, and these are their contributions. -/
def Succeeds (C : Composer) (index : Nat) : List Turn → List RouteContribution → Prop
  | [], given => given = []
  | none :: _, _ => False
  | some (router, result) :: rest, given => ∃ contribution later, given = contribution :: later ∧
      result.bind (attributed · router) = .ok contribution ∧
      (C.put index contribution).merged.validateBounds = .ok () ∧
      (C.put index contribution).Succeeds (index + 1) rest later

theorem shortfallBound_inj {first second : Nat} (same : shortfallBound first = shortfallBound second) :
    first = second := by
  unfold shortfallBound at same
  simp only [String.append_left_inj, String.append_right_inj] at same
  exact toString_inj same

theorem merged_shortfalls : C.merged.shortfalls = C.contributions.flatMap (·.shortfalls) := by
  rw [merged, completeTargets_shortfalls, combine]

/-- A pass in which every router succeeds puts all of their contributions in and records
nothing. -/
theorem Succeeds.pass (succeeds : C.Succeeds index turns given)
    (length : C.contributions.length = index + turns.length) :
    (C.pass index turns).contributions = C.contributions.take index ++ given ∧
      (C.pass index turns).shortfalls = C.shortfalls ∧
      (C.pass index turns).discarded = C.discarded ∧
      (C.pass index turns).panicked = C.panicked := by
  induction turns generalizing C index given with
  | nil =>
    obtain rfl : given = [] := succeeds
    refine ⟨?_, rfl, rfl, rfl⟩
    rw [List.append_nil]
    exact (List.take_of_length_le (Nat.le_of_eq length)).symm
  | cons turn rest ih =>
    cases turn with
    | none => exact succeeds.elim
    | some turn =>
      obtain ⟨contribution, later, rfl, contributed, fits, succeeds⟩ := succeeds
      rw [List.length_cons] at length
      have room : index < C.contributions.length := by omega
      obtain ⟨contributions, shortfalls, discarded, panicked⟩ := ih succeeds (by
        change (C.contributions.set index contribution).length = _
        rw [List.length_set]
        omega)
      have taken : C.pass index (some turn :: rest) = (C.put index contribution).pass (index + 1) rest := by
        rw [Composer.pass, take_of_takes contributed fits]
      rw [taken]
      refine ⟨contributions.trans ?_, shortfalls, discarded, panicked⟩
      change (C.contributions.set index contribution).take (index + 1) ++ later = _
      rw [List.take_succ_eq_append_getElem (by rw [List.length_set]; exact room), List.take_set,
        List.set_eq_of_length_le (by simp), List.getElem_set_self, List.append_assoc]
      rfl

theorem combined_shortfalls_full (is : C.contributions.flatMap (·.shortfalls) = own)
    (full : maxShortfalls ≤ (own ++ C.shortfalls).length) : C.combined.shortfalls =
      (own ++ C.shortfalls).take (maxShortfalls - 1) ++ [shortfallBound
        (min (C.discarded + ((own ++ C.shortfalls).length - maxShortfalls + 1)) (2 ^ 64 - 1))] := by
  subst is
  unfold combined
  simp only [merged_shortfalls, if_pos full]
  rw [if_pos (by omega)]

theorem combined_shortfalls_short (is : C.contributions.flatMap (·.shortfalls) = own)
    (short : (own ++ C.shortfalls).length < maxShortfalls) (none : C.discarded = 0) :
    C.combined.shortfalls = own ++ C.shortfalls := by
  subst is
  unfold combined
  simp only [merged_shortfalls, if_neg (Nat.not_le_of_lt short), none]
  rfl

/-- A list of exactly the bound whose last place is taken by the sentence that stands for what
is left out. -/
theorem take_append_eq_iff {sentence : String} (exactly : own.length = maxShortfalls) :
    own.take (maxShortfalls - 1) ++ [sentence] = own ↔ own[maxShortfalls - 1]? = some sentence := by
  have split : own = own.take (maxShortfalls - 1) ++ own.drop (maxShortfalls - 1) :=
    (List.take_append_drop _ _).symm
  have last : own.drop (maxShortfalls - 1) = (own[maxShortfalls - 1]?).toList := by
    rw [maxShortfalls] at exactly ⊢
    rw [List.getElem?_eq_getElem (by omega), List.drop_eq_getElem_cons (by omega),
      List.drop_of_length_le (by omega)]
    rfl
  constructor
  · intro same
    have room : maxShortfalls - 1 = (own.take (maxShortfalls - 1)).length := by
      rw [List.length_take, exactly]
      rfl
    rw [← same, List.getElem?_append_right (by omega), ← room, Nat.sub_self]
    rfl
  · intro found
    rw [found] at last
    conv_rhs => rw [split, last]
    rfl

/-- Nothing was ever left out of the record while it had room. -/
def Recorded (C : Composer) : Prop := C.discarded ≠ 0 → maxShortfalls ≤ C.shortfalls.length

/-- The bounded shortfalls of the contributions are what the composer gives, exactly if it has
recorded nothing beside them and they do not fill the bound to the last; or they do, and the
last is, of all things, the sentence that takes its place. -/
theorem combined_shortfalls_iff (recorded : C.Recorded)
    (is : C.contributions.flatMap (·.shortfalls) = own) (word : own.length < 2 ^ 64) :
    C.combined.shortfalls = boundedShortfalls own ↔
      C.shortfalls = [] ∧ own.length ≠ maxShortfalls ∨
      own.length = maxShortfalls ∧ own[maxShortfalls - 1]? = some (shortfallBound
        (min (C.discarded + (C.shortfalls.length + 1)) (2 ^ 64 - 1))) := by
  unfold boundedShortfalls
  by_cases full : maxShortfalls ≤ (own ++ C.shortfalls).length
  · rw [combined_shortfalls_full is full]
    rw [List.length_append] at full ⊢
    obtain few | exactly | many := Nat.lt_trichotomy own.length maxShortfalls
    · -- The record fills the list up, which is longer than what the routers say.
      rw [if_pos (Nat.le_of_lt few)]
      refine iff_of_false (fun same => ?_) ?_
      · have length := congrArg List.length same
        rw [List.length_append, List.length_take, List.length_append, List.length_singleton] at length
        unfold maxShortfalls at length few full
        omega
      · rintro (⟨none, -⟩ | ⟨exactly, -⟩)
        · rw [none, List.length_nil] at full
          omega
        · omega
    · rw [if_pos (Nat.le_of_eq exactly), List.take_append_of_le_length (by omega), take_append_eq_iff exactly,
        exactly, show maxShortfalls + C.shortfalls.length - maxShortfalls + 1 = C.shortfalls.length + 1 by omega]
      simp
    · -- The first lines agree, and the counts tell whether anything was recorded.
      rw [if_neg (Nat.not_le_of_lt many), List.take_append_of_le_length (by omega),
        List.append_cancel_left_eq, List.cons.injEq]
      have counted : min (C.discarded + (own.length + C.shortfalls.length - maxShortfalls + 1)) (2 ^ 64 - 1) =
          own.length - (maxShortfalls - 1) ↔ C.shortfalls = [] := by
        rw [← List.length_eq_zero_iff]
        unfold Recorded at recorded
        unfold maxShortfalls at many recorded ⊢
        omega
      constructor
      · rintro ⟨same, -⟩
        exact .inl ⟨counted.mp (shortfallBound_inj same), by omega⟩
      · rintro (⟨none, -⟩ | ⟨exactly, -⟩)
        · exact ⟨congrArg shortfallBound (counted.mpr none), rfl⟩
        · omega
  · have short : (own ++ C.shortfalls).length < maxShortfalls := Nat.lt_of_not_le full
    rw [List.length_append] at short
    have none : C.discarded = 0 := by
      unfold Recorded at recorded
      omega
    rw [combined_shortfalls_short is (Nat.lt_of_not_le full) none, if_pos (by omega), List.append_right_eq_self]
    constructor
    · exact fun none => .inl ⟨none, by omega⟩
    · rintro (⟨none, -⟩ | ⟨exactly, -⟩)
      · exact none
      · omega

/-- There is an entry for every router, and the record is full before anything is left out. -/
structure Counted (C : Composer) (n : Nat) : Prop where
  contributions : C.contributions.length = n
  recorded : C.Recorded

theorem counted_new : (new n targets).Counted n := ⟨List.length_replicate, fun some => absurd rfl some⟩

theorem Counted.fail {router : String} {error : RouterError} (counted : C.Counted n) :
    (C.fail router error).Counted n := by
  unfold Composer.fail
  split
  · unfold record
    split
    · refine ⟨counted.contributions, fun some => ?_⟩
      have before := counted.recorded some
      change maxShortfalls ≤ (C.shortfalls ++ [_]).length
      rw [List.length_append]
      omega
    · rename_i full
      exact ⟨counted.contributions, fun _ => Nat.le_of_not_lt full⟩
  · exact ⟨counted.contributions, counted.recorded⟩

theorem Counted.take {router : String} {result : Except RouterError RouteContribution}
    (counted : C.Counted n) : (C.take index router result).Counted n := by
  unfold Composer.take accept
  split
  · split
    · refine ⟨?_, counted.recorded⟩
      change (C.contributions.set _ _).length = n
      rw [List.length_set]
      exact counted.contributions
    · exact counted.fail
  · exact counted.fail

theorem Counted.pass (counted : C.Counted n) : (C.pass index turns).Counted n := by
  induction turns generalizing C index with
  | nil => exact counted
  | cons turn rest ih =>
    cases turn with
    | none => exact ih counted
    | some turn => exact ih counted.take

/-- The composer after several passes. -/
def passes (C : Composer) (passes : List (List Turn)) : Composer :=
  passes.foldl (fun C turns => C.pass 0 turns) C

theorem passes_append {first second : List (List Turn)} :
    C.passes (first ++ second) = (C.passes first).passes second := List.foldl_append

theorem Counted.passes {earlier : List (List Turn)} (counted : C.Counted n) :
    (C.passes earlier).Counted n := by
  induction earlier generalizing C with
  | nil => exact counted
  | cons turns rest ih => exact ih counted.pass

theorem combined_shortfalls_le (counted : C.Counted n) : C.combined.shortfalls.length ≤ maxShortfalls := by
  by_cases full : maxShortfalls ≤ (C.contributions.flatMap (·.shortfalls) ++ C.shortfalls).length
  · rw [combined_shortfalls_full rfl full, List.length_append, List.length_take, List.length_singleton]
    unfold maxShortfalls
    omega
  · have short := Nat.lt_of_not_le full
    have none : C.discarded = 0 := by
      have recorded := counted.recorded
      unfold Recorded at recorded
      rw [List.length_append] at short
      omega
    rw [combined_shortfalls_short rfl short none]
    exact Nat.le_of_lt short

end Composer

/-- After any passes, a pass in which every router succeeds leaves the bounded shortfalls of
their contributions, exactly if no failure was recorded by the passes before and the
contributions do not fill the bound to the last. -/
theorem shortfalls_current_iff {n : Nat} {targets : BTreeSet RouteTarget} {earlier : List (List Turn)}
    {turns : List Turn} {given : List RouteContribution} {before after : Composer}
    (reached : (Composer.new n targets).passes earlier = before) (all : turns.length = n)
    (succeeds : before.Succeeds 0 turns given) (passed : before.pass 0 turns = after)
    (word : (given.flatMap (·.shortfalls)).length < 2 ^ 64) :
    after.contributions = given ∧ after.combined.shortfalls.length ≤ maxShortfalls ∧
    (after.combined.shortfalls = boundedShortfalls (given.flatMap (·.shortfalls)) ↔
      before.shortfalls = [] ∧ (given.flatMap (·.shortfalls)).length ≠ maxShortfalls ∨
      (given.flatMap (·.shortfalls)).length = maxShortfalls ∧
        (given.flatMap (·.shortfalls))[maxShortfalls - 1]? = some (Composer.shortfallBound
          (min (before.discarded + (before.shortfalls.length + 1)) (2 ^ 64 - 1)))) := by
  have counted : before.Counted n := by
    rw [← reached]
    exact Composer.counted_new.passes
  have later : after.Counted n := by
    rw [← passed]
    exact counted.pass
  obtain ⟨contributions, shortfalls, discarded, -⟩ :=
    succeeds.pass (by rw [counted.contributions, Nat.zero_add, all])
  rw [passed] at contributions shortfalls discarded
  rw [List.take_zero, List.nil_append] at contributions
  refine ⟨contributions, Composer.combined_shortfalls_le later, ?_⟩
  rw [Composer.combined_shortfalls_iff later.recorded (congrArg _ contributions) word, shortfalls, discarded]

section Refinement

variable {Session : Type} {T : TagReader} {request : RouteRequest} {C : Composer} {index : Nat}

/-- A preview is a pass. -/
theorem previewAll_eq_pass {inputs : List (Router Session × List QuerySnapshot)} :
    ∃ turns : List Turn, turns.length = inputs.length ∧
      previewAll request C index inputs = C.pass index turns := by
  induction inputs generalizing C index with
  | nil => exact ⟨[], rfl, rfl⟩
  | cons first rest ih =>
    obtain ⟨turns, length, is⟩ := ih
    exact ⟨some (_, _) :: turns, congrArg (· + 1) length, is⟩

theorem openOne_eq_take (request : RouteRequest) (C : Composer) (index : Nat) (router : Router Session)
    (inputs : List QuerySnapshot) :
    ∃ result, (openOne request C index router inputs).2 = C.take index router.name result := by
  unfold openOne Composer.take
  dsimp only
  split
  · rename_i session _
    refine ⟨.ok (router.current session), ?_⟩
    dsimp only [Except.bind]
    cases attributed (router.current session) router.name <;> rfl
  · rename_i error _
    exact ⟨.error error, rfl⟩

theorem openAll_eq_pass (request : RouteRequest) (C : Composer) (index : Nat)
    (inputs : List (Router Session × List QuerySnapshot)) :
    ∃ turns : List Turn, turns.length = inputs.length ∧
      (openAll request C index inputs).2 = C.pass index turns := by
  induction inputs generalizing C index with
  | nil => exact ⟨[], rfl, rfl⟩
  | cons first rest ih =>
    obtain ⟨router, inputs⟩ := first
    obtain ⟨result, taken⟩ := openOne_eq_take request C index router inputs
    obtain ⟨turns, length, is⟩ := ih (openOne request C index router inputs).2 (index + 1)
    refine ⟨some (router.name, result) :: turns, congrArg (· + 1) length, ?_⟩
    rw [Composer.pass, ← taken, ← is]
    rfl

theorem replaceAll_eq_pass (C : Composer) (index : Nat) (routers : List (OpenedRouter Session))
    (inputs : List QuerySnapshot) :
    ∃ turns : List Turn, turns.length = routers.length ∧
      (replaceAll C index routers inputs).2 = C.pass index turns := by
  induction routers generalizing C index inputs with
  | nil => exact ⟨[], rfl, rfl⟩
  | cons opened rest ih =>
    obtain ⟨turns, length, is⟩ := ih (replaceOne C index opened (inputs.take opened.count)).2 (index + 1)
      (inputs.drop opened.count)
    have one : ∃ turn : Turn, C.pass index (turn :: turns) =
        (replaceOne C index opened (inputs.take opened.count)).2.pass (index + 1) turns := by
      unfold replaceOne
      cases opened.session with
      | none => exact ⟨none, rfl⟩
      | some session => exact ⟨some (_, _), rfl⟩
    obtain ⟨turn, one⟩ := one
    refine ⟨turn :: turns, congrArg (· + 1) length, ?_⟩
    rw [one, ← is]
    rfl

theorem OpenedChain.replace_passes {chain next : OpenedChain Session} {inputs : List QuerySnapshot}
    {result : Except RouterError RouteContribution}
    (replaced : chain.replace inputs = some (result, next)) :
    ∃ earlier, next.composer = chain.composer.passes earlier := by
  unfold replace at replaced
  split at replaced
  · cases replaced
    exact ⟨[], rfl⟩
  · split at replaced
    · cases replaced
      exact ⟨[], rfl⟩
    · obtain ⟨-, made⟩ := Composer.returned_eq_some.mp replaced
      cases made
      obtain ⟨turns, -, is⟩ := replaceAll_eq_pass chain.composer 0 chain.routers inputs
      exact ⟨[turns], is⟩

theorem OpenedChain.after_passes {chain last : OpenedChain Session}
    {history : List (List QuerySnapshot)} (reached : chain.after history = some last) :
    ∃ earlier, last.composer = chain.composer.passes earlier := by
  induction history generalizing chain with
  | nil =>
    obtain rfl := Option.some.inj reached
    exact ⟨[], rfl⟩
  | cons inputs rest ih =>
    obtain ⟨next, replaced, reached⟩ := Option.bind_eq_some_iff.mp reached
    obtain ⟨⟨result, _⟩, returned, rfl⟩ := Option.map_eq_some_iff.mp replaced
    obtain ⟨first, is⟩ := OpenedChain.replace_passes returned
    obtain ⟨second, later⟩ := ih reached
    refine ⟨first ++ second, ?_⟩
    rw [later, is, Composer.passes_append]

/-- Whatever a chain went through since it was opened, its composer went through passes. -/
theorem composer_of_after {routers : List (Router Session)} {initial history : List (List QuerySnapshot)}
    {chain last : OpenedChain Session} (opened : openChain T request routers initial = some (.ok chain))
    (reached : chain.after history = some last) :
    ∃ earlier, last.composer = (Composer.new routers.length (request.targets T)).passes earlier := by
  obtain ⟨first, begun⟩ : ∃ earlier, chain.composer =
      (Composer.new routers.length (request.targets T)).passes earlier := by
    unfold openChain at opened
    split at opened
    · cases opened
    · obtain ⟨-, made⟩ := Composer.returned_eq_some.mp opened
      cases made
      obtain ⟨turns, -, is⟩ := openAll_eq_pass request
        (Composer.new routers.length (request.targets T)) 0 (routers.zip initial)
      exact ⟨[turns], is⟩
  obtain ⟨second, later⟩ := OpenedChain.after_passes reached
  refine ⟨first ++ second, ?_⟩
  rw [later, begun, Composer.passes_append]

end Refinement

section Samples

/-- A router that has nothing to say and fails on inputs of revision 1. -/
def busy : Router Unit where
  name := "busy"
  queries _ _ := .ok [.events]
  preview _ _ _ := .ok .none
  openSession _ _ _ := .ok ()
  current _ := .none
  replace _ _ inputs :=
    (if inputs.map (·.revision) = [1] then .error (.refused "busy") else .ok .none, ())

def idle (shortfalls : List String) : OpenedChain Unit :=
  ⟨[⟨busy, 1, some ()⟩], ⟨[.none], [true], shortfalls, 0, plainWrite.targets noTags, false⟩, false⟩

theorem idle_fits (shortfalls : List String) :
    ((idle shortfalls).composer.put 0 .none).merged.validateBounds = .ok () := by
  have nothing : (combine [RouteContribution.none]).sessions.size ≤ maxDestinations := by decide
  refine (validateBounds_of_plain fun c listed => ?_).mpr nothing
  rw [List.mem_singleton.mp listed]
  exact plain_none

theorem attributed_none : attributed .none "busy" = .ok .none := rfl

/-- A failure that is over is still among the shortfalls of the pass that succeeds after it. -/
theorem old_failure_remains : ∃ chain failed next : OpenedChain Unit, ∃ result current,
    openChain noTags plainWrite [busy] [[snapshot 0]] = some (.ok chain) ∧
    chain.replace [snapshot 1] = some (result, failed) ∧
    failed.composer.Succeeds 0 [some ("busy", .ok .none)] [.none] ∧
    failed.composer.pass 0 [some ("busy", .ok .none)] = next.composer ∧
    failed.replace [snapshot 2] = some (.ok current, next) ∧
    current.shortfalls = ["busy: router refused work: busy"] ∧
    boundedShortfalls ([RouteContribution.none].flatMap (·.shortfalls)) = [] := by
  have valid : (validateChain [busy] [[snapshot 0]]).isOk = true := by decide +kernel
  obtain ⟨_, valid⟩ := isOk_iff.mp valid
  have accepted (shortfalls : List String) :
      (idle shortfalls).composer.take 0 "busy" (.ok .none) = (idle shortfalls).composer :=
    Composer.take_of_takes attributed_none (idle_fits shortfalls)
  have first : (Composer.new 1 (plainWrite.targets noTags)).accept 0 "busy" .none = (idle []).composer :=
    accept_of_fits (idle_fits [])
  have opened : openChain noTags plainWrite [busy] [[snapshot 0]] = some (.ok (idle [])) := by
    unfold openChain
    rw [valid]
    exact congrArg (fun composer => Composer.returned composer
      (Except.ok (OpenedChain.mk [⟨busy, 1, some ()⟩] composer false))) first
  have recorded : (idle []).composer.fail "busy" (.refused "busy") =
      (idle ["busy: router refused work: busy"]).composer := by
    rw [Composer.fail, boundedError_of_short (by decide)]
    rfl
  have failed : (idle []).replace [snapshot 1] =
      some (.ok (idle ["busy: router refused work: busy"]).current,
        idle ["busy: router refused work: busy"]) :=
    congrArg (fun composer => Composer.returned composer
      (Except.ok composer.combined, OpenedChain.mk [⟨busy, 1, some ()⟩] composer false)) recorded
  have replaced : (idle ["busy: router refused work: busy"]).replace [snapshot 2] =
      some (.ok (idle ["busy: router refused work: busy"]).current,
        idle ["busy: router refused work: busy"]) :=
    congrArg (fun composer => Composer.returned composer
      (Except.ok composer.combined, OpenedChain.mk [⟨busy, 1, some ()⟩] composer false)) (accepted _)
  refine ⟨_, _, _, _, _, opened, failed, ⟨.none, [], rfl, attributed_none, idle_fits _, rfl⟩, accepted _,
    replaced, ?_, rfl⟩
  exact Composer.combined_shortfalls_short rfl (by decide) rfl

/-- What a router contributes that has nothing but limits to report. -/
def limited (shortfall : String) : RouteContribution := { RouteContribution.none with shortfalls := [shortfall] }

/-- Two routers answer, each with a limit. -/
def limits (first second : String) : List Turn :=
  [some ("first", .ok (limited first)), some ("second", .ok (limited second))]

def pair : Composer := .new 2 (plainWrite.targets noTags)

theorem attributed_limited {shortfall name : String} (fits : (limited shortfall).validateBounds = .ok ()) :
    attributed (limited shortfall) name = .ok (limited shortfall) := by
  have few : bounded "route shortfalls" 1 maxShortfalls = .ok () := if_neg (by decide)
  have named : attributed (limited shortfall) name = (do
    bounded "route shortfalls" 1 maxShortfalls
    (limited shortfall).validateBounds
    .ok (limited shortfall)) := rfl
  rw [named, few, fits]
  rfl

/-- Both routers succeed, as far as the bounds are kept. -/
theorem limits_succeed {C : Composer} {first second : String}
    (kept : ((limited first).validateBounds.isOk && (limited second).validateBounds.isOk &&
      (C.put 0 (limited first)).merged.validateBounds.isOk &&
      ((C.put 0 (limited first)).put 1 (limited second)).merged.validateBounds.isOk) = true) :
    C.Succeeds 0 (limits first second) [limited first, limited second] := by
  simp only [Bool.and_eq_true, isOk_iff] at kept
  obtain ⟨⟨⟨⟨_, one⟩, _, two⟩, _, fits⟩, _, both⟩ := kept
  exact ⟨_, _, rfl, attributed_limited one, fits, _, _, rfl, attributed_limited two, both, rfl⟩

/-- After two passes in which both routers reported limits, a third one gives the limits it
finds; after a pass in which one of them failed it does not. -/
theorem limits_current_unless_failed :
    (∃ before after : Composer, pair.passes [limits "a" "b", limits "c" "b"] = before ∧
      before.pass 0 (limits "c" "d") = after ∧ after.combined.shortfalls = ["c", "d"]) ∧
    ∃ before after : Composer,
      pair.passes [limits "a" "b", [some ("first", .error (.refused "busy")),
        some ("second", .ok (limited "b"))]] = before ∧
      before.pass 0 (limits "c" "d") = after ∧ after.combined.shortfalls ≠ ["c", "d"] := by
  refine ⟨⟨_, _, rfl, rfl, ?_⟩, _, _, rfl, rfl, fun same => ?_⟩
  · exact (shortfalls_current_iff rfl rfl (limits_succeed (by decide +kernel)) rfl (by decide)).2.2.mpr
      (.inl ⟨by decide +kernel, by decide⟩)
  · have current := (shortfalls_current_iff (show pair.passes [limits "a" "b", _] = _ from rfl) rfl
      (limits_succeed (by decide +kernel)) rfl (by decide)).2.2.mp same
    obtain ⟨none, -⟩ | ⟨full, -⟩ := current
    · exact absurd (congrArg List.length none) (by decide +kernel)
    · exact absurd full (by decide)

end Samples

end Fava.Routing
