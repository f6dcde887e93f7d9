import Mathlib.Data.List.Nodup
import Fava.Transport.Registry

namespace Fava.Transport.Registry

open Fava.Lib Fava.Nostr Fava.Relay Fava.Transport

variable {r t : Registry} {relay : RelayUrl} {authority : Authority} {lease : Lease}
  {entries rest before after : List Entry} {e : Entry} {k : Nat} {x : Acquisition}

theorem reuse_some (found : reuse relay authority entries = some (e, rest)) :
    ∃ before after, entries = before ++ e :: after ∧
      rest = before ++ e.hold authority :: after ∧ e.relay = relay := by
  induction entries generalizing rest with
  | nil => cases found
  | cons head tail ih =>
    rw [reuse] at found
    split at found
    · rename_i serves
      cases found
      exact ⟨[], tail, rfl, rfl, serves.1⟩
    · obtain ⟨⟨winner, others⟩, later, same⟩ := Option.map_eq_some_iff.mp found
      cases same
      obtain ⟨before, after, rfl, rfl, own⟩ := ih later
      exact ⟨head :: before, after, rfl, rfl, own⟩

theorem decrement_some {close : Bool} (found : decrement lease entries = some (rest, close)) :
    ∃ before e after, entries = before ++ e :: after ∧ e.session = lease.session ∧
      (e.holders - 1 = 0 ∧ close = true ∧ rest = before ++ after ∨
        e.holders - 1 ≠ 0 ∧ close = false ∧
          rest = before ++ { e with holders := e.holders - 1 } :: after) := by
  induction entries generalizing rest with
  | nil => cases found
  | cons head tail ih =>
    rw [decrement] at found
    split at found
    · rename_i own
      split at found
      · rename_i last
        cases found
        exact ⟨[], head, tail, rfl, own.2, .inl ⟨last, rfl, rfl⟩⟩
      · rename_i others
        cases found
        exact ⟨[], head, tail, rfl, own.2, .inr ⟨others, rfl, rfl⟩⟩
    · obtain ⟨⟨kept, closes⟩, later, same⟩ := Option.map_eq_some_iff.mp found
      cases same
      obtain ⟨before, e, after, rfl, own, rest⟩ := ih later
      refine ⟨head :: before, e, after, rfl, own, ?_⟩
      obtain ⟨last, closed, rfl⟩ | ⟨others, open_, rfl⟩ := rest
      · exact .inl ⟨last, closed, rfl⟩
      · exact .inr ⟨others, open_, rfl⟩

theorem decrement_none (missing : decrement lease entries = none) :
    ∀ e ∈ entries, e.relay = lease.relay → e.session ≠ lease.session := by
  induction entries with
  | nil => simp
  | cons head tail ih =>
    rw [decrement] at missing
    split at missing
    · split at missing <;> cases missing
    · rename_i other
      intro e member relay own
      obtain rfl | later := List.mem_cons.mp member
      · exact other ⟨relay, own⟩
      · exact ih (Option.map_eq_none_iff.mp missing) e later relay own

/-- The session an acquisition has minted a generation for. -/
def dialled : Acquiring → Option Nat
  | .dialling session | .connected session => some session
  | _ => none

/-- Each acquisition dials a session of its own, which nobody has seen yet. -/
structure Dialling (r : Registry) : Prop where
  apart : ∀ (i j : Nat) (x y : Acquisition) session, r.acquisitions[i]? = some x → r.acquisitions[j]? = some y →
    dialled x.stage = some session → dialled y.stage = some session → i = j
  fresh : ∀ (i : Nat) (x : Acquisition) session, r.acquisitions[i]? = some x → dialled x.stage = some session →
    session ∉ r.established ∧ session ≤ r.generations
  settled : r.isTaken = true → ∀ x ∈ r.acquisitions, holding x.stage = false

/-- Where each session that was established is, and what its leases are on. -/
structure Held (r : Registry) : Prop where
  once : (r.entries.map Entry.session).Nodup
  counted : ∀ e ∈ r.entries, e.holders = r.outstanding e.session ∧ 1 ≤ e.holders
  relays : ∀ lease ∈ r.leases, ∀ e ∈ r.entries, e.session = lease.session → e.relay = lease.relay
  live : ∀ e ∈ r.entries, e.session ∈ r.established ∧ e.session ∉ r.ending ∧ e.session ∉ r.taken
  leased : ∀ lease ∈ r.leases, (∃ e ∈ r.entries, e.session = lease.session) ∨
    lease.session ∈ r.taken
  known : ∀ session ∈ r.taken ++ r.ending, session ∈ r.established
  minted : ∀ session ∈ r.established, session ≤ r.generations
  gone : ∀ session ∈ r.established, (∀ e ∈ r.entries, e.session ≠ session) →
    session ∈ r.ending ∨ session ∈ r.left
  late : r.left ≠ [] → .returned false ∈ r.shutdowns
  stopped : r.isTaken = true → r.entries = []

theorem outstanding_zero (held : Held r) {session : Nat} (out : session ∉ r.taken)
    (absent : ∀ e ∈ r.entries, e.session ≠ session) : r.outstanding session = 0 := by
  refine List.countP_eq_zero.mpr fun lease member own => ?_
  rw [← of_decide_eq_true own] at out absent
  obtain ⟨e, registered, same⟩ | taken := held.leased lease member
  · exact absent e registered same
  · exact out taken

theorem Held.accounts (held : Held r) : Leased r where
  counted := held.counted
  ended session ends := by
    have absent : ∀ e ∈ r.entries, e.session ≠ session := by
      rintro e member rfl
      exact (held.live e member).2.1 ends
    refine ⟨absent, ?_⟩
    by_cases taken : session ∈ r.taken
    · exact .inr taken
    · exact .inl (outstanding_zero held taken absent)
  unheld session established released := by
    refine held.gone session established ?_
    rintro e member rfl
    obtain none | taken := released
    · have counted := held.counted e member
      omega
    · exact (held.live e member).2.2 taken
  left := held.late
  stopped := held.stopped

/-- What `holders` says of a relay and an authority is the number of leases on a
session that served them. -/
theorem holders_outstanding {n : Nat} (leased : Leased r) (said : r.holders relay authority = some n) :
    ∃ e ∈ r.entries, e.relay = relay ∧ authority ∈ e.served ∧ n = r.outstanding e.session := by
  obtain ⟨e, found, counts⟩ := Option.bind_eq_some_iff.mp said
  have serves := List.find?_some found
  simp only [decide_eq_true_eq, Option.ite_none_left_eq_some, Option.some.injEq] at serves counts
  have member := List.mem_of_find?_eq_some found
  exact ⟨e, member, serves.1, serves.2, counts.2.symm.trans (leased.counted e member).1⟩

theorem empty_held : Held empty where
  once := .nil
  counted := by simp [empty]
  relays := by simp [empty]
  live := by simp [empty]
  leased := by simp [empty]
  known := by simp [empty, ending]
  minted := by simp [empty]
  gone := by simp [empty]
  late := by simp [empty]
  stopped _ := rfl

theorem empty_dialling : Dialling empty where
  apart := by simp [empty]
  fresh := by simp [empty]
  settled := by simp [empty]

theorem advance_at {stage : Acquiring} {i : Nat} {y : Acquisition}
    (here : (r.advance k x stage)[i]? = some y) :
    i = k ∧ y.stage = stage ∨ i ≠ k ∧ r.acquisitions[i]? = some y := by
  rw [advance, List.getElem?_set] at here
  by_cases same : k = i
  · rw [if_pos same] at here
    split at here <;> cases here
    exact .inl ⟨same.symm, rfl⟩
  · rw [if_neg same] at here
    exact .inr ⟨Ne.symm same, here⟩

/-- An acquisition goes on with the session it dialled, or with none. -/
theorem Dialling.advance {stage : Acquiring} (dialling : Dialling r)
    (found : r.acquisitions[k]? = some x) (acquisitions : t.acquisitions = r.advance k x stage)
    (same : ∀ session, dialled stage = some session → dialled x.stage = some session)
    (fresh : ∀ (i : Nat) (y : Acquisition) session, t.acquisitions[i]? = some y → dialled y.stage = some session →
      session ∉ r.established → session ∉ t.established)
    (generations : r.generations ≤ t.generations)
    (taken : t.isTaken = true → r.isTaken = true ∧ holding stage = false) : Dialling t where
  apart i j y z session here there first second := by
    rw [acquisitions] at here there
    have old : ∀ (i : Nat) (y : Acquisition), (r.advance k x stage)[i]? = some y → dialled y.stage = some session →
        ∃ y, r.acquisitions[i]? = some y ∧ dialled y.stage = some session := by
      intro i y here own
      obtain ⟨rfl, now⟩ | ⟨-, before⟩ := advance_at here
      · exact ⟨x, found, same session (now ▸ own)⟩
      · exact ⟨y, before, own⟩
    obtain ⟨y, here, first⟩ := old i y here first
    obtain ⟨z, there, second⟩ := old j z there second
    exact dialling.apart i j y z session here there first second
  fresh i y session here own := by
    have again := here
    rw [acquisitions] at here
    obtain ⟨rfl, now⟩ | ⟨-, before⟩ := advance_at here
    · obtain ⟨unseen, minted⟩ := dialling.fresh i x session found (same session (now ▸ own))
      exact ⟨fresh i y session again own unseen, minted.trans generations⟩
    · obtain ⟨unseen, minted⟩ := dialling.fresh i y session before own
      exact ⟨fresh i y session again own unseen, minted.trans generations⟩
  settled took y member := by
    obtain ⟨before, rests⟩ := taken took
    obtain ⟨i, here⟩ := List.mem_iff_getElem?.mp member
    rw [acquisitions] at here
    obtain ⟨-, now⟩ | ⟨-, there⟩ := advance_at here
    · rw [now, rests]
    · exact dialling.settled before y (List.mem_of_getElem? there)

theorem mem_ending {session : Nat} : session ∈ r.ending ↔
    session ∈ r.scheduled ∨ session ∈ r.closed ∨ ∃ call ∈ r.shutdowns, session ∈ pending call := by
  simp [ending]

/-- A step that touches neither the entries nor the leases. -/
theorem Held.keep (held : Held r) (entries : t.entries = r.entries) (leases : t.leases = r.leases)
    (established : t.established = r.established) (taken : t.taken = r.taken)
    (generations : r.generations ≤ t.generations)
    (ends : ∀ session ∈ t.ending, session ∈ r.ending)
    (gone : ∀ session, session ∈ r.ending ∨ session ∈ r.left → session ∈ t.ending ∨ session ∈ t.left)
    (late : t.left ≠ [] → .returned false ∈ t.shutdowns) (took : t.isTaken = true → r.isTaken = true) :
    Held t where
  once := entries ▸ held.once
  counted := by
    rw [entries]
    simpa only [outstanding, leases] using held.counted
  relays := by
    rw [entries, leases]
    exact held.relays
  live e member := by
    rw [entries] at member
    obtain ⟨known, open_, out⟩ := held.live e member
    rw [established, taken]
    exact ⟨known, fun ended => open_ (ends _ ended), out⟩
  leased := by
    rw [entries, leases, taken]
    exact held.leased
  known session member := by
    rw [established]
    refine held.known session ?_
    rw [taken] at member
    exact (List.mem_append.mp member).elim (List.mem_append_left _)
      fun ended => List.mem_append_right _ (ends session ended)
  minted session member := by
    rw [established] at member
    exact (held.minted session member).trans generations
  gone session member absent := by
    rw [established] at member
    rw [entries] at absent
    exact gone session (held.gone session member absent)
  late := late
  stopped taken := by
    rw [entries]
    exact held.stopped (took taken)

theorem Held.acquiring {generations : Nat} (held : Held r) (acquisitions : List Acquisition)
    (later : r.generations ≤ generations) : Held { r with acquisitions, generations } :=
  held.keep rfl rfl rfl rfl later (fun _ => id) (fun _ => id) held.late id

/-- An entry of a list in which one was replaced. -/
theorem mem_replaced {f : Entry} (once : ((before ++ e :: after).map Entry.session).Nodup)
    (session : f.session = e.session) {y : Entry} (member : y ∈ before ++ f :: after) :
    y = f ∨ y ∈ before ++ e :: after ∧ y.session ≠ e.session := by
  simp only [List.map_append, List.map_cons, List.nodup_append, List.nodup_cons, List.mem_map,
    List.mem_cons] at once
  obtain ⟨-, ⟨unlike, -⟩, apart⟩ := once
  simp only [List.mem_append, List.mem_cons] at member ⊢
  obtain earlier | rfl | later := member
  · exact .inr ⟨.inl earlier, fun same => apart _ ⟨y, earlier, rfl⟩ _ (.inl rfl) same⟩
  · exact .inl rfl
  · exact .inr ⟨.inr (.inr later), fun same => unlike ⟨y, later, same⟩⟩

theorem outstanding_lent {loser : Option Nat} (session : Nat) :
    (r.lent k x e entries loser).outstanding session =
      r.outstanding session + if e.session = session then 1 else 0 := by
  simp [outstanding, lent, List.countP_cons]

/-- A lease more on a registered session, and a socket less if one lost. -/
theorem lent_held {loser : Option Nat} (held : Held r) (found : r.entries = before ++ e :: after)
    (fresh : ∀ session ∈ loser, session ∉ r.established ∧ session ≤ r.generations) :
    Held (r.lent k x e (before ++ e.hold authority :: after) loser) := by
  have once := held.once
  rw [found] at once
  have here : e ∈ r.entries := by simp [found]
  have replaced : ∀ y ∈ before ++ e.hold authority :: after,
      y = e.hold authority ∨ y ∈ r.entries ∧ y.session ≠ e.session := by
    intro y member
    rw [found]
    exact mem_replaced (f := e.hold authority) once rfl member
  have sessions : ∀ y ∈ before ++ e.hold authority :: after, ∃ z ∈ r.entries,
      z.session = y.session ∧ z.relay = y.relay := by
    intro y member
    obtain rfl | ⟨old, -⟩ := replaced y member
    · exact ⟨e, here, rfl, rfl⟩
    · exact ⟨y, old, rfl, rfl⟩
  have kept : ∀ y ∈ r.entries, ∃ z ∈ before ++ e.hold authority :: after, z.session = y.session := by
    intro y member
    rw [found, List.mem_append, List.mem_cons] at member
    obtain earlier | rfl | later := member
    · exact ⟨y, List.mem_append_left _ earlier, rfl⟩
    · exact ⟨y.hold authority, List.mem_append_right _ List.mem_cons_self, rfl⟩
    · exact ⟨y, List.mem_append_right _ (List.mem_cons_of_mem _ later), rfl⟩
  have ends : ∀ session, session ∈ (r.lent k x e (before ++ e.hold authority :: after) loser).ending ↔
      session ∈ loser.toList ∨ session ∈ r.ending := by
    intro session
    rw [mem_ending, mem_ending]
    simp [lent, or_assoc]
  refine ⟨?_, fun y member => ?_, fun lease leased y member => ?_, fun y member => ?_,
    fun lease leased => ?_, fun session member => ?_, fun session member => ?_,
    fun session member absent => ?_, held.late, fun taken => ?_⟩
  · simpa [lent, Entry.hold] using once
  · rw [outstanding_lent]
    obtain rfl | ⟨old, other⟩ := replaced y member
    · have counted := held.counted e here
      simp [Entry.hold, counted.1]
    · rw [if_neg (Ne.symm other)]
      exact held.counted y old
  · obtain ⟨z, old, session, relay⟩ := sessions y member
    rw [← session, ← relay]
    obtain rfl | before := List.mem_cons.mp leased
    · intro same
      have own : z = e := List.inj_on_of_nodup_map held.once old here same
      rw [own]
    · exact held.relays lease before z old
  · obtain ⟨z, old, session, -⟩ := sessions y member
    obtain ⟨known, open_, out⟩ := held.live z old
    rw [← session]
    refine ⟨List.mem_append_right _ known, fun ended => ?_, out⟩
    obtain lost | ended := (ends _).mp ended
    · exact (fresh _ (Option.mem_toList.mp lost)).1 known
    · exact open_ ended
  · obtain rfl | before := List.mem_cons.mp leased
    · obtain ⟨z, member, same⟩ := kept e here
      exact .inl ⟨z, member, same⟩
    · obtain ⟨y, old, session⟩ | taken := held.leased lease before
      · obtain ⟨z, member, same⟩ := kept y old
        exact .inl ⟨z, member, same.trans session⟩
      · exact .inr taken
  · obtain taken | ended := List.mem_append.mp member
    · exact List.mem_append_right _ (held.known session (List.mem_append_left _ taken))
    · obtain lost | ended := (ends _).mp ended
      · exact List.mem_append_left _ lost
      · exact List.mem_append_right _ (held.known session (List.mem_append_right _ ended))
  · obtain lost | old := List.mem_append.mp member
    · exact (fresh session (Option.mem_toList.mp lost)).2
    · exact held.minted session old
  · rw [ends]
    obtain lost | old := List.mem_append.mp member
    · exact .inl (.inl lost)
    · refine (held.gone session old fun y registered same => ?_).imp_left .inr
      obtain ⟨z, member, own⟩ := kept y registered
      exact absent z member (own.trans same)
  · rw [held.stopped taken] at here
    cases here

/-- The entry of a socket that no other connection could stand in for. -/
def opened (x : Acquisition) (session : Nat) (authentication : Authentication) : Entry :=
  ⟨x.relay, session, 1, [x.authority], authentication⟩

def registered (r : Registry) (k : Nat) (x : Acquisition) (session : Nat)
    (authentication : Authentication) : Registry :=
  { r with
    entries := r.entries ++ [opened x session authentication]
    acquisitions := r.advance k x .returned
    leases := ⟨x.relay, session⟩ :: r.leases
    established := session :: r.established }

theorem registered_held {session : Nat} {authentication : Authentication} (held : Held r)
    (unseen : session ∉ r.established) (minted : session ≤ r.generations)
    (running : r.isTaken = false) : Held (r.registered k x session authentication) := by
  have apart : ∀ y ∈ r.entries, y.session ≠ session := by
    rintro y member rfl
    exact unseen (held.live y member).1
  have out : session ∉ r.taken := fun taken =>
    unseen (held.known session (List.mem_append_left _ taken))
  have open_ : session ∉ r.ending := fun ended =>
    unseen (held.known session (List.mem_append_right _ ended))
  have none : r.outstanding session = 0 := outstanding_zero held out apart
  have counts : ∀ other, (r.registered k x session authentication).outstanding other =
      r.outstanding other + if session = other then 1 else 0 := by
    intro other
    simp [outstanding, registered, List.countP_cons]
  have members : ∀ y ∈ r.entries ++ [opened x session authentication],
      y ∈ r.entries ∨ y = opened x session authentication := by
    simp
  refine ⟨?_, fun y member => ?_, fun lease leased y member => ?_, fun y member => ?_,
    fun lease leased => ?_, fun other member => List.mem_cons_of_mem _ (held.known other member),
    fun other member => ?_, fun other member absent => ?_, held.late, fun taken => ?_⟩
  · rw [registered, List.map_append, List.nodup_append]
    refine ⟨held.once, by simp, ?_⟩
    simp only [List.mem_map, List.map_cons, List.map_nil, List.mem_singleton]
    rintro _ ⟨y, member, rfl⟩ _ rfl
    exact apart y member
  · rw [counts]
    obtain old | rfl := members y member
    · rw [if_neg (Ne.symm (apart y old))]
      exact held.counted y old
    · simp [opened, none]
  · obtain old | rfl := members y member
    · obtain rfl | before := List.mem_cons.mp leased
      · exact fun same => absurd same (apart y old)
      · exact held.relays lease before y old
    · obtain rfl | before := List.mem_cons.mp leased
      · exact fun _ => rfl
      · intro same
        obtain ⟨z, known, own⟩ | taken := held.leased lease before
        · exact absurd (own.trans same.symm) (apart z known)
        · rw [← same] at taken
          exact absurd taken out
  · obtain old | rfl := members y member
    · obtain ⟨known, ending⟩ := held.live y old
      exact ⟨List.mem_cons_of_mem _ known, ending⟩
    · exact ⟨List.mem_cons_self, open_, out⟩
  · obtain rfl | before := List.mem_cons.mp leased
    · exact .inl ⟨opened x session authentication, by simp [registered], rfl⟩
    · refine (held.leased lease before).imp_left fun ⟨z, known, own⟩ => ?_
      exact ⟨z, List.mem_append_left _ known, own⟩
  · obtain rfl | old := List.mem_cons.mp member
    · exact minted
    · exact held.minted other old
  · obtain rfl | old := List.mem_cons.mp member
    · exact absurd rfl (absent (opened x other authentication) (by simp [registered]))
    · exact held.gone other old fun y known => absent y (List.mem_append_left _ known)
  · rw [show (r.registered k x session authentication).isTaken = r.isTaken from rfl, running] at taken
    cases taken

theorem outstanding_erase (member : lease ∈ r.leases) (session : Nat) :
    r.outstanding session = { r with leases := r.leases.erase lease }.outstanding session +
      if lease.session = session then 1 else 0 := by
  have same := (List.perm_cons_erase member).countP_eq fun other => other.session = session
  simpa [outstanding, List.countP_cons] using same

/-- The same sessions stay registered, held by leases that were there before. -/
theorem Held.alike {entries : List Entry} {leases : List Lease} (held : Held r)
    (fewer : ∀ lease ∈ leases, lease ∈ r.leases) (once : (entries.map Entry.session).Nodup)
    (counted : ∀ y ∈ entries,
      y.holders = { r with leases }.outstanding y.session ∧ 1 ≤ y.holders)
    (old : ∀ y ∈ entries, ∃ z ∈ r.entries, z.session = y.session ∧ z.relay = y.relay)
    (kept : ∀ z ∈ r.entries, ∃ y ∈ entries, y.session = z.session) :
    Held { r with entries, leases } := by
  refine ⟨once, counted, fun other leased y here => ?_, fun y here => ?_, fun other leased => ?_,
    held.known, held.minted, fun session known absent => ?_, held.late, fun taken => ?_⟩
  · obtain ⟨z, before, session, relay⟩ := old y here
    rw [← session, ← relay]
    exact held.relays other (fewer other leased) z before
  · obtain ⟨z, before, session, -⟩ := old y here
    rw [← session]
    exact held.live z before
  · refine (held.leased other (fewer other leased)).imp_left fun ⟨z, before, own⟩ => ?_
    obtain ⟨y, here, same⟩ := kept z before
    exact ⟨y, here, same.trans own⟩
  · refine held.gone session known fun z before same => ?_
    obtain ⟨y, here, own⟩ := kept z before
    exact absent y here (own.trans same)
  · have none := held.stopped taken
    refine List.eq_nil_iff_forall_not_mem.mpr fun y here => ?_
    obtain ⟨z, before, -⟩ := old y here
    rw [none] at before
    cases before

/-- The release of a lease on a session that is not registered. -/
theorem late_held (held : Held r) (member : lease ∈ r.leases)
    (missing : decrement lease r.entries = none) :
    Held { r with leases := r.leases.erase lease } := by
  refine held.alike (fun _ => List.mem_of_mem_erase) held.once (fun y here => ?_) (fun y here => ⟨y, here, rfl, rfl⟩)
    fun z here => ⟨z, here, rfl⟩
  have other : lease.session ≠ y.session := fun same =>
    decrement_none missing y here (held.relays lease member y here same.symm) same.symm
  have counted := held.counted y here
  rwa [outstanding_erase member y.session, if_neg other, Nat.add_zero] at counted

theorem retained_held (held : Held r) (member : lease ∈ r.leases)
    (found : r.entries = before ++ e :: after) (own : e.session = lease.session)
    (others : e.holders - 1 ≠ 0) : Held { r with
      entries := before ++ { e with holders := e.holders - 1 } :: after
      leases := r.leases.erase lease } := by
  have once := held.once
  rw [found] at once
  have here : e ∈ r.entries := by simp [found]
  have replaced : ∀ y ∈ before ++ { e with holders := e.holders - 1 } :: after,
      y = { e with holders := e.holders - 1 } ∨ y ∈ r.entries ∧ y.session ≠ e.session := by
    intro y member
    rw [found]
    exact mem_replaced (f := { e with holders := e.holders - 1 }) once rfl member
  refine held.alike (fun _ => List.mem_of_mem_erase) (by simpa using once) (fun y member' => ?_) (fun y member' => ?_)
    fun z member' => ?_
  · obtain rfl | ⟨old, other⟩ := replaced y member'
    · have counted := (held.counted e here).1
      rw [outstanding_erase member e.session, if_pos own.symm] at counted
      exact ⟨by rw [counted]; rfl, Nat.one_le_iff_ne_zero.mpr others⟩
    · have counted := held.counted y old
      rwa [outstanding_erase member y.session, if_neg (fun same => other (same.symm.trans own.symm)),
        Nat.add_zero] at counted
  · obtain rfl | ⟨old, -⟩ := replaced y member'
    · exact ⟨e, here, rfl, rfl⟩
    · exact ⟨y, old, rfl, rfl⟩
  · rw [found, List.mem_append, List.mem_cons] at member'
    obtain earlier | rfl | later := member'
    · exact ⟨z, List.mem_append_left _ earlier, rfl⟩
    · exact ⟨{ z with holders := z.holders - 1 }, by simp, rfl⟩
    · exact ⟨z, by simp [later], rfl⟩

/-- The last lease goes, and the session with it. -/
theorem closed_held (held : Held r) (member : lease ∈ r.leases)
    (found : r.entries = before ++ e :: after) (own : e.session = lease.session)
    (last : e.holders - 1 = 0) : Held { r with
      entries := before ++ after
      leases := r.leases.erase lease
      scheduled := lease.session :: r.scheduled } := by
  have here : e ∈ r.entries := by simp [found]
  have old : ∀ y ∈ before ++ after, y ∈ r.entries := by
    intro y member
    rw [found]
    exact List.mem_append.mpr ((List.mem_append.mp member).imp_right (List.mem_cons_of_mem _))
  have apart : ∀ y ∈ before ++ after, y.session ≠ lease.session := by
    intro y member
    have once := held.once
    rw [found, List.map_append, List.map_cons, List.nodup_middle, ← List.map_append,
      List.nodup_cons] at once
    exact fun same => once.1 (List.mem_map.mpr ⟨y, member, same.trans own.symm⟩)
  have split : ∀ y ∈ r.entries, y ∈ before ++ after ∨ y.session = lease.session := by
    intro y member
    rw [found, List.mem_append, List.mem_cons] at member
    obtain earlier | rfl | later := member
    · exact .inl (List.mem_append_left _ earlier)
    · exact .inr own
    · exact .inl (List.mem_append_right _ later)
  have none : { r with leases := r.leases.erase lease }.outstanding lease.session = 0 := by
    have counted := held.counted e here
    rw [own, outstanding_erase member, if_pos rfl] at counted
    omega
  have known : lease.session ∈ r.established := own ▸ (held.live e here).1
  have ends : ∀ session, session ∈ { r with
      entries := before ++ after
      leases := r.leases.erase lease
      scheduled := lease.session :: r.scheduled }.ending ↔
        session = lease.session ∨ session ∈ r.ending := by
    intro session
    rw [mem_ending, mem_ending, List.mem_cons, or_assoc]
  refine ⟨?_, fun y member' => ?_, fun other leased y member' => ?_, fun y member' => ?_,
    fun other leased => ?_, fun session member' => ?_, held.minted, fun session member' absent => ?_,
    held.late, fun taken => ?_⟩
  · have once := held.once
    rw [found] at once
    exact once.sublist (by simp)
  · have counted := held.counted y (old y member')
    rwa [outstanding_erase member y.session, if_neg (Ne.symm (apart y member')),
      Nat.add_zero] at counted
  · exact held.relays other (List.mem_of_mem_erase leased) y (old y member')
  · obtain ⟨established, open_, out⟩ := held.live y (old y member')
    refine ⟨established, fun ended => ?_, out⟩
    obtain same | ended := (ends _).mp ended
    · exact apart y member' same
    · exact open_ ended
  · refine (held.leased other (List.mem_of_mem_erase leased)).imp_left fun ⟨y, before, same⟩ => ?_
    obtain kept | gone := split y before
    · exact ⟨y, kept, same⟩
    · exact absurd (decide_eq_true (same.symm.trans gone)) (List.countP_eq_zero.mp none other leased)
  · obtain taken | ended := List.mem_append.mp member'
    · exact held.known session (List.mem_append_left _ taken)
    · obtain rfl | ended := (ends session).mp ended
      · exact known
      · exact held.known session (List.mem_append_right _ ended)
  · rw [ends]
    by_cases same : session = lease.session
    · exact .inl (.inl same)
    · refine (held.gone session member' fun y before own => ?_).imp_left .inr
      obtain kept | gone := split y before
      · exact absent y kept own
      · exact same (own.symm.trans gone)
  · rw [held.stopped taken] at here
    cases here

theorem release_step_held (held : Held r) (stepped : step r (.release lease) = some t) : Held t := by
  simp only [step, Option.ite_none_right_eq_some] at stepped
  obtain ⟨member, stepped⟩ := stepped
  split at stepped <;> cases stepped
  · rename_i entries close found
    obtain ⟨before, e, after, whole, own, ⟨last, rfl, rfl⟩ | ⟨others, rfl, rfl⟩⟩ :=
      decrement_some found
    · exact closed_held held member whole own last
    · exact retained_held held member whole own others
  · rename_i missing
    exact late_held held member missing

theorem moved_session (session : Nat) (authentication : Authentication) (e : Entry) :
    (e.moved session authentication).session = e.session := by
  unfold Entry.moved
  split <;> rfl

theorem moved_holds (session : Nat) (authentication : Authentication) (e : Entry) :
    (e.moved session authentication).holders = e.holders ∧
      (e.moved session authentication).relay = e.relay := by
  unfold Entry.moved
  split <;> exact ⟨rfl, rfl⟩

theorem moves_held (held : Held r) (session : Nat) (authentication : Authentication) :
    Held { r with entries := r.entries.map (Entry.moved session authentication) } := by
  refine held.alike (fun _ => id) ?_ (fun y member => ?_) (fun y member => ?_) fun z member =>
    ⟨_, List.mem_map_of_mem member, moved_session ..⟩
  · rw [List.map_map]
    simpa only [Function.comp_def, moved_session] using held.once
  · obtain ⟨z, old, rfl⟩ := List.mem_map.mp member
    rw [(moved_holds ..).1, moved_session]
    exact held.counted z old
  · obtain ⟨z, old, rfl⟩ := List.mem_map.mp member
    exact ⟨z, old, (moved_session ..).symm, (moved_holds ..).2.symm⟩

variable {j : Nat} {call other : Shutdown} (next : Shutdown)

theorem mem_set_of_ne (here : r.shutdowns[j]? = some call) (member : other ∈ r.shutdowns)
    (differs : other ≠ call) : other ∈ r.shutdowns.set j next := by
  obtain ⟨i, there⟩ := List.mem_iff_getElem?.mp member
  have apart : j ≠ i := by
    rintro rfl
    exact differs (Option.some.inj (there.symm.trans here))
  exact List.mem_of_getElem? (i := i) (by rw [List.getElem?_set_ne apart, there])

theorem mem_set_self (here : r.shutdowns[j]? = some call) : next ∈ r.shutdowns.set j next :=
  List.mem_set (List.getElem?_eq_some_iff.mp here).1 _

/-- What one call of `shutdown` does to the sessions about to be closed. -/
theorem waits_set {session : Nat} :
    (∃ call ∈ r.shutdowns.set j next, session ∈ pending call) →
      session ∈ pending next ∨ ∃ call ∈ r.shutdowns, session ∈ pending call := by
  rintro ⟨other, member, waits⟩
  obtain old | rfl := List.mem_or_eq_of_mem_set member
  · exact .inr ⟨other, old, waits⟩
  · exact .inl waits

theorem set_waits {session : Nat} (here : r.shutdowns[j]? = some call)
    (waiting : ∃ call ∈ r.shutdowns, session ∈ pending call) :
    session ∈ pending call ∨ ∃ call ∈ r.shutdowns.set j next, session ∈ pending call := by
  obtain ⟨other, member, waits⟩ := waiting
  by_cases same : other = call
  · exact .inl (same ▸ waits)
  · exact .inr ⟨other, mem_set_of_ne _ here member same, waits⟩

theorem isTaken_set (here : r.shutdowns[j]? = some call) (begun : call ≠ .flagged) :
    r.isTaken = true :=
  List.any_eq_true.mpr ⟨call, List.mem_of_getElem? here, by simpa using begun⟩

theorem takes_held (held : Held r) (stepped : step r (.takes j) = some t) : Held t := by
  simp only [step, Option.ite_none_right_eq_some, Option.some.injEq] at stepped
  obtain ⟨here, rfl⟩ := stepped
  have ends : ∀ session, session ∈ { r with
      entries := []
      shutdowns := r.shutdowns.set j (.closing (r.entries.map Entry.session))
      taken := r.entries.map Entry.session ++ r.taken }.ending →
        session ∈ r.entries.map Entry.session ∨ session ∈ r.ending := by
    intro session ended
    rw [mem_ending] at ended ⊢
    obtain scheduled | closed | waits := ended
    · exact .inr (.inl scheduled)
    · exact .inr (.inr (.inl closed))
    · exact (waits_set _ waits).imp_right fun old => .inr (.inr old)
  refine ⟨.nil, by simp, by simp, by simp, fun lease leased => ?_, fun session member => ?_,
    held.minted, fun session known _ => ?_, fun left => ?_, fun _ => rfl⟩
  · refine .inr ((held.leased lease leased).elim (fun ⟨e, registered, own⟩ => ?_)
      (List.mem_append_right _))
    exact List.mem_append_left _ (List.mem_map.mpr ⟨e, registered, own⟩)
  · have old : ∀ session ∈ r.entries.map Entry.session, session ∈ r.established := by
      intro session registered
      obtain ⟨e, member, rfl⟩ := List.mem_map.mp registered
      exact (held.live e member).1
    obtain taken | ended := List.mem_append.mp member
    · exact (List.mem_append.mp taken).elim (old session)
        fun before => held.known session (List.mem_append_left _ before)
    · exact (ends session ended).elim (old session)
        fun before => held.known session (List.mem_append_right _ before)
  · rw [mem_ending]
    by_cases registered : session ∈ r.entries.map Entry.session
    · exact .inl (.inr (.inr ⟨_, mem_set_self _ here, registered⟩))
    · refine (held.gone session known fun e member own => ?_).imp_left fun ended => ?_
      · exact registered (List.mem_map.mpr ⟨e, member, own⟩)
      · rw [mem_ending] at ended
        obtain scheduled | closed | waits := ended
        · exact .inl scheduled
        · exact .inr (.inl closed)
        · exact (set_waits _ here waits).elim nofun fun waits => .inr (.inr waits)
  · exact mem_set_of_ne _ here (held.late left) nofun

theorem shutsDown_held (held : Held r) (stepped : step r (.shutsDown j) = some t) : Held t := by
  simp only [step] at stepped
  split at stepped <;> cases stepped
  · rename_i session rest here
    refine held.keep rfl rfl rfl rfl (Nat.le_refl _) (fun other ended => ?_) (fun other ended => ?_)
      (fun left => mem_set_of_ne _ here (held.late left) nofun) fun _ => isTaken_set here nofun
    · rw [mem_ending] at ended ⊢
      obtain scheduled | closed | waits := ended
      · exact .inl scheduled
      · obtain rfl | closed := List.mem_cons.mp closed
        · exact .inr (.inr ⟨_, List.mem_of_getElem? here, List.mem_cons_self⟩)
        · exact .inr (.inl closed)
      · refine .inr (.inr ((waits_set _ waits).elim (fun later => ?_) id))
        exact ⟨_, List.mem_of_getElem? here, List.mem_cons_of_mem _ later⟩
    · refine ended.imp_left fun ended => ?_
      rw [mem_ending] at ended ⊢
      obtain scheduled | closed | waits := ended
      · exact .inl scheduled
      · exact .inr (.inl (List.mem_cons_of_mem _ closed))
      · obtain now | later := set_waits (.closing rest) here waits
        · obtain rfl | rest := List.mem_cons.mp now
          · exact .inr (.inl List.mem_cons_self)
          · exact .inr (.inr ⟨_, mem_set_self _ here, rest⟩)
        · exact .inr (.inr later)
  · rename_i here
    refine held.keep rfl rfl rfl rfl (Nat.le_refl _) (fun other ended => ?_) (fun other ended => ?_)
      (fun left => mem_set_of_ne _ here (held.late left) nofun) fun _ => isTaken_set here nofun
    · rw [mem_ending] at ended ⊢
      exact ended.imp_right fun rest => rest.imp_right fun waits =>
        (waits_set (.returned true) waits).elim nofun id
    · refine ended.imp_left fun ended => ?_
      rw [mem_ending] at ended ⊢
      exact ended.imp_right fun rest => rest.imp_right fun waits =>
        (set_waits (.returned true) here waits).elim nofun id

theorem timesOut_held (held : Held r) (stepped : step r (.timesOut j) = some t) : Held t := by
  simp only [step] at stepped
  split at stepped <;> cases stepped
  rename_i rest here
  refine held.keep rfl rfl rfl rfl (Nat.le_refl _) (fun other ended => ?_) (fun other ended => ?_)
    (fun _ => mem_set_self _ here) fun _ => isTaken_set here nofun
  · rw [mem_ending] at ended ⊢
    exact ended.imp_right fun rest => rest.imp_right fun waits =>
      (waits_set (.returned false) waits).elim nofun id
  · rw [mem_ending] at ended ⊢
    obtain (scheduled | closed | waits) | left := ended
    · exact .inl (.inl scheduled)
    · exact .inl (.inr (.inl closed))
    · obtain now | later := set_waits (.returned false) here waits
      · exact .inr (List.mem_append_left _ now)
      · exact .inl (.inr (.inr later))
    · exact .inr (List.mem_append_right _ left)

theorem shutdown_held (held : Held r) (stepped : step r .shutdown = some t) : Held t := by
  cases stepped
  refine held.keep rfl rfl rfl rfl (Nat.le_refl _) (fun other ended => ?_) (fun other ended => ?_)
    (fun left => List.mem_append_left _ (held.late left)) fun taken => ?_
  · rw [mem_ending] at ended ⊢
    simpa [pending] using ended
  · rw [mem_ending] at ended ⊢
    simpa [pending] using ended
  · simpa [isTaken] using taken

theorem closes_held {session : Nat} (held : Held r) (stepped : step r (.closes session) = some t) :
    Held t := by
  simp only [step, Option.ite_none_right_eq_some, Option.some.injEq] at stepped
  obtain ⟨waiting, rfl⟩ := stepped
  refine held.keep rfl rfl rfl rfl (Nat.le_refl _) (fun other ended => ?_) (fun other ended => ?_)
    held.late id
  · rw [mem_ending] at ended ⊢
    obtain scheduled | closed | waits := ended
    · exact .inl (List.mem_of_mem_erase scheduled)
    · obtain rfl | closed := List.mem_cons.mp closed
      · exact .inl waiting
      · exact .inr (.inl closed)
    · exact .inr (.inr waits)
  · refine ended.imp_left fun ended => ?_
    rw [mem_ending] at ended ⊢
    obtain scheduled | closed | waits := ended
    · by_cases same : other = session
      · exact .inr (.inl (same ▸ List.mem_cons_self))
      · exact .inl ((List.mem_erase_of_ne same).mpr scheduled)
    · exact .inr (.inl (List.mem_cons_of_mem _ closed))
    · exact .inr (.inr waits)

theorem Dialling.keep (dialling : Dialling r) (acquisitions : t.acquisitions = r.acquisitions)
    (established : t.established = r.established) (generations : r.generations ≤ t.generations)
    (settled : t.isTaken = true → ∀ x ∈ r.acquisitions, holding x.stage = false) : Dialling t where
  apart := by
    rw [acquisitions]
    exact dialling.apart
  fresh i x session here own := by
    rw [acquisitions] at here
    obtain ⟨unseen, minted⟩ := dialling.fresh i x session here own
    rw [established]
    exact ⟨unseen, minted.trans generations⟩
  settled taken := by
    rw [acquisitions]
    exact settled taken

theorem acquire_dialling {relay : RelayUrl} {authority : Authority} (dialling : Dialling r) :
    Dialling { r with acquisitions := r.acquisitions ++ [⟨relay, authority, .checked⟩] } := by
  have old : ∀ (i : Nat) (x : Acquisition) session,
      (r.acquisitions ++ [⟨relay, authority, .checked⟩])[i]? = some x →
        dialled x.stage = some session → r.acquisitions[i]? = some x := by
    intro i x session here own
    by_cases within : i < r.acquisitions.length
    · rwa [List.getElem?_append_left within] at here
    · rw [List.getElem?_append_right (Nat.le_of_not_lt within), List.getElem?_singleton] at here
      split at here <;> cases here
      cases own
  refine ⟨fun i j x y session here there first second => ?_, fun i x session here own => ?_,
    fun taken x member => ?_⟩
  · exact dialling.apart i j x y session (old i x session here first) (old j y session there second)
      first second
  · exact dialling.fresh i x session (old i x session here own) own
  · obtain before | new := List.mem_append.mp member
    · exact dialling.settled taken x before
    · rw [List.mem_singleton.mp new]
      rfl

/-- The session a call minted is later than any other. -/
theorem mints_dialling (dialling : Dialling r) (held : Held r) :
    Dialling { r with
      generations := r.generations + 1
      acquisitions := r.advance k x (.dialling (r.generations + 1)) } := by
  have old : ∀ (i : Nat) (y : Acquisition) session,
      (r.advance k x (.dialling (r.generations + 1)))[i]? = some y →
        dialled y.stage = some session → i = k ∧ session = r.generations + 1 ∨
          i ≠ k ∧ r.acquisitions[i]? = some y ∧ session ≤ r.generations := by
    intro i y session here own
    obtain ⟨same, now⟩ | ⟨other, before⟩ := advance_at here
    · rw [now] at own
      exact .inl ⟨same, (Option.some.inj own).symm⟩
    · exact .inr ⟨other, before, (dialling.fresh i y session before own).2⟩
  refine ⟨fun i j y z session here there first second => ?_, fun i y session here own => ?_,
    fun taken y member => ?_⟩
  · obtain ⟨one, new⟩ | ⟨-, before, early⟩ := old i y session here first
    · obtain ⟨two, -⟩ | ⟨-, -, early⟩ := old j z session there second
      · exact one.trans two.symm
      · omega
    · obtain ⟨-, new⟩ | ⟨-, after, -⟩ := old j z session there second
      · omega
      · exact dialling.apart i j y z session before after first second
  · obtain ⟨-, new⟩ | ⟨-, before, early⟩ := old i y session here own
    · refine ⟨fun seen => ?_, new.le⟩
      have minted := held.minted session seen
      omega
    · exact ⟨(dialling.fresh i y session before own).1, Nat.le_succ_of_le early⟩
  · obtain ⟨i, here⟩ := List.mem_iff_getElem?.mp member
    obtain ⟨-, now⟩ | ⟨-, before⟩ := advance_at here
    · rw [now]
      rfl
    · exact dialling.settled taken y (List.mem_of_getElem? before)

/-- The session of a call that returns is no other call's. -/
theorem returned_fresh {session other : Nat} {i : Nat} {y : Acquisition} (dialling : Dialling r)
    (found : r.acquisitions[k]? = some x) (own : dialled x.stage = some session)
    (here : (r.advance k x .returned)[i]? = some y) (others : dialled y.stage = some other) :
    other ≠ session := by
  obtain ⟨-, now⟩ | ⟨apart, before⟩ := advance_at here
  · rw [now] at others
    cases others
  · rintro rfl
    exact apart (dialling.apart i k y x other before found others own)

/-- What holds of the registry between any two steps. -/
structure Tracked (r : Registry) : Prop where
  held : Held r
  dialling : Dialling r

theorem lent_tracked {loser : Option Nat} {rest : List Entry} (tracked : Tracked r)
    (found : r.acquisitions[k]? = some x) (serves : reuse relay authority r.entries = some (e, rest))
    (own : ∀ session ∈ loser, dialled x.stage = some session) :
    Tracked (r.lent k x e rest loser) := by
  obtain ⟨before, after, whole, rfl, -⟩ := reuse_some serves
  have running : r.isTaken = true → False := by
    intro taken
    have none := tracked.held.stopped taken
    rw [none] at whole
    simp at whole
  refine ⟨lent_held tracked.held whole fun session lost => ?_,
    tracked.dialling.advance found rfl nofun (fun i y session here others unseen => ?_)
      (Nat.le_refl _) fun taken => absurd taken running⟩
  · exact tracked.dialling.fresh k x session found (own session lost)
  · intro seen
    obtain lost | old := List.mem_append.mp seen
    · exact returned_fresh tracked.dialling found (own session (Option.mem_toList.mp lost)) here others
        rfl
    · exact unseen old

theorem step_tracked {a : Action} (tracked : Tracked r) (settled : Settled r a)
    (stepped : step r a = some t) : Tracked t := by
  have held := tracked.held
  have dialling := tracked.dialling
  cases a with
  | acquire relay authority =>
    simp only [step] at stepped
    split at stepped <;> cases stepped
    · exact tracked
    · exact ⟨held.acquiring _ (Nat.le_refl _),
        acquire_dialling dialling⟩
  | reuses k =>
    simp only [step, Option.bind_eq_bind, Option.bind_eq_some_iff] at stepped
    obtain ⟨x, found, stepped⟩ := stepped
    split at stepped
    · split at stepped <;> cases stepped
      · rename_i serves
        exact lent_tracked tracked found serves nofun
      · exact ⟨held.acquiring _ (Nat.le_refl _),
          dialling.advance found rfl nofun (fun _ _ _ _ _ => id) (Nat.le_refl _) fun taken =>
            ⟨taken, rfl⟩⟩
    · cases stepped
  | mints k =>
    simp only [step, Option.bind_eq_bind, Option.bind_eq_some_iff] at stepped
    obtain ⟨x, found, stepped⟩ := stepped
    split at stepped
    · split at stepped <;> cases stepped
      · exact ⟨held.acquiring _ (Nat.le_succ _),
          mints_dialling dialling held⟩
      · exact ⟨held.acquiring _ (Nat.le_refl _),
          dialling.advance found rfl nofun (fun _ _ _ _ _ => id) (Nat.le_refl _) fun taken =>
            ⟨taken, rfl⟩⟩
    · cases stepped
  | dials k reached =>
    simp only [step, Option.bind_eq_bind, Option.bind_eq_some_iff] at stepped
    obtain ⟨x, found, stepped⟩ := stepped
    split at stepped <;> cases stepped
    rename_i session stage
    refine ⟨held.acquiring _ (Nat.le_refl _),
      dialling.advance found rfl ?_ (fun _ _ _ _ _ => id) (Nat.le_refl _) fun taken => ?_⟩
    · cases reached <;> simp [dialled, stage]
    · refine ⟨taken, ?_⟩
      cases reached with
      | false => rfl
      | true =>
        have running : r.isTaken = false := settled rfl
        rw [show r.isTaken = true from taken] at running
        cases running
  | cancels k =>
    simp only [step, Option.bind_eq_bind, Option.bind_eq_some_iff] at stepped
    obtain ⟨x, found, stepped⟩ := stepped
    split at stepped <;> cases stepped
    exact ⟨held.acquiring _ (Nat.le_refl _),
      dialling.advance found rfl nofun (fun _ _ _ _ _ => id) (Nat.le_refl _) fun taken =>
        ⟨taken, rfl⟩⟩
  | registers k authentication =>
    simp only [step, Option.bind_eq_bind, Option.bind_eq_some_iff] at stepped
    obtain ⟨x, found, stepped⟩ := stepped
    split at stepped
    · rename_i session stage
      split at stepped <;> cases stepped
      · rename_i serves
        refine lent_tracked tracked found serves ?_
        rintro _ ⟨rfl⟩
        rw [stage]
        rfl
      · have own : dialled x.stage = some session := by rw [stage]; rfl
        obtain ⟨unseen, minted⟩ := dialling.fresh k x session found own
        have running : r.isTaken = false := by
          cases taken : r.isTaken with
          | false => rfl
          | true =>
            have rests := dialling.settled taken x (List.mem_of_getElem? found)
            rw [stage] at rests
            cases rests
        refine ⟨registered_held held unseen minted running, dialling.advance found rfl nofun
          (fun i y other here others unknown => ?_) (Nat.le_refl _) fun taken => ?_⟩
        · intro seen
          obtain same | old := List.mem_cons.mp seen
          · exact returned_fresh dialling found own here others same
          · exact unknown old
        · rw [show r.isTaken = true from taken] at running
          cases running
    · cases stepped
  | release lease =>
    refine ⟨release_step_held held stepped, ?_⟩
    simp only [step, Option.ite_none_right_eq_some] at stepped
    obtain ⟨-, stepped⟩ := stepped
    split at stepped <;> cases stepped
    · exact dialling.keep rfl rfl (Nat.le_refl _) dialling.settled
    · exact dialling.keep rfl rfl (Nat.le_refl _) dialling.settled
  | closes session =>
    refine ⟨closes_held held stepped, ?_⟩
    simp only [step, Option.ite_none_right_eq_some, Option.some.injEq] at stepped
    obtain ⟨-, rfl⟩ := stepped
    exact dialling.keep rfl rfl (Nat.le_refl _) dialling.settled
  | shutdown =>
    refine ⟨shutdown_held held stepped, ?_⟩
    cases stepped
    exact dialling.keep rfl rfl (Nat.le_refl _) fun taken =>
      dialling.settled (by simpa [isTaken] using taken)
  | takes j =>
    refine ⟨takes_held held stepped, ?_⟩
    simp only [step, Option.ite_none_right_eq_some, Option.some.injEq] at stepped
    obtain ⟨-, rfl⟩ := stepped
    exact dialling.keep rfl rfl (Nat.le_refl _) fun _ => settled
  | shutsDown j =>
    refine ⟨shutsDown_held held stepped, ?_⟩
    simp only [step] at stepped
    split at stepped <;> cases stepped
    · rename_i here
      exact dialling.keep rfl rfl (Nat.le_refl _) fun _ => dialling.settled (isTaken_set here nofun)
    · rename_i here
      exact dialling.keep rfl rfl (Nat.le_refl _) fun _ => dialling.settled (isTaken_set here nofun)
  | timesOut j =>
    refine ⟨timesOut_held held stepped, ?_⟩
    simp only [step] at stepped
    split at stepped <;> cases stepped
    rename_i here
    exact dialling.keep rfl rfl (Nat.le_refl _) fun _ => dialling.settled (isTaken_set here nofun)
  | othersMint =>
    simp only [step, Option.ite_none_right_eq_some, Option.some.injEq] at stepped
    obtain ⟨-, rfl⟩ := stepped
    exact ⟨held.acquiring _ (Nat.le_succ _),
      dialling.keep rfl rfl (Nat.le_succ _) dialling.settled⟩
  | moves session authentication =>
    cases stepped
    exact ⟨moves_held held session authentication,
      dialling.keep rfl rfl (Nat.le_refl _) dialling.settled⟩

/-- Along every run in which nothing is dialled past the end, the registry's
accounts are right. -/
theorem leases_accounted {as : List Action} (run : Run step Settled empty as r) : Leased r :=
  (run.invariant Tracked ⟨empty_held, empty_dialling⟩ fun _ _ _ tracked settled stepped =>
    step_tracked tracked settled stepped).held.accounts

def acquired (k : Nat) : List Action := [.reuses k, .mints k, .dials k true]

/-- Two dials race for one relay: the second one's socket is closed, and the
session is closed when both leases are gone. -/
theorem leases_accounted_of_race :
    ∃ as r, Run step Settled empty as r ∧ r.leases = [⟨"wss://relay", 2⟩] ∧
      r.entries.map Entry.holders = [1] ∧ r.ending = [1] ∧ Leased r := by
  have run : Run step Settled empty
      ([.acquire "wss://relay" .unauthenticated, .acquire "wss://relay" (.asAccount 7)] ++
        acquired 0 ++ acquired 1 ++ [.registers 1 .unoffered, .registers 0 .unoffered,
          .release ⟨"wss://relay", 2⟩, .closes 1]) _ := Run.of_exec rfl
  exact ⟨_, _, run, rfl, rfl, rfl, leases_accounted run⟩

/-- The socket is established once the shutdown is over, and registered. -/
theorem leases_miscounted :
    ∃ as r, Run step Free empty as r ∧ ¬ Leased r := by
  have run : Run step Free empty
      ([.acquire "wss://relay" .unauthenticated, .reuses 0, .mints 0, .shutdown, .takes 0,
        .shutsDown 0, .dials 0 true, .registers 0 .unoffered]) _ := Run.of_exec rfl
  refine ⟨_, _, run, fun leased => ?_⟩
  exact absurd (leased.stopped rfl) (by decide)

end Fava.Transport.Registry
