import Mathlib.Data.List.Basic

namespace Fava.Lib

variable {β γ : Type} {same : β → Bool} {join : β → β} {new b : β} {l : List β}

/-- Change the first entry that is the same, or add a new one at the end. -/
def upsert (same : β → Bool) (join : β → β) (new : β) : List β → List β
  | [] => [new]
  | b :: rest => if same b then join b :: rest else b :: upsert same join new rest

theorem mem_upsert (h : b ∈ upsert same join new l) :
    b ∈ l ∨ (b = new ∧ ∀ c ∈ l, same c = false) ∨ ∃ c ∈ l, same c = true ∧ b = join c := by
  induction l with
  | nil => exact .inr (.inl ⟨List.mem_singleton.mp h, by simp⟩)
  | cons c l ih =>
    rw [upsert] at h
    split at h
    · rename_i hc
      obtain rfl | h := List.mem_cons.mp h
      · exact .inr (.inr ⟨c, List.mem_cons_self, hc, rfl⟩)
      · exact .inl (List.mem_cons_of_mem _ h)
    · rename_i hc
      obtain rfl | h := List.mem_cons.mp h
      · exact .inl List.mem_cons_self
      · obtain h | ⟨rfl, hl⟩ | ⟨d, hd, hs, rfl⟩ := ih h
        · exact .inl (List.mem_cons_of_mem _ h)
        · refine .inr (.inl ⟨rfl, fun e he => ?_⟩)
          obtain rfl | he := List.mem_cons.mp he
          · exact Bool.eq_false_iff.mpr hc
          · exact hl e he
        · exact .inr (.inr ⟨d, List.mem_cons_of_mem _ hd, hs, rfl⟩)

/-- What the new entry brings is there afterwards, either on its own or joined. -/
theorem flatMap_upsert_perm {items : β → List γ}
    (joins : ∀ c ∈ l, same c = true → (items (join c)).Perm (items new ++ items c)) :
    ((upsert same join new l).flatMap items).Perm (items new ++ l.flatMap items) := by
  induction l with
  | nil => simp [upsert]
  | cons c l ih =>
    rw [upsert]
    split
    · rename_i hc
      rw [List.flatMap_cons, List.flatMap_cons, ← List.append_assoc]
      exact (joins c List.mem_cons_self hc).append_right _
    · rw [List.flatMap_cons, List.flatMap_cons]
      refine ((ih fun d hd => joins d (List.mem_cons_of_mem _ hd)).append_left _).trans ?_
      rw [← List.append_assoc, ← List.append_assoc]
      exact List.perm_append_comm.append_right _

/-- Entries kept apart by what `same` compares stay apart. -/
theorem pairwise_upsert {R : β → β → Prop} (apart : l.Pairwise R)
    (fresh : ∀ c ∈ l, same c = false → R c new)
    (joinLeft : ∀ c d, same c = true → R c d → R (join c) d)
    (joinRight : ∀ c d, same d = true → R c d → R c (join d)) :
    (upsert same join new l).Pairwise R := by
  induction l with
  | nil => simp [upsert]
  | cons c l ih =>
    rw [List.pairwise_cons] at apart
    rw [upsert]
    split
    · rename_i hc
      exact List.pairwise_cons.mpr ⟨fun d hd => joinLeft c d hc (apart.1 d hd), apart.2⟩
    · rename_i hc
      refine List.pairwise_cons.mpr ⟨fun d hd => ?_, ih apart.2 fun d hd =>
        fresh d (List.mem_cons_of_mem _ hd)⟩
      obtain hd | ⟨rfl, -⟩ | ⟨e, he, hs, rfl⟩ := mem_upsert hd
      · exact apart.1 d hd
      · exact fresh c List.mem_cons_self (Bool.eq_false_iff.mpr hc)
      · exact joinRight c e hs (apart.1 e he)

/-- A property that joining keeps and that the new entry brings is not lost. -/
theorem exists_mem_upsert {P : β → Prop} (keeps : ∀ c, same c = true → P c → P (join c))
    (brings : ∀ c, same c = true → P new → P (join c)) (h : P new ∨ ∃ c ∈ l, P c) :
    ∃ c ∈ upsert same join new l, P c := by
  induction l with
  | nil => simpa [upsert] using h
  | cons c l ih =>
    rw [upsert]
    split
    · rename_i hc
      obtain h | ⟨d, hd, h⟩ := h
      · exact ⟨join c, by simp, brings c hc h⟩
      · obtain rfl | hd := List.mem_cons.mp hd
        · exact ⟨join d, by simp, keeps d hc h⟩
        · exact ⟨d, by simp [hd], h⟩
    · by_cases first : P c
      · exact ⟨c, by simp, first⟩
      · have later : P new ∨ ∃ d ∈ l, P d := by
          obtain h | ⟨d, hd, h⟩ := h
          · exact .inl h
          · obtain rfl | hd := List.mem_cons.mp hd
            · exact (first h).elim
            · exact .inr ⟨d, hd, h⟩
        obtain ⟨d, hd, h⟩ := ih later
        exact ⟨d, by simp [hd], h⟩

theorem length_upsert (hit : l.any same = true) :
    (upsert same join new l).length = l.length := by
  induction l with
  | nil => simp at hit
  | cons b l ih =>
    rw [upsert]
    by_cases first : same b = true
    · simp [first]
    · rw [if_neg first, List.length_cons, List.length_cons, ih]
      simpa [first] using hit

/-- Change the first entry that is the same, if there is one. -/
def adjust (same : β → Bool) (change : β → β) : List β → List β
  | [] => []
  | b :: rest => if same b then change b :: rest else b :: adjust same change rest

theorem adjust_append {change : β → β} {before after : List β}
    (missed : ∀ c ∈ before, same c = false) (hit : same b = true) :
    adjust same change (before ++ b :: after) = before ++ change b :: after := by
  induction before with
  | nil => simp [adjust, hit]
  | cons c before ih =>
    rw [List.cons_append, adjust, missed c (by simp), ih fun d hd => missed d (by simp [hd])]
    rfl

theorem adjust_of_find?_eq_none {change : β → β} (h : l.find? same = none) :
    adjust same change l = l := by
  induction l with
  | nil => rfl
  | cons c l ih =>
    rw [List.find?_cons] at h
    rw [adjust]
    split at h
    · cases h
    · rename_i hc
      rw [hc, ih h]
      rfl

theorem mem_adjust {change : β → β} (member : b ∈ l) :
    b ∈ adjust same change l ∨ change b ∈ adjust same change l := by
  induction l with
  | nil => cases member
  | cons c l ih =>
    rw [adjust]
    obtain rfl | member := List.mem_cons.mp member
    · split
      · exact .inr List.mem_cons_self
      · exact .inl List.mem_cons_self
    · split
      · exact .inl (List.mem_cons_of_mem _ member)
      · obtain kept | changed := ih member
        · exact .inl (List.mem_cons_of_mem _ kept)
        · exact .inr (List.mem_cons_of_mem _ changed)

theorem map_adjust {change : β → β} {f : β → γ} (kept : ∀ c, same c = true → f (change c) = f c) :
    (adjust same change l).map f = l.map f := by
  induction l with
  | nil => rfl
  | cons c l ih =>
    rw [adjust]
    split
    · rename_i hc
      rw [List.map_cons, List.map_cons, kept c hc]
    · rw [List.map_cons, List.map_cons, ih]

end Fava.Lib
