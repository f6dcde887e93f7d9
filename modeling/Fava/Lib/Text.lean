import Mathlib.Algebra.GroupWithZero.Nat
import Mathlib.Data.String.Basic

namespace Fava.Lib

/-- A character is at most four bytes long. -/
theorem utf8Len_le (cs : List Char) : String.utf8Len cs ≤ 4 * cs.length := by
  induction cs with
  | nil => exact Nat.le_refl 0
  | cons c cs ih =>
    have one := Char.utf8Size_le_four c
    rw [String.utf8Len_cons, List.length_cons]
    omega

/-- A machine word has at most twenty digits. -/
theorem utf8ByteSize_toString_le {n : Nat} (word : n < 2 ^ 64) : (toString n).utf8ByteSize ≤ 80 := by
  have digits : (Nat.toDigits 10 n).length ≤ 20 := by
    rw [Nat.length_toDigits_le_iff (by omega) (by omega)]
    omega
  have bytes := utf8Len_le (Nat.toDigits 10 n)
  change (String.ofList (Nat.toDigits 10 n)).utf8ByteSize ≤ 80
  rw [String.utf8ByteSize_ofList]
  omega

theorem toString_inj {n m : Nat} (same : toString n = toString m) : n = m := by
  change String.ofList (Nat.toDigits 10 n) = String.ofList (Nat.toDigits 10 m) at same
  have digits : Nat.toDigits 10 n = Nat.toDigits 10 m := by
    rw [← String.toList_ofList (l := Nat.toDigits 10 n), same, String.toList_ofList]
  calc
    n = Nat.ofDigitChars 10 (Nat.toDigits 10 n) 0 := (Nat.ofDigitChars_toDigits (by decide) (by decide)).symm
    _ = Nat.ofDigitChars 10 (Nat.toDigits 10 m) 0 := by rw [digits]
    _ = m := Nat.ofDigitChars_toDigits (by decide) (by decide)

theorem utf8ByteSize_intercalate {separator : String} (one : separator.utf8ByteSize = 1)
    {l : List String} :
    (separator.intercalate l).utf8ByteSize = (l.map fun s => s.utf8ByteSize + 1).sum - 1 := by
  induction l with
  | nil => simp
  | cons s l ih =>
    by_cases last : l = []
    · subst last
      simp
    · obtain ⟨t, l, rfl⟩ := List.exists_cons_of_ne_nil last
      rw [String.intercalate_cons_cons, String.utf8ByteSize_append, String.utf8ByteSize_append, ih,
        one]
      simp only [List.map_cons, List.sum_cons]
      omega

/-- The characters that fill the first `n` bytes exactly, or all of them if they are fewer. -/
def cutAt : Nat → List Char → Option (List Char)
  | 0, _ => some []
  | _, [] => some []
  | n, c :: cs => if c.utf8Size ≤ n then (cutAt (n - c.utf8Size) cs).map (c :: ·) else none

/-- Cut a text to `len` bytes, if it has more. A cut inside a character has no result. -/
def truncateText (text : String) (len : Nat) : Option String := (cutAt len text.toList).map String.ofList

theorem cutAt_cons {n : Nat} {c : Char} {cs : List Char} (some : n ≠ 0) : cutAt n (c :: cs) =
    if c.utf8Size ≤ n then (cutAt (n - c.utf8Size) cs).map (c :: ·) else none := by
  cases n with
  | zero => exact absurd rfl some
  | succ n => rfl

theorem cutAt_of_le {n : Nat} {cs : List Char} (fits : String.utf8Len cs ≤ n) : cutAt n cs = some cs := by
  induction cs generalizing n with
  | nil => cases n <;> rfl
  | cons c cs ih =>
    have positive := c.utf8Size_pos
    rw [String.utf8Len_cons] at fits
    rw [cutAt_cons (by omega), if_pos (by omega), ih (by omega)]
    rfl

/-- What comes before the cut is kept. -/
theorem cutAt_append {n : Nat} {before after : List Char} (fits : String.utf8Len before ≤ n) :
    cutAt n (before ++ after) = (cutAt (n - String.utf8Len before) after).map (before ++ ·) := by
  induction before generalizing n with
  | nil => simp
  | cons c cs ih =>
    have positive := c.utf8Size_pos
    rw [String.utf8Len_cons] at fits ⊢
    rw [List.cons_append, cutAt_cons (by omega), if_pos (by omega), ih (by omega), Option.map_map,
      show n - c.utf8Size - String.utf8Len cs = n - (String.utf8Len cs + c.utf8Size) by omega]
    rfl

/-- What is kept is a prefix: the whole, or as many bytes as asked for. -/
theorem prefix_of_cutAt {n : Nat} {cs kept : List Char} (cut : cutAt n cs = some kept) :
    kept <+: cs ∧ String.utf8Len kept ≤ n ∧ (kept = cs ∨ String.utf8Len kept = n) := by
  induction cs generalizing n kept with
  | nil =>
    obtain rfl : [] = kept := by cases n <;> exact Option.some.inj cut
    exact ⟨List.prefix_rfl, Nat.zero_le n, .inl rfl⟩
  | cons c cs ih =>
    by_cases empty : n = 0
    · subst empty
      obtain rfl : [] = kept := Option.some.inj cut
      exact ⟨List.nil_prefix, Nat.le_refl 0, .inr rfl⟩
    · rw [cutAt_cons empty, Option.ite_none_right_eq_some, Option.map_eq_some_iff] at cut
      obtain ⟨fits, rest, found, rfl⟩ := cut
      obtain ⟨begins, within, whole | filled⟩ := ih found
      · exact ⟨List.cons_prefix_cons.mpr ⟨rfl, begins⟩, by rw [String.utf8Len_cons]; omega,
          .inl (congrArg (c :: ·) whole)⟩
      · exact ⟨List.cons_prefix_cons.mpr ⟨rfl, begins⟩, by rw [String.utf8Len_cons]; omega,
          .inr (by rw [String.utf8Len_cons]; omega)⟩

/-- A cut has a result exactly where the text is short or the cut is between characters. -/
theorem cutAt_isSome_iff {n : Nat} {cs : List Char} : (cutAt n cs).isSome = true ↔
    String.utf8Len cs ≤ n ∨ ∃ kept, kept <+: cs ∧ String.utf8Len kept = n := by
  constructor
  · intro cut
    obtain ⟨kept, cut⟩ := Option.isSome_iff_exists.mp cut
    obtain ⟨begins, within, rfl | filled⟩ := prefix_of_cutAt cut
    · exact .inl within
    · exact .inr ⟨kept, begins, filled⟩
  · rintro (short | ⟨kept, ⟨rest, rfl⟩, rfl⟩)
    · rw [cutAt_of_le short]
      rfl
    · rw [cutAt_append (Nat.le_refl _), Nat.sub_self, cutAt]
      rfl

end Fava.Lib
