import Fava.Lib.Json
import Fava.Lib.Text

namespace Fava.Lib

/-- The letters behind the backslash of the characters that have a short escape. -/
def shortEscapes : List (Nat × Char) :=
  [(0x22, '\x22'), (0x5c, '\x5c'), (0x08, 'b'), (0x09, 't'), (0x0a, 'n'), (0x0c, 'f'), (0x0d, 'r')]

/-- A character as a JSON string holds it. -/
def escaped (c : Char) : List Char :=
  match shortEscapes.lookup c.toNat with
  | some letter => ['\x5c', letter]
  | none =>
    if c.toNat ≤ 0x1f then
      ['\x5c', 'u', '0', '0', (c.toNat / 16).digitChar, (c.toNat % 16).digitChar]
    else [c]

def quoted (text : String) : String :=
  "\"" ++ String.ofList (text.toList.flatMap escaped) ++ "\""

namespace Json

mutual

/-- The text of a value with nothing between its tokens. -/
def compact : Json → String
  | .null => "null"
  | .bool value => toString value
  | .number value => toString value
  | .string text => quoted text
  | .array items => "[" ++ ",".intercalate (compactItems items) ++ "]"
  | .object members => "\x7b" ++ ",".intercalate (compactMembers members) ++ "\x7d"

def compactItems : List Json → List String
  | [] => []
  | item :: items => item.compact :: compactItems items

def compactMembers : List (String × Json) → List String
  | [] => []
  | (name, value) :: members => (quoted name ++ ":" ++ value.compact) :: compactMembers members

end

variable {text : String} {items : List Json} {members : List (String × Json)}

theorem compactItems_eq : compactItems items = items.map compact := by
  induction items with
  | nil => rw [compactItems, List.map_nil]
  | cons item items ih => rw [compactItems, ih, List.map_cons]

theorem compactMembers_eq :
    compactMembers members = members.map fun member => quoted member.1 ++ ":" ++ member.2.compact := by
  induction members with
  | nil => rw [compactMembers, List.map_nil]
  | cons member members ih => rw [compactMembers, ih, List.map_cons]

section Sizes

theorem utf8Len_flatMap {f : Char → List Char} {cs : List Char} :
    String.utf8Len (cs.flatMap f) = (cs.map fun c => String.utf8Len (f c)).sum := by
  induction cs with
  | nil => rfl
  | cons c cs ih =>
    rw [List.flatMap_cons, String.utf8Len_append, ih, List.map_cons, List.sum_cons]

theorem utf8Len_of_single {cs : List Char} (single : ∀ c ∈ cs, c.utf8Size = 1) :
    String.utf8Len cs = cs.length := by
  induction cs with
  | nil => rfl
  | cons c cs ih =>
    have rest := ih fun d inside => single d (List.mem_cons_of_mem c inside)
    rw [String.utf8Len_cons, rest, single c List.mem_cons_self, List.length_cons]

/-- A number takes a byte for each of its digits. -/
theorem utf8ByteSize_toString {n : Nat} :
    (toString n).utf8ByteSize = (Nat.toDigits 10 n).length := by
  rw [Nat.toString_eq_ofList_toDigits, String.utf8ByteSize_ofList]
  refine utf8Len_of_single fun c inside => ?_
  have digit := Nat.isDigit_of_mem_toDigits (by decide) (by decide) inside
  rw [Char.utf8Size_eq_one_iff]
  simp only [Char.isDigit, ge_iff_le, Bool.and_eq_true, decide_eq_true_eq] at digit
  exact UInt32.le_trans digit.2 (by decide)

theorem utf8ByteSize_quoted : (quoted text).utf8ByteSize =
    2 + (text.toList.map fun c => String.utf8Len (escaped c)).sum := by
  have quote : "\"".utf8ByteSize = 1 := by decide
  rw [quoted, String.utf8ByteSize_append, String.utf8ByteSize_append, quote,
    String.utf8ByteSize_ofList (text.toList.flatMap escaped), utf8Len_flatMap]
  omega

example : quoted "\"\\\n\x01π" = "\"\\\"\\\\\\n\\u0001π\"" := by decide

theorem utf8ByteSize_separated {l : List String} {first last : String} (one : first.utf8ByteSize = 1)
    (one' : last.utf8ByteSize = 1) : (first ++ ",".intercalate l ++ last).utf8ByteSize =
      2 + ((l.map fun s => s.utf8ByteSize + 1).sum - 1) := by
  rw [String.utf8ByteSize_append, String.utf8ByteSize_append, utf8ByteSize_intercalate (by decide), one,
    one']
  omega

theorem utf8ByteSize_array : (array items).compact.utf8ByteSize =
    2 + ((items.map fun item => item.compact.utf8ByteSize + 1).sum - 1) := by
  rw [compact, utf8ByteSize_separated (by decide) (by decide), compactItems_eq, List.map_map]
  rfl

theorem utf8ByteSize_object : (object members).compact.utf8ByteSize =
    2 + ((members.map fun member =>
      (quoted member.1).utf8ByteSize + member.2.compact.utf8ByteSize + 2).sum - 1) := by
  have each : ((fun s => s.utf8ByteSize + 1) ∘ fun member : String × Json =>
      quoted member.1 ++ ":" ++ member.2.compact) = fun member =>
        (quoted member.1).utf8ByteSize + member.2.compact.utf8ByteSize + 2 := by
    funext member
    have colon : ":".utf8ByteSize = 1 := by decide
    rw [Function.comp_apply, String.utf8ByteSize_append, String.utf8ByteSize_append, colon]
    omega
  rw [compact, utf8ByteSize_separated (by decide) (by decide), compactMembers_eq, List.map_map, each]

end Sizes

end Json

end Fava.Lib
