import Fava.Lib.BTree
import Fava.Lib.Fallible

namespace Fava.Lib

open Std

inductive Json
  | null
  | bool (value : Bool)
  | number (value : Nat)
  | string (text : String)
  | array (items : List Json)
  | object (members : List (String × Json))

/-- How the values of a type are written as JSON and read from it, and what is read where
a member of an object is missing. -/
structure Codec (α : Type) where
  write : α → Except String Json
  read : Json → Except String α
  missing : Option α

/-- How the values of a type are written as the names of an object's members. -/
structure KeyCodec (α : Type) where
  write : α → Except String String
  read : String → Except String α

namespace Codec

variable {α β : Type} {c : Codec α} {d : Codec β} {a : α} {l : List α}

def Writes (c : Codec α) (a : α) : Prop := ∃ json, c.write a = .ok json

/-- What is written of a value, if anything, is read as the value. -/
def Reads (c : Codec α) (a : α) : Prop := ∀ json, c.write a = .ok json → c.read json = .ok a

/-- A value is written, and read back as it was. -/
def Keeps (c : Codec α) (a : α) : Prop := ∃ json, c.write a = .ok json ∧ c.read json = .ok a

theorem keeps_iff : c.Keeps a ↔ c.Writes a ∧ c.Reads a := by
  constructor
  · rintro ⟨json, written, read⟩
    refine ⟨⟨json, written⟩, fun json' written' => ?_⟩
    rw [written, Except.ok.injEq] at written'
    rw [← written', read]
  · rintro ⟨⟨json, written⟩, reads⟩
    exact ⟨json, written, reads json written⟩

/-- No value is written as what stands for an absent one. -/
def Solid (c : Codec α) : Prop := ∀ a, c.write a ≠ .ok .null

section Base

def bool : Codec Bool where
  write value := .ok (.bool value)
  read
    | .bool value => .ok value
    | _ => .error "invalid type: expected a boolean"
  missing := none

def text : Codec String where
  write value := .ok (.string value)
  read
    | .string value => .ok value
    | _ => .error "invalid type: expected a string"
  missing := none

/-- The numbers from a first one up to a bound. -/
def number (first bound : Nat) : Codec Nat where
  write value := .ok (.number value)
  read
    | .number value => if first ≤ value ∧ value < bound then .ok value else .error "invalid value"
    | _ => .error "invalid type: expected an integer"
  missing := none

@[simp] theorem writes_bool (b : Bool) : bool.Writes b := ⟨_, rfl⟩

@[simp] theorem writes_text (s : String) : text.Writes s := ⟨_, rfl⟩

@[simp] theorem writes_number {first bound : Nat} (n : Nat) : (number first bound).Writes n := ⟨_, rfl⟩

theorem text_solid : text.Solid := by
  intro a h
  cases h

theorem reads_bool (b : Bool) : bool.Reads b := by
  rintro json ⟨⟩
  rfl

theorem reads_text (s : String) : text.Reads s := by
  rintro json ⟨⟩
  rfl

theorem reads_number {first bound n : Nat} (above : first ≤ n) (below : n < bound) :
    (number first bound).Reads n := by
  rintro json ⟨⟩
  exact if_pos ⟨above, below⟩

end Base

section Containers

def list (c : Codec α) : Codec (List α) where
  write l := do .ok (.array (← l.mapM c.write))
  read
    | .array items => items.mapM c.read
    | _ => .error "invalid type: expected a sequence"
  missing := none

def option (c : Codec α) : Codec (Option α) where
  write
    | none => .ok .null
    | some a => c.write a
  read
    | .null => .ok none
    | json => do .ok (some (← c.read json))
  missing := some none

/-- The same codec where a missing member is an error. -/
def required (c : Codec α) : Codec α := { c with missing := none }

/-- Write a value as another one, and accept of these only some. -/
def through (d : Codec β) (put : α → β) (get : β → Except String α) : Codec α where
  write a := d.write (put a)
  read json := do get (← d.read json)
  missing := none

variable [Ord α] [TransOrd α]

def set (c : Codec α) : Codec (BTreeSet α) where
  write s := c.list.write s.toList
  read json := do .ok (ExtTreeSet.ofList (← c.list.read json))
  missing := none

/-- One member of the object a map is written as. -/
def writeEntry (k : KeyCodec α) (d : Codec β) (entry : α × β) : Except String (String × Json) := do
  .ok (← k.write entry.1, ← d.write entry.2)

def readEntry (k : KeyCodec α) (d : Codec β) (entry : String × Json) : Except String (α × β) := do
  .ok (← k.read entry.1, ← d.read entry.2)

def map (k : KeyCodec α) (d : Codec β) : Codec (BTreeMap α β) where
  write m := do .ok (.object (← m.toList.mapM (writeEntry k d)))
  read
    | .object members => do .ok (ExtTreeMap.ofList (← members.mapM (readEntry k d)))
    | _ => .error "invalid type: expected a map"
  missing := none

end Containers

@[simp] theorem writes_list : c.list.Writes l ↔ ∀ a ∈ l, c.Writes a := by
  refine Iff.trans ?_ mapM_ok_iff
  constructor
  · rintro ⟨json, written⟩
    obtain ⟨items, done, -⟩ := bind_eq_ok.mp written
    exact ⟨items, done⟩
  · rintro ⟨items, done⟩
    exact ⟨.array items, bind_eq_ok.mpr ⟨items, done, rfl⟩⟩

theorem reads_list (reads : ∀ a ∈ l, c.Reads a) : c.list.Reads l := by
  intro json written
  obtain ⟨items, done, written⟩ := bind_eq_ok.mp written
  cases written
  exact mapM_inverts reads done

@[simp] theorem writes_option {o : Option α} : c.option.Writes o ↔ ∀ a ∈ o, c.Writes a := by
  cases o with
  | none =>
    constructor
    · rintro - _ ⟨⟩
    · intro _
      exact ⟨.null, rfl⟩
  | some a =>
    constructor
    · rintro writes _ ⟨⟩
      exact writes
    · intro writes
      exact writes a rfl

theorem reads_option {o : Option α} (solid : c.Solid) (reads : ∀ a ∈ o, c.Reads a) :
    c.option.Reads o := by
  intro json written
  cases o with
  | none =>
    cases written
    rfl
  | some a =>
    have read := reads a rfl json written
    cases json with
    | null => exact absurd written (solid a)
    | _ => exact bind_eq_ok.mpr ⟨a, read, rfl⟩

@[simp] theorem writes_through {put : α → β} {get : β → Except String α} :
    (through d put get).Writes a ↔ d.Writes (put a) := Iff.rfl

@[simp] theorem writes_required : c.required.Writes a ↔ c.Writes a := Iff.rfl

theorem reads_through {put : α → β} {get : β → Except String α} (reads : d.Reads (put a))
    (gets : get (put a) = .ok a) : (through d put get).Reads a := by
  intro json written
  exact bind_eq_ok.mpr ⟨put a, reads json written, gets⟩

theorem writeEntry_ok_iff {k : KeyCodec α} {entry : α × β} :
    (∃ written, writeEntry k d entry = .ok written) ↔
      (∃ name, k.write entry.1 = .ok name) ∧ d.Writes entry.2 := by
  constructor
  · rintro ⟨written, h⟩
    obtain ⟨name, key, h⟩ := bind_eq_ok.mp h
    obtain ⟨json, value, -⟩ := bind_eq_ok.mp h
    exact ⟨⟨name, key⟩, json, value⟩
  · rintro ⟨⟨name, key⟩, json, value⟩
    exact ⟨(name, json), bind_eq_ok.mpr ⟨name, key, bind_eq_ok.mpr ⟨json, value, rfl⟩⟩⟩

section Ordered

variable [Ord α] [TransOrd α] [LawfulEqOrd α] [DecidableEq α] {k : KeyCodec α} {s : BTreeSet α} {m : BTreeMap α β}

omit [DecidableEq α] in
@[simp] theorem writes_set : c.set.Writes s ↔ ∀ a ∈ s, c.Writes a := by
  simp only [← ExtTreeSet.mem_toList]
  exact writes_list

theorem reads_set (reads : ∀ a ∈ s, c.Reads a) : c.set.Reads s := by
  intro json written
  have read := reads_list (fun a inside => reads a (ExtTreeSet.mem_toList.mp inside)) json written
  refine bind_eq_ok.mpr ⟨s.toList, read, congrArg Except.ok ?_⟩
  exact BTreeSet.ofList_toList

omit [DecidableEq α] in
/-- A map is written if its keys are names and its values are written. -/
@[simp] theorem writes_map : (map k d).Writes m ↔
    ∀ (a : α) b, m[a]? = some b → (∃ name, k.write a = .ok name) ∧ d.Writes b := by
  have each : (map k d).Writes m ↔ ∃ members, m.toList.mapM (writeEntry k d) = .ok members := by
    constructor
    · rintro ⟨json, written⟩
      obtain ⟨members, done, -⟩ := bind_eq_ok.mp written
      exact ⟨members, done⟩
    · rintro ⟨members, done⟩
      exact ⟨.object members, bind_eq_ok.mpr ⟨members, done, rfl⟩⟩
  rw [each, mapM_ok_iff]
  constructor
  · intro writes a b found
    exact writeEntry_ok_iff.mp (writes (a, b) (ExtTreeMap.mem_toList_iff_getElem?_eq_some.mpr found))
  · rintro writes ⟨a, b⟩ inside
    exact writeEntry_ok_iff.mpr (writes a b (ExtTreeMap.mem_toList_iff_getElem?_eq_some.mp inside))

theorem reads_map (keys : ∀ a name, k.write a = .ok name → k.read name = .ok a)
    (reads : ∀ (a : α) b, m[a]? = some b → d.Reads b) : (map k d).Reads m := by
  intro json written
  obtain ⟨members, done, written⟩ := bind_eq_ok.mp written
  cases written
  refine bind_eq_ok.mpr ⟨m.toList, mapM_inverts ?_ done, congrArg Except.ok ?_⟩
  · rintro ⟨a, b⟩ inside ⟨name, json⟩ entry
    obtain ⟨name', key, entry⟩ := bind_eq_ok.mp entry
    obtain ⟨json', value, entry⟩ := bind_eq_ok.mp entry
    cases entry
    have read := reads a b (ExtTreeMap.mem_toList_iff_getElem?_eq_some.mp inside) json value
    exact bind_eq_ok.mpr ⟨a, keys a name key, bind_eq_ok.mpr ⟨b, read, rfl⟩⟩
  · exact BTreeMap.ofList_toList

end Ordered

end Codec

/-- A type whose values are written as text, and read from it as they were. -/
structure TextForm (α : Type) where
  text : α → String
  parse : String → Except String α
  parse_text : ∀ a, parse (text a) = .ok a

variable {α β : Type} {c : Codec α} {a : α} {b : β} {name : String}

namespace TextForm

def codec (form : TextForm α) : Codec α := .through .text form.text form.parse

def key (form : TextForm α) : KeyCodec α := ⟨fun a => .ok (form.text a), form.parse⟩

variable {form : TextForm α}

@[simp] theorem writes (a : α) : form.codec.Writes a := ⟨_, rfl⟩

theorem reads (a : α) : form.codec.Reads a :=
  Codec.reads_through (Codec.reads_text _) (form.parse_text a)

theorem solid : form.codec.Solid := by
  rintro a ⟨⟩

theorem key_reads (a : α) (name : String) (written : form.key.write a = .ok name) :
    form.key.read name = .ok a := by
  cases written
  exact form.parse_text a

end TextForm

/-- The case of an enumeration and what it holds, if anything. -/
def Json.variant : Json → Except String (String × Option Json)
  | .string tag => .ok (tag, none)
  | .object [(tag, payload)] => .ok (tag, some payload)
  | _ => .error "invalid type: expected an enumeration"

/-- One case of an enumeration that holds a value. -/
def Codec.tagged (name : String) (c : Codec α) (a : α) : Except String Json := do
  .ok (.object [(name, ← c.write a)])

theorem Codec.tagged_eq_ok {json : Json} :
    Codec.tagged name c a = .ok json ↔
      ∃ payload, c.write a = .ok payload ∧ json = .object [(name, payload)] := by
  constructor
  · intro h
    obtain ⟨payload, written, h⟩ := bind_eq_ok.mp h
    exact ⟨payload, written, (Except.ok.inj h).symm⟩
  · rintro ⟨payload, written, rfl⟩
    exact bind_eq_ok.mpr ⟨payload, written, rfl⟩

/-- A case is read as it was written if what it holds is, and if it is the case that its
name stands for. -/
theorem Codec.reads_tagged {e : Codec β} {make : α → β} (reads : c.Reads a)
    (named : ∀ payload, e.read (.object [(name, payload)]) = do .ok (make (← c.read payload)))
    (json : Json) (written : Codec.tagged name c a = .ok json) : e.read json = .ok (make a) := by
  obtain ⟨payload, held, rfl⟩ := Codec.tagged_eq_ok.mp written
  rw [named, reads payload held]
  rfl

theorem Codec.tagged_ok_iff : (∃ json, Codec.tagged name c a = .ok json) ↔ c.Writes a := by
  constructor
  · rintro ⟨json, h⟩
    obtain ⟨payload, written, -⟩ := Codec.tagged_eq_ok.mp h
    exact ⟨payload, written⟩
  · rintro ⟨payload, written⟩
    exact ⟨_, Codec.tagged_eq_ok.mpr ⟨payload, written, rfl⟩⟩

/-- The members of the object a record is written as. They are read by their names: what
else the object holds does not matter. -/
structure Fields (α : Type) where
  names : List String
  write : α → Except String (List (String × Json))
  read : List (String × Json) → Except String α

namespace Fields

def nil : Fields Unit := ⟨[], fun _ => .ok [], fun _ => .ok ()⟩

def readMember (c : Codec α) (name : String) (members : List (String × Json)) : Except String α :=
  match members.lookup name with
  | some json => c.read json
  | none => demand c.missing ("missing field " ++ name)

def cons (name : String) (c : Codec α) (rest : Fields β) : Fields (α × β) where
  names := name :: rest.names
  write value := do .ok ((name, ← c.write value.1) :: (← rest.write value.2))
  read members := do .ok (← readMember c name members, ← rest.read members)

@[simp] theorem names_nil : nil.names = [] := rfl

@[simp] theorem names_cons {c : Codec α} {rest : Fields β} :
    (cons name c rest).names = name :: rest.names := rfl

/-- The codec of a record with these members. -/
def record (fields : Fields β) (split : α → β) (make : β → α) : Codec α where
  write a := do .ok (.object (← fields.write (split a)))
  read
    | .object members => do .ok (make (← fields.read members))
    | _ => .error "invalid type: expected a struct"
  missing := none

/-- The same members where an object may hold no others. -/
def closed (fields : Fields α) : Fields α :=
  { fields with
    read := fun members => do
      require (∀ member ∈ members, member.1 ∈ fields.names) "unknown field"
      fields.read members }

variable {fields : Fields β} {split : α → β} {make : β → α}

def Writes (fields : Fields α) (a : α) : Prop := ∃ members, fields.write a = .ok members

/-- What is written is read as the value, whatever stands before it under other names. -/
def Reads (fields : Fields α) (a : α) : Prop :=
  ∀ members, fields.write a = .ok members → ∀ others : List (String × Json),
    (∀ member ∈ others, member.1 ∉ fields.names) → fields.read (others ++ members) = .ok a

/-- The members are written under their names. -/
def Named (fields : Fields α) : Prop :=
  ∀ a members, fields.write a = .ok members → ∀ member ∈ members, member.1 ∈ fields.names

theorem named_nil : nil.Named := by
  rintro _ _ ⟨⟩ _ ⟨⟩

theorem named_cons (named : fields.Named) : (cons name c fields).Named := by
  rintro ⟨a, b⟩ members written member inside
  obtain ⟨json, -, written⟩ := bind_eq_ok.mp written
  obtain ⟨more, rest, written⟩ := bind_eq_ok.mp written
  cases written
  obtain rfl | later := List.mem_cons.mp inside
  · exact List.mem_cons_self
  · exact List.mem_cons_of_mem name (named b more rest member later)

@[simp] theorem writes_nil : nil.Writes () := ⟨[], rfl⟩

@[simp] theorem writes_cons : (cons name c fields).Writes (a, b) ↔ c.Writes a ∧ fields.Writes b := by
  constructor
  · rintro ⟨members, written⟩
    obtain ⟨json, first, written⟩ := bind_eq_ok.mp written
    obtain ⟨more, rest, -⟩ := bind_eq_ok.mp written
    exact ⟨⟨json, first⟩, more, rest⟩
  · rintro ⟨⟨json, first⟩, more, rest⟩
    exact ⟨(name, json) :: more, bind_eq_ok.mpr ⟨json, first, bind_eq_ok.mpr ⟨more, rest, rfl⟩⟩⟩

@[simp] theorem writes_record : (record fields split make).Writes a ↔ fields.Writes (split a) := by
  constructor
  · rintro ⟨json, written⟩
    obtain ⟨members, done, -⟩ := bind_eq_ok.mp written
    exact ⟨members, done⟩
  · rintro ⟨members, done⟩
    exact ⟨.object members, bind_eq_ok.mpr ⟨members, done, rfl⟩⟩

theorem record_solid : (record fields split make).Solid := by
  intro a written
  obtain ⟨members, -, written⟩ := bind_eq_ok.mp written
  cases written

@[simp] theorem writes_closed {a : α} {fields : Fields α} : fields.closed.Writes a ↔ fields.Writes a :=
  Iff.rfl

theorem reads_nil : nil.Reads () := by
  intro members _ others _
  rfl

theorem lookup_append {others members : List (String × Json)} {json : Json}
    (absent : ∀ member ∈ others, member.1 ≠ name) :
    (others ++ (name, json) :: members).lookup name = some json := by
  induction others with
  | nil => simp
  | cons other others ih =>
    rw [List.forall_mem_cons] at absent
    obtain ⟨other, value⟩ := other
    rw [List.cons_append, List.lookup_cons, beq_false_of_ne (Ne.symm absent.1)]
    exact ih absent.2

theorem reads_cons (fresh : name ∉ fields.names) (first : c.Reads a) (rest : fields.Reads b) :
    (cons name c fields).Reads (a, b) := by
  intro members written others absent
  obtain ⟨json, head, written⟩ := bind_eq_ok.mp written
  obtain ⟨more, tail, written⟩ := bind_eq_ok.mp written
  cases written
  have apart : ∀ member ∈ others, member.1 ≠ name := by
    rintro member inside rfl
    exact absent member inside List.mem_cons_self
  have member : readMember c name (others ++ (name, json) :: more) = .ok a := by
    rw [readMember, lookup_append apart]
    exact first json head
  have remaining : fields.read (others ++ (name, json) :: more) = .ok b := by
    -- The member of this name is one more that the rest does not read.
    have shifted := rest more tail (others ++ [(name, json)]) (by
      intro member inside
      obtain inside | inside := List.mem_append.mp inside
      · exact fun named => absent member inside (List.mem_cons_of_mem name named)
      · obtain rfl := List.mem_singleton.mp inside
        exact fresh)
    rwa [List.append_assoc] at shifted
  exact bind_eq_ok.mpr ⟨a, member, bind_eq_ok.mpr ⟨b, remaining, rfl⟩⟩

theorem reads_record (reads : fields.Reads (split a)) (made : make (split a) = a) :
    (record fields split make).Reads a := by
  intro json written
  obtain ⟨members, done, written⟩ := bind_eq_ok.mp written
  cases written
  have read := reads members done [] (fun _ inside => absurd inside List.not_mem_nil)
  exact bind_eq_ok.mpr ⟨split a, read, congrArg Except.ok made⟩

theorem reads_closed (named : fields.Named) (reads : fields.Reads (split a))
    (made : make (split a) = a) : (record fields.closed split make).Reads a := by
  intro json written
  obtain ⟨members, done, written⟩ := bind_eq_ok.mp written
  cases written
  have read := reads members done [] (fun _ inside => absurd inside List.not_mem_nil)
  have known : fields.closed.read members = .ok (split a) :=
    require_bind_eq_ok.mpr ⟨named (split a) members done, read⟩
  exact bind_eq_ok.mpr ⟨split a, known, congrArg Except.ok made⟩

end Fields

/-- The items of the array a tuple is written as. -/
structure Items (α : Type) where
  write : α → Except String (List Json)
  read : List Json → Except String α

namespace Items

def nil : Items Unit where
  write _ := .ok []
  read
    | [] => .ok ()
    | _ :: _ => .error "invalid length"

def cons (c : Codec α) (rest : Items β) : Items (α × β) where
  write value := do .ok ((← c.write value.1) :: (← rest.write value.2))
  read
    | [] => .error "invalid length"
    | json :: items => do .ok (← c.read json, ← rest.read items)

/-- The codec of a tuple with these items. -/
def tuple (items : Items β) (split : α → β) (make : β → α) : Codec α where
  write a := do .ok (.array (← items.write (split a)))
  read
    | .array values => do .ok (make (← items.read values))
    | _ => .error "invalid type: expected a tuple"
  missing := none

variable {items : Items β} {split : α → β} {make : β → α}

def Writes (items : Items α) (a : α) : Prop := ∃ values, items.write a = .ok values

def Reads (items : Items α) (a : α) : Prop :=
  ∀ values, items.write a = .ok values → items.read values = .ok a

@[simp] theorem writes_nil : nil.Writes () := ⟨[], rfl⟩

@[simp] theorem writes_cons : (cons c items).Writes (a, b) ↔ c.Writes a ∧ items.Writes b := by
  constructor
  · rintro ⟨values, written⟩
    obtain ⟨json, first, written⟩ := bind_eq_ok.mp written
    obtain ⟨more, rest, -⟩ := bind_eq_ok.mp written
    exact ⟨⟨json, first⟩, more, rest⟩
  · rintro ⟨⟨json, first⟩, more, rest⟩
    exact ⟨json :: more, bind_eq_ok.mpr ⟨json, first, bind_eq_ok.mpr ⟨more, rest, rfl⟩⟩⟩

@[simp] theorem writes_tuple : (tuple items split make).Writes a ↔ items.Writes (split a) := by
  constructor
  · rintro ⟨json, written⟩
    obtain ⟨values, done, -⟩ := bind_eq_ok.mp written
    exact ⟨values, done⟩
  · rintro ⟨values, done⟩
    exact ⟨.array values, bind_eq_ok.mpr ⟨values, done, rfl⟩⟩

theorem tuple_solid : (tuple items split make).Solid := by
  intro a written
  obtain ⟨values, -, written⟩ := bind_eq_ok.mp written
  cases written

theorem reads_nil : nil.Reads () := by
  rintro _ ⟨⟩
  rfl

theorem reads_cons (first : c.Reads a) (rest : items.Reads b) : (cons c items).Reads (a, b) := by
  intro values written
  obtain ⟨json, head, written⟩ := bind_eq_ok.mp written
  obtain ⟨more, tail, written⟩ := bind_eq_ok.mp written
  cases written
  exact bind_eq_ok.mpr ⟨a, first json head, bind_eq_ok.mpr ⟨b, rest more tail, rfl⟩⟩

theorem reads_tuple (reads : items.Reads (split a)) (made : make (split a) = a) :
    (tuple items split make).Reads a := by
  intro json written
  obtain ⟨values, done, written⟩ := bind_eq_ok.mp written
  cases written
  exact bind_eq_ok.mpr ⟨split a, reads values done, congrArg Except.ok made⟩

end Items

end Fava.Lib
