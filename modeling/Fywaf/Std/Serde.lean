import Fywaf.Std.JsonRoundtrip
import Fywaf.Std.Map

/-!
# Reading structures from JSON

What `derive(Deserialize)` makes of a value: a structure is read from an object, whose fields come
in any order, at most once each, beside fields that are ignored; or from an array that has the
fields in the order of their declaration. A borrowed string is read only where the text has it
without escape sequences, and a value of any shape only up to the recursion limit of the reader.

## Main definitions

* `readField`, `isStruct` — fields of a structure
* `readBool`, `readU16`, `readOwned`, `readBorrowed`, `readNullable` — their values
* `readEntries` — maps with borrowed keys
* `readAny` — a value of any shape
* `writeStruct`, `IsPlain` — what is written, and what of it is plain

## Main results

* `readField_writeStruct` — the fields of a written structure are read back one by one
* `readBorrowed_string`, `readMap_object` — borrowed strings and maps with borrowed keys are read
  back exactly when they are written without escape sequences
-/

namespace Fywaf

variable {α : Type}

/-! ### Structures -/

/-- The values of the fields of a name. -/
def fieldsNamed (name : String) (fields : List ((Str × Bool) × Token)) : List Token :=
  (fields.filter fun f => f.1.1 == name.toList).map Prod.snd

/-- A structure with `n` fields can be read from such a value. -/
def isStruct (n : ℕ) : Token → Bool
  | .object _ => true
  | .array items => decide (items.length ≤ n)
  | _ => false

/-- The field `name`, which is the one at `index`. Where it is missing, in an object or in an
array, there may be a value for it all the same. -/
def readField (index : ℕ) (name : String) (read : Token → Option α)
    (missingInObject missingInArray : Option α) : Token → Option α
  | .object fields =>
    match fieldsNamed name fields with
    | [] => missingInObject
    | [value] => read value
    | _ => none
  | .array items =>
    match items[index]? with
    | some value => read value
    | none => missingInArray
  | _ => none

/-- A field that must be there. -/
def readRequired (index : ℕ) (name : String) (read : Token → Option α) : Token → Option α :=
  readField index name read none none

/-- A field with a default. -/
def readDefault (index : ℕ) (name : String) (read : Token → Option α) (value : α) :
    Token → Option α :=
  readField index name read (some value) (some value)

/-- `null`, or a value. -/
def readNullable (read : Token → Option α) : Token → Option (Option α)
  | .null => some none
  | value => (read value).map some

/-- An optional field: in an object it may be missing. -/
def readOptional (index : ℕ) (name : String) (read : Token → Option α) :
    Token → Option (Option α) :=
  readField index name (readNullable read) (some none) none

/-! ### Values -/

/-- A truth value. -/
def readBool : Token → Option Bool
  | .bool b => some b
  | _ => none

/-- An integer of 16 bits. -/
def readU16 : Token → Option UInt16
  | .int false n => if n < 2 ^ 16 then some (UInt16.ofNat n) else none
  | _ => none

/-- A string that is copied. -/
def readOwned : Token → Option Str
  | .string s _ => some s
  | _ => none

/-- A string that is borrowed from the text. -/
def readBorrowed : Token → Option Str
  | .string s false => some s
  | _ => none

/-- How deep a text can be nested. -/
def recursionLimit : ℕ := 127

/-- A value of any shape, `depth` levels below the top. -/
def readAny (depth : ℕ) (value : Token) : Option Token :=
  if depth + value.depth ≤ recursionLimit then some value else none

/-- `Value::as_u64`. -/
def Token.asU64 : Token → Option ℕ
  | .int false n => some n
  | _ => none

/-- The entries of a map with borrowed keys. -/
def readEntries (read : Token → Option α) : List ((Str × Bool) × Token) → Option (List (Str × α))
  | [] => some []
  | ((key, escaped), value) :: fields =>
    if escaped then none
    else (read value).bind fun value => (readEntries read fields).map ((key, value) :: ·)

/-- A map with borrowed keys; a later entry replaces an earlier one. -/
def readMap (read : Token → Option α) : Token → Option (BTreeMap Str α)
  | .object fields => (readEntries read fields).map BTreeMap.empty.insertAll
  | _ => none

/-! ### Structures that were written -/

/-- A structure as an object, its fields in the order of their declaration. -/
def writeStruct (fields : List (String × Json)) : Json :=
  .object (fields.map fun f => (f.1.toList, f.2))

theorem fieldsNamed_writeStruct (name : String) (fields : List (String × Json)) :
    fieldsNamed name (Json.fieldTokens (fields.map fun f => (f.1.toList, f.2))) =
      (fields.filter fun f => f.1 = name).map fun f => f.2.tokens := by
  induction fields with
  | nil => rfl
  | cons f fields ih =>
    rw [fieldsNamed] at ih
    rw [List.map_cons, Json.fieldTokens_cons, fieldsNamed]
    by_cases h : f.1 = name
    · rw [List.filter_cons_of_pos (by simp [h]), List.filter_cons_of_pos (by simp [h]),
        List.map_cons, List.map_cons, ih]
    · have hlist : ¬ f.1.toList = name.toList := fun h' => h (String.toList_injective h')
      rw [List.filter_cons_of_neg (by simpa using hlist),
        List.filter_cons_of_neg (by simpa using h), ih]

section Written

variable {name : String} {index : ℕ} {read : Token → Option α} {inObject inArray : Option α}
  {fields : List (String × Json)}

/-- A field that was written is read back. -/
theorem readField_writeStruct {value : Json} (hnodup : (fields.map Prod.fst).Nodup)
    (hmem : (name, value) ∈ fields) :
    readField index name read inObject inArray (writeStruct fields).tokens =
      read value.tokens := by
  have hone : fields.filter (fun f => f.1 = name) = [(name, value)] := by
    obtain ⟨pre, post, rfl⟩ := List.append_of_mem hmem
    rw [List.map_append, List.map_cons, List.nodup_append] at hnodup
    obtain ⟨-, hpost, hdisjoint⟩ := hnodup
    rw [List.filter_append, List.filter_cons_of_pos (by simp), List.filter_eq_nil_iff.mpr,
      List.filter_eq_nil_iff.mpr, List.nil_append]
    · intro f hf h
      rw [decide_eq_true_iff] at h
      exact (List.nodup_cons.mp hpost).1 (List.mem_map.mpr ⟨f, hf, h⟩)
    · intro f hf h
      rw [decide_eq_true_iff] at h
      exact hdisjoint f.1 (List.mem_map_of_mem hf) name List.mem_cons_self h
  rw [writeStruct, Json.tokens_object, readField, fieldsNamed_writeStruct, hone]
  rfl

/-- A field that was left out is missing. -/
theorem readField_writeStruct_of_not_mem (h : name ∉ fields.map Prod.fst) :
    readField index name read inObject inArray (writeStruct fields).tokens = inObject := by
  have hnone : fields.filter (fun f => f.1 = name) = [] := by
    rw [List.filter_eq_nil_iff]
    intro f hf hname
    rw [decide_eq_true_iff] at hname
    exact h (List.mem_map.mpr ⟨f, hf, hname⟩)
  rw [writeStruct, Json.tokens_object, readField, fieldsNamed_writeStruct, hnone]
  rfl

end Written

/-! ### Values that were written -/

/-- A string that is written as it is. -/
def IsPlain (s : Str) : Prop := ∀ c ∈ s, needsEscape c = false

theorem isPlain_iff {s : Str} : IsPlain s ↔ s.any needsEscape = false := by
  rw [List.any_eq_false]
  exact forall₂_congr fun c _ => (Bool.not_eq_true _).symm.to_iff

/-- An optional string. -/
def optionJson : Option Str → Json
  | some s => .string s
  | none => .null

/-- **A borrowed string is read back exactly when it is plain.** -/
theorem readBorrowed_string {s t : Str} :
    readBorrowed (Json.string s).tokens = some t ↔ IsPlain s ∧ t = s := by
  rw [isPlain_iff, Json.tokens_string]
  cases s.any needsEscape with
  | false => rw [readBorrowed, Option.some.injEq, and_iff_right rfl, eq_comm]
  | true => exact iff_of_false (fun h => by cases h) fun h => by cases h.1

theorem readNullable_optionJson {o o' : Option Str} :
    readNullable readBorrowed (optionJson o).tokens = some o' ↔
      (∀ s ∈ o, IsPlain s) ∧ o' = o := by
  cases o with
  | none =>
    rw [optionJson, Json.tokens, readNullable, Option.some.injEq, eq_comm]
    exact (and_iff_right fun s hs => by cases hs).symm
  | some s =>
    have hstring : readNullable readBorrowed (Json.string s).tokens =
        (readBorrowed (Json.string s).tokens).map some := rfl
    rw [optionJson, hstring, Option.map_eq_some_iff]
    constructor
    · rintro ⟨t, ht, rfl⟩
      obtain ⟨hplain, rfl⟩ := readBorrowed_string.mp ht
      exact ⟨fun _ h => Option.some.inj h ▸ hplain, rfl⟩
    · rintro ⟨hplain, rfl⟩
      exact ⟨s, readBorrowed_string.mpr ⟨hplain s rfl, rfl⟩, rfl⟩

/-- A value of any shape is read back when it is not nested too deep. -/
theorem readAny_tokens {depth : ℕ} {j : Json} {t : Token} :
    readAny depth j.tokens = some t ↔ depth + j.depth ≤ recursionLimit ∧ t = j.tokens := by
  rw [readAny, depth_tokens]
  split
  · next h => rw [Option.some.injEq, and_iff_right h, eq_comm]
  · next h => exact iff_of_false (fun h' => by cases h') fun h' => h h'.1

section Maps

variable {β : Type} {write : β → Json} {read : Token → Option α} {Readable : β → Prop} {f : β → α}

/-- The entries of a map are read back exactly when the keys are plain and the values are
readable. -/
theorem readEntries_fieldTokens
    (hread : ∀ b a, read (write b).tokens = some a ↔ Readable b ∧ a = f b)
    {l : List (Str × β)} {entries : List (Str × α)} :
    readEntries read (Json.fieldTokens (l.map fun e => (e.1, write e.2))) = some entries ↔
      (∀ e ∈ l, IsPlain e.1 ∧ Readable e.2) ∧ entries = l.map fun e => (e.1, f e.2) := by
  induction l generalizing entries with
  | nil =>
    rw [List.map_nil, Json.fieldTokens_nil, readEntries, Option.some.injEq, eq_comm, List.map_nil]
    exact (and_iff_right fun e he => by cases he).symm
  | cons e l ih =>
    obtain ⟨key, b⟩ := e
    rw [List.map_cons, Json.fieldTokens_cons, readEntries, List.forall_mem_cons, List.map_cons,
      isPlain_iff]
    cases key.any needsEscape with
    | true => exact iff_of_false (fun h => by cases h) fun h => by cases h.1.1.1
    | false =>
      rw [if_neg Bool.false_ne_true, Option.bind_eq_some_iff]
      simp only [hread, Option.map_eq_some_iff, ih]
      constructor
      · rintro ⟨_, ⟨hb, rfl⟩, _, ⟨hl, rfl⟩, rfl⟩
        exact ⟨⟨⟨trivial, hb⟩, hl⟩, rfl⟩
      · rintro ⟨⟨⟨-, hb⟩, hl⟩, rfl⟩
        exact ⟨_, ⟨hb, rfl⟩, _, ⟨hl, rfl⟩, rfl⟩

/-- **A map with borrowed keys is read back exactly when the keys are plain** and the values are
readable. -/
theorem readMap_object (hread : ∀ b a, read (write b).tokens = some a ↔ Readable b ∧ a = f b)
    {l : List (Str × β)} {m : BTreeMap Str α} :
    readMap read (Json.object (l.map fun e => (e.1, write e.2))).tokens = some m ↔
      (∀ e ∈ l, IsPlain e.1 ∧ Readable e.2) ∧
        m = BTreeMap.empty.insertAll (l.map fun e => (e.1, f e.2)) := by
  rw [Json.tokens_object, readMap, Option.map_eq_some_iff]
  simp only [readEntries_fieldTokens hread]
  constructor
  · rintro ⟨_, ⟨hl, rfl⟩, rfl⟩
    exact ⟨hl, rfl⟩
  · rintro ⟨hl, rfl⟩
    exact ⟨_, ⟨hl, rfl⟩, rfl⟩

end Maps

end Fywaf
