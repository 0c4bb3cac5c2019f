import Fywaf.Std.Num

/-!
# JSON

JSON values, the compact text they are written as, and a reader. Two things matter to a program
that reads into borrowed data and checks what it gets: whether a string stood in the text as it is
or with escape sequences, and how deep the text is nested. The reader yields tokens that say so,
and leaves it to the type that is read what to make of them.

A floating point number is kept as the text it is printed with when it is written, and its value
is left out when it is read. The writer escapes the quotation mark, the backslash and the control
characters below U+0020, and nothing else.

## Main definitions

* `Json`, `Json.depth` — values
* `Token`, `Json.tokens` — what a reader yields, and what it is to yield for a written value
* `Json.write`, `readJson` — a writer and a reader
* `JsonCodec`, `JsonCodec.Lawful` — a JSON library and what is relied on
-/

namespace Fywaf

/-! ### Numbers -/

/-- Characters numbers are written with. -/
def isNumberChar (c : Char) : Bool :=
  c.isDigit || c == '-' || c == '+' || c == '.' || c == 'e' || c == 'E'

/-- One digit or more. -/
def isDigits (s : Str) : Bool := s ≠ [] && s.all Char.isDigit

/-- Digits without a leading zero. -/
def isIntText (s : Str) : Bool := isDigits s && (s == ['0'] || s.head? != some '0')

/-- The text without a sign in front. -/
def dropSign (signs : List Char) : Str → Str
  | [] => []
  | c :: s => if c ∈ signs then s else c :: s

/-- Sign, integer part, fraction and exponent. -/
def isNumberBody (s : Str) : Bool :=
  let s := dropSign ['-'] s
  let int := s.takeWhile Char.isDigit
  let rest := s.dropWhile Char.isDigit
  let (frac, rest) :=
    if rest.head? = some '.' then (isDigits (rest.tail.takeWhile Char.isDigit),
      rest.tail.dropWhile Char.isDigit)
    else (true, rest)
  let exponent :=
    match rest with
    | [] => true
    | c :: rest => (c == 'e' || c == 'E') && isDigits (dropSign ['+', '-'] rest)
  isIntText int && frac && exponent

/-- A number of the JSON grammar. -/
def isNumberText (s : Str) : Bool := s ≠ [] && s.all isNumberChar && isNumberBody s

/-- The integer a text denotes, when it is one of 64 bits: sign and distance from zero. -/
def intOf (s : Str) : Option (Bool × ℕ) :=
  if s.head? = some '-' then
    let n := Nat.ofDigitChars 10 s.tail 0
    if isIntText s.tail ∧ 0 < n ∧ n ≤ 2 ^ 63 then some (true, n) else none
  else
    let n := Nat.ofDigitChars 10 s 0
    if isIntText s ∧ n < 2 ^ 64 then some (false, n) else none

/-- A JSON number: an integer of 64 bits, else the text of a floating point number. -/
inductive Number
  | posInt (n : ℕ) (h : n < 2 ^ 64)
  | negInt (n : ℕ) (h : 0 < n ∧ n ≤ 2 ^ 63)
  | float (text : Str) (h : isNumberText text = true ∧ intOf text = none)

/-- The text of a number. -/
def Number.write : Number → Str
  | posInt n _ => decimal n
  | negInt n _ => '-' :: decimal n
  | float text _ => text

/-! ### Values and tokens -/

/-- A JSON value. -/
inductive Json
  | null
  | bool (b : Bool)
  | number (n : Number)
  | string (s : Str)
  | array (items : List Json)
  | object (fields : List (Str × Json))

/-- A JSON value as it stands in a text: a string, or the name of a field, also says whether it
is written with escape sequences. An integer is its sign and its distance from zero. -/
inductive Token
  | null
  | bool (b : Bool)
  | int (negative : Bool) (n : ℕ)
  | float
  | string (s : Str) (escaped : Bool)
  | array (items : List Token)
  | object (fields : List ((Str × Bool) × Token))

/-- The characters that are written as escape sequences. -/
def needsEscape (c : Char) : Bool := c == '"' || c == '\\' || c.toNat < 0x20

mutual

/-- How deep arrays and objects are nested. -/
def Json.depth : Json → ℕ
  | .array items => Json.itemsDepth items + 1
  | .object fields => Json.fieldsDepth fields + 1
  | _ => 0

def Json.itemsDepth : List Json → ℕ
  | [] => 0
  | item :: items => max item.depth (Json.itemsDepth items)

def Json.fieldsDepth : List (Str × Json) → ℕ
  | [] => 0
  | (_, item) :: fields => max item.depth (Json.fieldsDepth fields)

end

mutual

/-- How deep arrays and objects are nested. -/
def Token.depth : Token → ℕ
  | .array items => Token.itemsDepth items + 1
  | .object fields => Token.fieldsDepth fields + 1
  | _ => 0

def Token.itemsDepth : List Token → ℕ
  | [] => 0
  | item :: items => max item.depth (Token.itemsDepth items)

def Token.fieldsDepth : List ((Str × Bool) × Token) → ℕ
  | [] => 0
  | (_, item) :: fields => max item.depth (Token.fieldsDepth fields)

end

/-- What is read of a number. -/
def Number.token : Number → Token
  | posInt n _ => .int false n
  | negInt n _ => .int true n
  | float _ _ => .float

mutual

/-- The value as a reader finds it in the text it is written as. -/
def Json.tokens : Json → Token
  | .null => .null
  | .bool b => .bool b
  | .number n => n.token
  | .string s => .string s (s.any needsEscape)
  | .array items => .array (Json.itemTokens items)
  | .object fields => .object (Json.fieldTokens fields)

def Json.itemTokens : List Json → List Token
  | [] => []
  | item :: items => item.tokens :: Json.itemTokens items

def Json.fieldTokens : List (Str × Json) → List ((Str × Bool) × Token)
  | [] => []
  | (name, item) :: fields => ((name, name.any needsEscape), item.tokens) :: Json.fieldTokens fields

end

theorem Json.tokens_string (s : Str) :
    (Json.string s).tokens = .string s (s.any needsEscape) := rfl

theorem Json.tokens_object (fields : List (Str × Json)) :
    (Json.object fields).tokens = .object (Json.fieldTokens fields) := rfl

theorem Json.fieldTokens_nil : Json.fieldTokens [] = [] := rfl

theorem Json.fieldTokens_cons (name : Str) (item : Json) (fields : List (Str × Json)) :
    Json.fieldTokens ((name, item) :: fields) =
      ((name, name.any needsEscape), item.tokens) :: Json.fieldTokens fields := rfl

/-! ### Writing -/

/-- A character inside a string. -/
def escapeChar (c : Char) : Str :=
  if c = '"' then ['\\', '"']
  else if c = '\\' then ['\\', '\\']
  else if c = '\n' then ['\\', 'n']
  else if c = '\r' then ['\\', 'r']
  else if c = '\t' then ['\\', 't']
  else if c.toNat = 8 then ['\\', 'b']
  else if c.toNat = 12 then ['\\', 'f']
  else if c.toNat < 0x20 then
    ['\\', 'u', '0', '0', Nat.digitChar (c.toNat / 16), Nat.digitChar (c.toNat % 16)]
  else [c]

/-- A string between its quotation marks. -/
def writeString (s : Str) : Str := '"' :: s.flatMap escapeChar ++ ['"']

mutual

/-- The compact text of a value. -/
def Json.write : Json → Str
  | .null => "null".toList
  | .bool true => "true".toList
  | .bool false => "false".toList
  | .number n => n.write
  | .string s => writeString s
  | .array items => '[' :: Json.writeItems items
  | .object fields => '\x7b' :: Json.writeFields fields

/-- The rest of an array. -/
def Json.writeItems : List Json → Str
  | [] => [']']
  | [item] => item.write ++ [']']
  | item :: items => item.write ++ ',' :: Json.writeItems items

/-- The rest of an object. -/
def Json.writeFields : List (Str × Json) → Str
  | [] => ['\x7d']
  | [(name, item)] => writeString name ++ ':' :: item.write ++ ['\x7d']
  | (name, item) :: fields =>
    writeString name ++ ':' :: item.write ++ ',' :: Json.writeFields fields

end

theorem Json.write_number (n : Number) : (Json.number n).write = n.write := rfl

theorem Json.write_string (s : Str) : (Json.string s).write = writeString s := rfl

theorem Json.write_array (items : List Json) :
    (Json.array items).write = '[' :: Json.writeItems items := rfl

theorem Json.write_object (fields : List (Str × Json)) :
    (Json.object fields).write = '\x7b' :: Json.writeFields fields := rfl

/-! ### Reading -/

/-- White space between tokens. -/
def isJsonBlank (c : Char) : Bool := c == ' ' || c == '\n' || c == '\r' || c == '\t'

/-- The text behind white space. -/
def skipBlanks (s : Str) : Str := s.dropWhile isJsonBlank

/-- The value of four hexadecimal digits. -/
def readHex4 : Str → Option (ℕ × Str)
  | a :: b :: c :: d :: r =>
    (toDigit 16 a).bind fun a => (toDigit 16 b).bind fun b => (toDigit 16 c).bind fun c =>
      (toDigit 16 d).map fun d => (((a * 16 + b) * 16 + c) * 16 + d, r)
  | _ => none

/-- The character of an escape sequence behind `\u`: surrogates come in pairs. -/
def readUnicode (s : Str) : Option (Char × Str) :=
  (readHex4 s).bind fun (n, r) =>
    if 0xD800 ≤ n ∧ n < 0xDC00 then
      match r with
      | '\\' :: 'u' :: r =>
        (readHex4 r).bind fun (m, r) =>
          if 0xDC00 ≤ m ∧ m < 0xE000 then
            some (Char.ofNat (0x10000 + (n - 0xD800) * 0x400 + (m - 0xDC00)), r)
          else none
      | _ => none
    else if 0xDC00 ≤ n ∧ n < 0xE000 then none
    else some (Char.ofNat n, r)

/-- The character of an escape sequence, behind its backslash. -/
def readEscape : Str → Option (Char × Str)
  | '"' :: r => some ('"', r)
  | '\\' :: r => some ('\\', r)
  | '/' :: r => some ('/', r)
  | 'b' :: r => some (Char.ofNat 8, r)
  | 'f' :: r => some (Char.ofNat 12, r)
  | 'n' :: r => some ('\n', r)
  | 'r' :: r => some ('\r', r)
  | 't' :: r => some ('\t', r)
  | 'u' :: r => readUnicode r
  | _ => none

/-- The content of a string behind its quotation mark, whether it has escape sequences, and the
text behind the closing quotation mark. The steps are bounded by the length of the text. -/
def readString : ℕ → Str → Option (Str × Bool × Str)
  | 0, _ => none
  | _ + 1, [] => none
  | fuel + 1, c :: r =>
    if c = '"' then some ([], false, r)
    else if c = '\\' then
      (readEscape r).bind fun (d, r) =>
        (readString fuel r).map fun (s, _, r) => (d :: s, true, r)
    else if c.toNat < 0x20 then none
    else (readString fuel r).map fun (s, escaped, r) => (c :: s, escaped, r)

/-- A number, as long as number characters go. -/
def readNumber (s : Str) : Option (Token × Str) :=
  let text := s.takeWhile isNumberChar
  let rest := s.dropWhile isNumberChar
  match intOf text with
  | some (negative, n) => some (.int negative n, rest)
  | none => if isNumberText text then some (.float, rest) else none

/-- A fixed word. -/
def readWord (word : Str) (token : Token) (s : Str) : Option (Token × Str) :=
  (stripPrefix word s).map fun r => (token, r)

mutual

/-- A value. The steps are bounded by the length of the text. -/
def readValue : ℕ → Str → Option (Token × Str)
  | 0, _ => none
  | fuel + 1, s =>
    match skipBlanks s with
    | [] => none
    | c :: r =>
      if c = 'n' then readWord "null".toList .null (c :: r)
      else if c = 't' then readWord "true".toList (.bool true) (c :: r)
      else if c = 'f' then readWord "false".toList (.bool false) (c :: r)
      else if c = '"' then
        (readString r.length r).map fun (s, escaped, r) => (.string s escaped, r)
      else if c = '[' then
        if (skipBlanks r).head? = some ']' then some (.array [], (skipBlanks r).tail)
        else (readItems fuel r).map fun (items, r) => (.array items, r)
      else if c = '\x7b' then
        if (skipBlanks r).head? = some '\x7d' then some (.object [], (skipBlanks r).tail)
        else (readFields fuel r).map fun (fields, r) => (.object fields, r)
      else readNumber (c :: r)

/-- The rest of an array that is not empty. -/
def readItems : ℕ → Str → Option (List Token × Str)
  | 0, _ => none
  | fuel + 1, s =>
    match readValue fuel s with
    | none => none
    | some (item, r) =>
      match skipBlanks r with
      | ',' :: r => (readItems fuel r).map fun (items, r) => (item :: items, r)
      | ']' :: r => some ([item], r)
      | _ => none

/-- The rest of an object that is not empty. -/
def readFields : ℕ → Str → Option (List ((Str × Bool) × Token) × Str)
  | 0, _ => none
  | fuel + 1, s =>
    match skipBlanks s with
    | '"' :: r =>
      match readString r.length r with
      | none => none
      | some (name, escaped, r) =>
        match skipBlanks r with
        | ':' :: r =>
          match readValue fuel r with
          | none => none
          | some (item, r) =>
            match skipBlanks r with
            | ',' :: r =>
              (readFields fuel r).map fun (fields, r) => (((name, escaped), item) :: fields, r)
            | '\x7d' :: r => some ([((name, escaped), item)], r)
            | _ => none
        | _ => none
    | _ => none

end

/-- A text that is one value and white space. -/
def readJson (s : Str) : Option Token :=
  match readValue (2 * s.length) s with
  | some (token, r) => if skipBlanks r = [] then some token else none
  | none => none

/-! ### Libraries -/

/-- A JSON library, as far as the program calls it. -/
structure JsonCodec where
  /-- `to_string`. -/
  write : Json → Str
  /-- `from_str`, up to the conversion into a type of the program. -/
  read : Str → Option Token

/-- What the program relies on: what was written is read back, and a string carries escape
sequences exactly where it has characters that need them. -/
def JsonCodec.Lawful (codec : JsonCodec) : Prop := ∀ j, codec.read (codec.write j) = some j.tokens

/-- The writer and the reader of this module. -/
def compactJson : JsonCodec := ⟨Json.write, readJson⟩

end Fywaf
