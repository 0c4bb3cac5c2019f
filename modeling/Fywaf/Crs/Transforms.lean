import Fywaf.Crs.Types
import Fywaf.Std.Num
import Fywaf.Std.Scanner

/-!
# The transform pipeline

The `t:` transforms, applied in order before the operator looks at a value. The decoders read
bytes and push one character per byte, so a byte above `0x7F` comes out as the Latin-1 character
of the same number; `htmlEntityDecode` alone reads characters.

Each decoder is a `Scanner`: its step is the body of the source's loop at one position, with the
lookahead window written as a pattern on what follows.

## Main definitions

* `Crs.applyTransforms`, `Crs.applyOne`
* `Crs.urlDecodeUni`, `Crs.htmlEntityDecode`, `Crs.jsDecode`, `Crs.cssDecode`
-/

namespace Fywaf

namespace Crs

/-- `b as char`. -/
def byteChar (b : UInt8) : Char := Char.ofNat b.toNat

/-- The byte of an ASCII character, as in `b'x'`. -/
def byte (c : Char) : UInt8 := UInt8.ofNat c.toNat

/-- `char::from_u32`. -/
def charFromU32 (n : ℕ) : Option Char := if n.isValidChar then some (Char.ofNat n) else none

def hexDigit (b : UInt8) : Option ℕ := toDigit 16 (byteChar b)

def hex2 (a b : UInt8) : Option UInt8 :=
  (hexDigit a).bind fun hi => (hexDigit b).map fun lo => UInt8.ofNat (hi * 16 + lo)

def hex4 : Bytes → Option ℕ
  | a :: b :: c :: d :: _ =>
    (hexDigit a).bind fun h₀ => (hexDigit b).bind fun h₁ => (hexDigit c).bind fun h₂ =>
      (hexDigit d).map fun h₃ => h₀ * 4096 + h₁ * 256 + h₂ * 16 + h₃
  | _ => none

/-! ### Percent encoding -/

/-- The window of `%uXXXX` behind the percent sign. -/
def uniEscape : Bytes → Option (Char × Bytes)
  | u :: a :: b :: c :: d :: rest =>
    if u = byte 'u' ∨ u = byte 'U' then
      ((hex4 [a, b, c, d]).bind charFromU32).map fun x => (x, rest)
    else none
  | _ => none

/-- The window of `%XX` behind the percent sign. -/
def byteEscape : Bytes → Option (Char × Bytes)
  | a :: b :: rest => (hex2 a b).map fun x => (byteChar x, rest)
  | _ => none

/-- The window is read whole. -/
theorem drop_of_uniEscape {l rest : Bytes} {x : Char} (h : uniEscape l = some (x, rest)) :
    l.drop 5 = rest := by
  unfold uniEscape at h
  split at h
  · split at h
    · obtain ⟨_, _, heq⟩ := Option.map_eq_some_iff.mp h
      exact (Prod.mk.inj heq).2
    · cases h
  · cases h

theorem uniEscape_le {l rest : Bytes} {x : Char} (h : uniEscape l = some (x, rest)) :
    rest.length ≤ l.length := by
  rw [← drop_of_uniEscape h, List.length_drop]
  exact Nat.sub_le _ _

theorem byteEscape_le {l rest : Bytes} {x : Char} (h : byteEscape l = some (x, rest)) :
    rest.length ≤ l.length := by
  unfold byteEscape at h
  split at h
  · obtain ⟨_, _, heq⟩ := Option.map_eq_some_iff.mp h
    rw [← (Prod.mk.inj heq).2]
    simp only [List.length_cons]
    omega
  · cases h

/-- Emit one character and go on at `rest`, or emit the byte itself and go on behind it. -/
def emitOr (b : UInt8) (l : Bytes) : Option (Char × Bytes) → Str × Bytes
  | some (x, rest) => ([x], rest)
  | none => ([byteChar b], l)

theorem emitOr_le {b : UInt8} {l : Bytes} {o : Option (Char × Bytes)}
    (h : ∀ x rest, o = some (x, rest) → rest.length ≤ l.length) :
    (emitOr b l o).2.length ≤ l.length := by
  cases o with
  | none => exact Nat.le_refl _
  | some p => exact h p.1 p.2 rfl

/-- `%uXXXX` wins over `%XX`; anything else stands for itself. -/
def urlScanner : Scanner UInt8 Char where
  step b l := emitOr b l (if b = byte '%' then (uniEscape l).or (byteEscape l) else none)
  le b l := by
    refine emitOr_le fun x rest h => ?_
    split at h
    · rcases Option.or_eq_some_iff.mp h with h | ⟨_, h⟩
      · exact uniEscape_le h
      · exact byteEscape_le h
    · cases h

/-- Decode `%XX` and `%uXXXX`. -/
def urlDecodeUni (s : Str) : Str := urlScanner.run (asBytes s)

/-! ### HTML entities -/

/-- The named entities, with the character each stands for, in the order they are tried. -/
def namedEntities : List (Str × Char) := [
  ("&lt;".toList, '<'), ("&gt;".toList, '>'), ("&amp;".toList, '&'), ("&quot;".toList, '"'),
  ("&apos;".toList, '\'')]

/-- A numeric reference whose digits start `skip` characters into `rest`: the text up to the next
semicolon, wherever that is, read in base `radix`. -/
def numericEntity (radix skip : ℕ) (rest : Str) : Option (Char × Str) :=
  (splitOnce ';' (rest.drop skip)).bind fun (digits, tail) =>
    ((fromStrRadix radix 32 digits).bind charFromU32).map fun c => (c, tail)

/-- What stands at an ampersand, given the text from the ampersand on. -/
def entityAt (rest : Str) : Option (Char × Str) :=
  match namedEntities.find? fun (name, _) => name.isPrefixOf rest with
  | some (name, c) => some (c, rest.drop name.length)
  | none =>
    if "&#x".toList.isPrefixOf rest ∨ "&#X".toList.isPrefixOf rest then numericEntity 16 3 rest
    else if "&#".toList.isPrefixOf rest then numericEntity 10 2 rest
    else none

theorem length_of_splitOnce {sep : Char} {s a b : Str} (h : splitOnce sep s = some (a, b)) :
    b.length < s.length := by
  obtain ⟨rfl, -⟩ := splitOnce_eq_some_iff.mp h
  rw [List.length_append, List.length_cons]
  omega

theorem numericEntity_lt {radix skip : ℕ} {l tail : Str} {c : Char}
    (h : numericEntity radix skip l = some (c, tail)) : tail.length < l.length := by
  obtain ⟨⟨digits, t⟩, hsplit, h⟩ := Option.bind_eq_some_iff.mp h
  obtain ⟨_, _, heq⟩ := Option.map_eq_some_iff.mp h
  have hlt := length_of_splitOnce hsplit
  rw [← (Prod.mk.inj heq).2]
  rw [List.length_drop] at hlt
  omega

theorem entityAt_lt {l tail : Str} {c : Char} (h : entityAt l = some (c, tail)) :
    tail.length < l.length := by
  have hnames : ∀ e ∈ namedEntities, e.1 ≠ [] := by decide
  rw [entityAt] at h
  split at h
  · next name _ hfind =>
    have hne : name.length ≠ 0 :=
      fun h0 => hnames _ (List.mem_of_find?_eq_some hfind) (List.length_eq_zero_iff.mp h0)
    have hpre : name.isPrefixOf l = true := by simpa using List.find?_some hfind
    obtain ⟨r, rfl⟩ := List.isPrefixOf_iff_prefix.mp hpre
    rw [← (Prod.mk.inj (Option.some.inj h)).2, List.drop_left, List.length_append]
    omega
  · split at h
    · exact numericEntity_lt h
    · split at h
      · exact numericEntity_lt h
      · cases h

/-- An entity at an ampersand is replaced; a failed one is an ampersand and no more. -/
def entityScanner : Scanner Char Char where
  step c l :=
    if c = '&' then
      match entityAt (c :: l) with
      | some (x, rest) => ([x], rest)
      | none => ([c], l)
    else ([c], l)
  le c l := by
    split
    · split
      · next h => exact Nat.le_of_lt_succ (entityAt_lt h)
      · exact Nat.le_refl _
    · exact Nat.le_refl _

/-- Decode the named entities and the numeric references. -/
def htmlEntityDecode (s : Str) : Str := entityScanner.run s

/-! ### JavaScript escapes -/

/-- What follows a backslash: the guarded arms fall through to the last one when too little text
is left, and to a plain backslash when the digits are wrong. -/
def jsEscape (b e : UInt8) (rest : Bytes) : Str × Bytes :=
  if (e = byte 'u' ∨ e = byte 'U') ∧ 4 ≤ rest.length then
    match (hex4 (rest.take 4)).bind charFromU32 with
    | some c => ([c], rest.drop 4)
    | none => ([byteChar b], e :: rest)
  else if (e = byte 'x' ∨ e = byte 'X') ∧ 2 ≤ rest.length then
    match hex2 (rest.getD 0 0) (rest.getD 1 0) with
    | some x => ([byteChar x], rest.drop 2)
    | none => ([byteChar b], e :: rest)
  else if e = byte 'n' then (['\n'], rest)
  else if e = byte 'r' then (['\r'], rest)
  else if e = byte 't' then (['\t'], rest)
  else ([byteChar e], rest)

theorem jsEscape_le (b e : UInt8) (rest : Bytes) :
    (jsEscape b e rest).2.length ≤ rest.length + 1 := by
  rw [jsEscape]
  repeat' split
  all_goals
    simp only [List.length_drop, List.length_cons]
    omega

def jsScanner : Scanner UInt8 Char where
  step b l :=
    match l with
    | e :: rest => if b = byte '\\' then jsEscape b e rest else ([byteChar b], l)
    | [] => ([byteChar b], [])
  le b l := by
    split
    · split
      · exact jsEscape_le b _ _
      · exact Nat.le_refl _
    · exact Nat.le_refl _

/-- Decode `\uXXXX`, `\xHH` and the one-letter escapes. -/
def jsDecode (s : Str) : Str := jsScanner.run (asBytes s)

/-- Write non-ASCII characters as `\uXXXX`, with four digits or more. -/
def utf8ToUnicodeEscape (s : Str) : Str :=
  s.flatMap fun c =>
    if c.toNat < 0x80 then [c]
    else
      let digits := (Nat.toDigits 16 c.toNat).map Char.toUpper
      "\\u".toList ++ List.replicate (4 - digits.length) '0' ++ digits

/-! ### CSS escapes -/

/-- The escape behind a backslash: up to six hex digits and one space. The number is read from at
most six bytes of it, blanks trimmed. -/
def cssEscape (l : Bytes) : Option (Char × Bytes) :=
  let digits := (l.take 6).takeWhile fun b => (hexDigit b).isSome
  if digits = [] then none
  else
    let consumed :=
      if (l.drop digits.length).head? = some (byte ' ') then digits.length + 1
      else digits.length
    (fromUtf8 ((l.take consumed).take 6)).bind fun text =>
      ((fromStrRadix 16 32 (trimEndMatches isWhitespace text)).bind charFromU32).map fun c =>
        (c, l.drop consumed)

def cssScanner : Scanner UInt8 Char where
  step b l := emitOr b l (if b = byte '\\' ∧ l ≠ [] then cssEscape l else none)
  le b l := by
    refine emitOr_le fun x rest h => ?_
    split at h
    · rw [cssEscape] at h
      simp only at h
      split at h
      · cases h
      · obtain ⟨_, _, h⟩ := Option.bind_eq_some_iff.mp h
        obtain ⟨_, _, heq⟩ := Option.map_eq_some_iff.mp h
        rw [← (Prod.mk.inj heq).2, List.length_drop]
        omega
    · cases h

/-- Decode `\XX` hex escapes. -/
def cssDecode (s : Str) : Str := cssScanner.run (asBytes s)

/-! ### White space and nulls -/

/-- Runs of ASCII white space become one space; `prevWs` says whether one is running. -/
def compressFrom : Bool → Str → Str
  | _, [] => []
  | prevWs, c :: s =>
    if isAsciiWhitespace c then
      if prevWs then compressFrom true s else ' ' :: compressFrom true s
    else c :: compressFrom false s

def compressWhitespace (s : Str) : Str := compressFrom false s

/-! ### The pipeline -/

def applyOne (s : Str) : Transform → Str
  | .lowercase => toLowercase s
  | .removeNulls => s.filter (· ≠ '\x00')
  | .removeWhitespace => s.filter fun c => !isAsciiWhitespace c
  | .compressWhitespace => compressWhitespace s
  | .urlDecodeUni => urlDecodeUni s
  | .htmlEntityDecode => htmlEntityDecode s
  | .jsDecode => jsDecode s
  | .utf8toUnicode => utf8ToUnicodeEscape s
  | .cssDecode => cssDecode s
  | .none => s
  | .other _ => s

/-- Apply a list of transforms to a value in order. -/
def applyTransforms (value : Str) (transforms : List Transform) : Str :=
  transforms.foldl applyOne value

example : applyTransforms "%3CSCRIPT%3E".toList [.urlDecodeUni, .lowercase] =
    "<script>".toList := by
  decide

example : jsDecode "\\u003Cscript\\u003E".toList = "<script>".toList := by decide

example : htmlEntityDecode "&lt;script&#62;&#x3C;".toList = "<script><".toList := by decide

end Crs

end Fywaf
