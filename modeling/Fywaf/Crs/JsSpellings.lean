import Fywaf.Crs.Spellings

/-!
# JavaScript escapes in a mixture

A character may be written as itself, as `\xXX`, as `\uXXXX`, with one of the letters for a line
break or a tab, or as itself behind a backslash, and each character of a text in its own way.
`jsDecode` reads every such text as the characters it spells.

`utf8ToUnicodeEscape` writes such texts as long as four digits are enough. Behind that the two part
ways: the escape has more digits, and the decoder takes four of them.

## Main definitions

* `Crs.JsSpells` — the ways to write a character

## Main results

* `Crs.jsDecode_of_spells` — a text in any mixture of spellings is decoded
* `Crs.jsDecode_utf8ToUnicodeEscape_iff` — exactly when the decoder undoes the escape
-/

namespace Fywaf

namespace Crs

/-- The ways to write a character: as the ASCII character it is, unless that is a backslash; as an
escape with an `x` and two hex digits, or a `u` and four; with a letter of its own; and behind a
backslash, unless the character is a letter with a meaning there. -/
inductive JsSpells : Char → Str → Prop
  | literal (c : Char) (hascii : c.toNat < 0x80) (hplain : c ≠ '\\') : JsSpells c [c]
  | short (c x : Char) (hx : x = 'x' ∨ x = 'X') (digits : Str) (hlen : digits.length = 2)
    (hvalue : parseNat 16 digits = some c.toNat) : JsSpells c ('\\' :: x :: digits)
  | long (c u : Char) (hu : u = 'u' ∨ u = 'U') (digits : Str) (hlen : digits.length = 4)
    (hvalue : parseNat 16 digits = some c.toNat) : JsSpells c ('\\' :: u :: digits)
  | lineFeed : JsSpells '\n' ['\\', 'n']
  | carriageReturn : JsSpells '\r' ['\\', 'r']
  | tab : JsSpells '\t' ['\\', 't']
  | itself (c : Char) (hascii : c.toNat < 0x80) (hplain : c ∉ ['u', 'U', 'x', 'X', 'n', 'r', 't']) :
    JsSpells c ['\\', c]

/-- Behind a backslash the step is what the escape is. -/
theorem jsStep_backslash (e : UInt8) (rest : Bytes) :
    jsScanner.step (byte '\\') (e :: rest) = jsEscape (byte '\\') e rest := by
  simp only [jsScanner, if_true]

/-- The window of a long escape. -/
theorem jsEscape_long {b e w x y z : UInt8} {c : Char} (he : e = byte 'u' ∨ e = byte 'U')
    (h : hex4 [w, x, y, z] = some c.toNat) (rest : Bytes) :
    jsEscape b e (w :: x :: y :: z :: rest) = ([c], rest) := by
  have hlen : 4 ≤ (w :: x :: y :: z :: rest).length := by simp
  have htake : (w :: x :: y :: z :: rest).take 4 = [w, x, y, z] := rfl
  rw [jsEscape, if_pos ⟨he, hlen⟩]
  simp only [htake, h, Option.bind_some, charFromU32_toNat]
  rfl

/-- The window of a short escape. -/
theorem jsEscape_short {b e x y v : UInt8} (he : e = byte 'x' ∨ e = byte 'X')
    (h : hex2 x y = some v) (rest : Bytes) :
    jsEscape b e (x :: y :: rest) = ([byteChar v], rest) := by
  have hlen : 2 ≤ (x :: y :: rest).length := by simp
  have hlong : ¬ ((e = byte 'u' ∨ e = byte 'U') ∧ 4 ≤ (x :: y :: rest).length) := by
    rintro ⟨hu, -⟩
    rcases he with rfl | rfl <;> revert hu <;> decide
  rw [jsEscape, if_neg hlong, if_pos ⟨he, hlen⟩]
  simp only [List.getD_cons_zero, List.getD_cons_succ, h]
  rfl

/-- Any other character behind a backslash stands for itself. -/
theorem jsEscape_itself {c : Char} (hascii : c.toNat < 0x80)
    (hplain : c ∉ ['u', 'U', 'x', 'X', 'n', 'r', 't']) (b : UInt8) (rest : Bytes) :
    jsEscape b (byte c) rest = ([c], rest) := by
  have hne : ∀ d : Char, d.toNat < 0x80 → d ∈ ['u', 'U', 'x', 'X', 'n', 'r', 't'] →
      byte c ≠ byte d := by
    intro d hd hmem heq
    exact hplain ((byte_eq_byte_iff hascii hd).mp heq ▸ hmem)
  rw [jsEscape, if_neg (by simp [hne 'u' (by decide), hne 'U' (by decide)]),
    if_neg (by simp [hne 'x' (by decide), hne 'X' (by decide)]),
    if_neg (hne 'n' (by decide) (by decide)), if_neg (hne 'r' (by decide) (by decide)),
    if_neg (hne 't' (by decide) (by decide)), byteChar_byte hascii]

/-- **Each spelling is read whole**, whatever follows it. -/
theorem reads_of_jsSpells {c : Char} {piece : Str} (h : JsSpells c piece) :
    jsScanner.Reads (asBytes piece) [c] := by
  cases h with
  | literal _ hascii hplain =>
    have hne : byte c ≠ byte '\\' := mt (byte_eq_byte_iff hascii (by decide)).mp hplain
    rw [asBytes_cons_ascii hascii, asBytes_nil]
    refine Scanner.reads_of_step _ fun rest => ?_
    cases rest with
    | nil => simp only [jsScanner, List.append_nil, byteChar_byte hascii]
    | cons e rest => simp only [jsScanner, List.nil_append, if_neg hne, byteChar_byte hascii]
  | short _ x hx digits hlen hvalue =>
    obtain ⟨a, b, hbytes, hhex, hlt⟩ := hex2_of_parseNat hlen hvalue
    have hascii : x.toNat < 0x80 := by rcases hx with rfl | rfl <;> decide
    rw [asBytes_cons_ascii (by decide), asBytes_cons_ascii hascii, hbytes]
    refine Scanner.reads_of_step _ fun rest => ?_
    simp only [List.cons_append, List.nil_append, jsStep_backslash]
    rw [jsEscape_short (hx.imp (congrArg byte) (congrArg byte)) hhex, byteChar_ofNat hlt]
  | long _ u hu digits hlen hvalue =>
    obtain ⟨w, x, y, z, hbytes, hhex⟩ := hex4_of_parseNat hlen hvalue
    have hascii : u.toNat < 0x80 := by rcases hu with rfl | rfl <;> decide
    rw [asBytes_cons_ascii (by decide), asBytes_cons_ascii hascii, hbytes]
    refine Scanner.reads_of_step _ fun rest => ?_
    simp only [List.cons_append, List.nil_append, jsStep_backslash]
    exact jsEscape_long (hu.imp (congrArg byte) (congrArg byte)) hhex rest
  | lineFeed => exact Scanner.reads_of_step _ fun _ => rfl
  | carriageReturn => exact Scanner.reads_of_step _ fun _ => rfl
  | tab => exact Scanner.reads_of_step _ fun _ => rfl
  | itself _ hascii hplain =>
    rw [asBytes_cons_ascii (by decide), asBytes_cons_ascii hascii, asBytes_nil]
    refine Scanner.reads_of_step _ fun rest => ?_
    simp only [List.cons_append, List.nil_append, jsStep_backslash]
    exact jsEscape_itself hascii hplain _ rest

/-- **A text in any mixture of spellings is decoded** to the characters it spells. -/
theorem jsDecode_of_spells {s : Str} {pieces : List Str} (h : List.Forall₂ JsSpells s pieces) :
    jsDecode pieces.flatten = s :=
  run_flatten (fun _ _ => reads_of_jsSpells) h

/-- A line feed, `a`, `é`, `é` and a quote. -/
theorem jsDecode_mixed :
    jsDecode "\\na\\xE9\\u00e9\\'".toList = ['\n', 'a', 'é', 'é', '\''] := by
  have hspells : List.Forall₂ JsSpells ['\n', 'a', 'é', 'é', '\'']
      ["\\n".toList, "a".toList, "\\xE9".toList, "\\u00e9".toList, "\\'".toList] :=
    .cons .lineFeed (.cons (.literal _ (by decide) (by decide))
      (.cons (.short _ 'x' (.inl rfl) _ rfl (by decide))
        (.cons (.long _ 'u' (.inl rfl) _ rfl (by decide))
          (.cons (.itself _ (by decide) (by decide)) .nil))))
  exact jsDecode_of_spells hspells

/-! ### Undoing the escape -/

/-- Where four digits are enough, the escape is a spelling. -/
theorem jsSpells_escape {c : Char} (hplain : c ≠ '\\') (h : c.toNat ≤ 0xFFFF) :
    JsSpells c (utf8ToUnicodeEscape [c]) := by
  rw [utf8ToUnicodeEscape, List.flatMap_singleton]
  by_cases hascii : c.toNat < 0x80
  · rw [if_pos hascii]
    exact .literal c hascii hplain
  · rw [if_neg hascii]
    have hlen : (Nat.toDigits 16 c.toNat).length ≤ 4 :=
      (Nat.length_toDigits_le_iff (by decide) (by decide)).mpr (by omega)
    have hvalue := parseDigits_toDigits c.toNat
    revert hvalue
    generalize hdigits : (Nat.toDigits 16 c.toNat).map Char.toUpper = digits
    intro hvalue
    have hlen' : digits.length = (Nat.toDigits 16 c.toNat).length := by
      rw [← hdigits, List.length_map]
    have hne : digits ≠ [] := by
      rw [← hdigits]
      exact mt List.map_eq_nil_iff.mp Nat.toDigits_ne_nil
    refine JsSpells.long c 'u' (.inl rfl) (List.replicate (4 - digits.length) '0' ++ digits) ?_ ?_
    · rw [List.length_append, List.length_replicate]
      omega
    · refine parseNat_eq_some_iff.mpr ⟨List.append_ne_nil_of_right_ne_nil _ hne, ?_⟩
      rw [parseDigits_append, parseDigits_zeros, Option.bind_some, hvalue]

theorem toNat_byteChar_le (b : UInt8) : (byteChar b).toNat ≤ 0xFFFF := by
  have := b.toNat_lt
  rw [toNat_byteChar]
  omega

/-- A long escape makes no character above `0xFFFF`, and neither does a byte. -/
theorem toNat_le_of_mem_jsEscape {b e : UInt8} {rest : Bytes} :
    ∀ c ∈ (jsEscape b e rest).1, c.toNat ≤ 0xFFFF := by
  have hone : ∀ x : Char, x.toNat ≤ 0xFFFF → ∀ c ∈ [x], c.toNat ≤ 0xFFFF := by
    intro x hx c hc
    rwa [List.mem_singleton.mp hc]
  have hbyte : ∀ v : UInt8, ∀ c ∈ [byteChar v], c.toNat ≤ 0xFFFF :=
    fun v => hone _ (toNat_byteChar_le v)
  rw [jsEscape]
  split
  · split
    · next x hx =>
      obtain ⟨n, hn, hchar⟩ := Option.bind_eq_some_iff.mp hx
      refine hone x ?_
      rw [toNat_of_charFromU32 hchar]
      exact Nat.le_of_lt_succ (hex4_lt hn)
    · exact hbyte b
  · split
    · split
      · exact hbyte _
      · exact hbyte b
    · split_ifs
      · exact hone '\n' (by decide)
      · exact hone '\r' (by decide)
      · exact hone '\t' (by decide)
      · exact hbyte e

/-- Nothing above `0xFFFF` comes out of the decoder. -/
theorem toNat_le_of_mem_jsDecode (t : Str) : ∀ c ∈ jsDecode t, c.toNat ≤ 0xFFFF := by
  refine Scanner.forall_mem_run _ (fun b l c hc => ?_) _
  have hbyte := toNat_byteChar_le b
  cases l with
  | nil => rwa [List.mem_singleton.mp hc]
  | cons e rest =>
    by_cases hb : b = byte '\\'
    · rw [hb, jsStep_backslash] at hc
      exact toNat_le_of_mem_jsEscape c hc
    · simp only [jsScanner, if_neg hb] at hc
      rwa [List.mem_singleton.mp hc]

/-- **Exactly when the decoder undoes the escape** of a text without backslashes: when four digits
are enough for every character. -/
theorem jsDecode_utf8ToUnicodeEscape_iff {s : Str} (hplain : '\\' ∉ s) :
    jsDecode (utf8ToUnicodeEscape s) = s ↔ ∀ c ∈ s, c.toNat ≤ 0xFFFF := by
  constructor
  · intro h c hc
    rw [← h] at hc
    exact toNat_le_of_mem_jsDecode _ c hc
  · intro h
    have hpieces : utf8ToUnicodeEscape s =
        (s.map fun c => utf8ToUnicodeEscape [c]).flatten := by
      simp only [utf8ToUnicodeEscape, List.flatMap_singleton]
      rfl
    rw [hpieces]
    refine run_flatten (fun _ _ => reads_of_jsSpells)
      (List.forall₂_map_right_iff.mpr (List.forall₂_same.mpr ?_))
    exact fun c hc => jsSpells_escape (ne_of_mem_of_not_mem hc hplain) (h c hc)

/-- `é` comes back. -/
theorem jsDecode_utf8ToUnicodeEscape_accent : jsDecode (utf8ToUnicodeEscape ['é']) = ['é'] := by
  refine (jsDecode_utf8ToUnicodeEscape_iff (by decide)).mpr fun c hc => ?_
  rw [List.mem_singleton.mp hc]
  decide

/-- `U+1F600` is written with five digits, and comes back as `U+1F60` and a zero. -/
theorem smiley_not_undone :
    ¬ ∀ s : Str, '\\' ∉ s → jsDecode (utf8ToUnicodeEscape s) = s := by
  intro h
  have hdecoded : jsDecode (utf8ToUnicodeEscape ['😀']) = ['\u1F60', '0'] := by decide
  have hundone := h ['😀'] (by decide)
  rw [hdecoded] at hundone
  exact absurd hundone (by decide)

end Crs

end Fywaf
