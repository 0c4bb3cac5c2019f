import Fywaf.Crs.Spellings

/-!
# CSS escapes in a mixture

A character may be written as itself or as a backslash and up to six hex digits, and each character
of a text in its own way. How far an escape reaches depends on what comes next: it takes every
digit there is, up to six, and a space behind them. So a space is written behind the digits, unless
the escape ends without one.

## Main definitions

* `Crs.EscapeEnds` — an escape ends in front of the text by itself
* `Crs.CssEncodes` — the ways to write a text

## Main results

* `Crs.cssEscape_of_digits` — how far an escape reaches
* `Crs.cssDecode_of_encodes` — a text in any mixture of spellings is decoded
-/

namespace Fywaf

namespace Crs

/-- Behind `len` digits an escape ends in front of the text: there is no space, and, if another
digit would be taken, no digit. -/
def EscapeEnds (len : ℕ) (t : Str) : Prop :=
  ∀ c ∈ t.head?, c ≠ ' ' ∧ (len < 6 → toDigit 16 c = none)

/-- The ways to write a text: each character as the ASCII character it is, unless that is a
backslash, or as a backslash and up to six hex digits, with a space behind them or none. -/
inductive CssEncodes : Str → Str → Prop
  | nil : CssEncodes [] []
  | literal {s t : Str} (c : Char) (hascii : c.toNat < 0x80) (hplain : c ≠ '\\')
    (rest : CssEncodes s t) : CssEncodes (c :: s) (c :: t)
  | spaced {s t : Str} (c : Char) (digits : Str) (hlen : digits.length ≤ 6)
    (hvalue : parseNat 16 digits = some c.toNat) (rest : CssEncodes s t) :
    CssEncodes (c :: s) ('\\' :: (digits ++ ' ' :: t))
  | bare {s t : Str} (c : Char) (digits : Str) (hlen : digits.length ≤ 6)
    (hvalue : parseNat 16 digits = some c.toNat) (hend : EscapeEnds digits.length t)
    (rest : CssEncodes s t) : CssEncodes (c :: s) ('\\' :: (digits ++ t))

/-- Everything written is ASCII. -/
theorem CssEncodes.isAscii {s t : Str} (h : CssEncodes s t) : IsAscii t := by
  induction h with
  | nil => exact fun c hc => by cases hc
  | literal c hascii hplain rest ih => exact List.forall_mem_cons.mpr ⟨hascii, ih⟩
  | spaced c digits hlen hvalue rest ih =>
    refine List.forall_mem_cons.mpr ⟨by decide, List.forall_mem_append.mpr ?_⟩
    exact ⟨ascii_of_parseNat hvalue, List.forall_mem_cons.mpr ⟨by decide, ih⟩⟩
  | bare c digits hlen hvalue hend rest ih =>
    refine List.forall_mem_cons.mpr ⟨by decide, List.forall_mem_append.mpr ?_⟩
    exact ⟨ascii_of_parseNat hvalue, ih⟩

/-! ### How far an escape reaches -/

section Escape

variable {c : Char} {digits : Str} {tail : Bytes}

/-- The digits of an escape are taken, and no more. -/
theorem takeWhile_digits (hlen : digits.length ≤ 6)
    (hdigits : ∀ d ∈ digits, ∃ n, toDigit 16 d = some n)
    (hend : digits.length < 6 → ∀ b ∈ tail.head?, hexDigit b = none) :
    ((digits.map byte ++ tail).take 6).takeWhile (fun b => (hexDigit b).isSome) =
      digits.map byte := by
  have htake : (digits.map byte ++ tail).take 6 =
      digits.map byte ++ tail.take (6 - digits.length) := by
    rw [List.take_append, List.length_map, List.take_of_length_le (by rwa [List.length_map])]
  have hall : ∀ b ∈ digits.map byte, (hexDigit b).isSome = true := by
    intro b hb
    obtain ⟨d, hd, rfl⟩ := List.mem_map.mp hb
    obtain ⟨n, hn⟩ := hdigits d hd
    rw [hexDigit_byte (toDigit_bounds hn).1, hn]
    rfl
  have hstop : (tail.take (6 - digits.length)).takeWhile (fun b => (hexDigit b).isSome) = [] := by
    cases hnext : tail.take (6 - digits.length) with
    | nil => rfl
    | cons b bs =>
      have hhead : b ∈ (tail.take (6 - digits.length)).head? := by rw [hnext]; rfl
      rw [List.head?_take] at hhead
      have hnone : hexDigit b = none := by
        split at hhead
        · cases hhead
        · exact hend (by omega) b hhead
      rw [List.takeWhile_cons_of_neg (by simp [hnone])]
  rw [htake, List.takeWhile_append_of_pos hall, hstop, List.append_nil]

/-- The text an escape is read from is its digits and perhaps a space. -/
theorem exists_blank (hlen : digits.length ≤ 6) (n : ℕ)
    (hn : n = digits.length ∨ (n = digits.length + 1 ∧ tail.head? = some (byte ' '))) :
    ∃ blank : Str, (∀ d ∈ blank, isWhitespace d = true) ∧
      ((digits.map byte ++ tail).take n).take 6 = digits.map byte ++ asBytes blank := by
  rcases hn with rfl | ⟨rfl, hspace⟩
  · refine ⟨[], List.forall_mem_nil _, ?_⟩
    rw [List.take_left' (List.length_map _), List.take_of_length_le (by rwa [List.length_map]),
      asBytes_nil, List.append_nil]
  · obtain ⟨bs, rfl⟩ : ∃ bs, tail = byte ' ' :: bs := List.head?_eq_some_iff.mp hspace
    have htake : (digits.map byte ++ byte ' ' :: bs).take (digits.length + 1) =
        digits.map byte ++ [byte ' '] := by
      rw [List.take_append, List.length_map, Nat.add_sub_cancel_left,
        List.take_of_length_le (by rw [List.length_map]; omega)]
      rfl
    rw [htake]
    by_cases hsix : digits.length = 6
    · refine ⟨[], List.forall_mem_nil _, ?_⟩
      rw [List.take_left' (by rw [List.length_map, hsix]), asBytes_nil, List.append_nil]
    · refine ⟨[' '], by simp [isWhitespace], ?_⟩
      rw [List.take_of_length_le]
      · rfl
      · rw [List.length_append, List.length_map, List.length_singleton]
        omega

/-- **How far an escape reaches**: over its digits and one space. -/
theorem cssEscape_of_digits (hlen : digits.length ≤ 6) (hvalue : parseNat 16 digits = some c.toNat)
    (hend : digits.length < 6 → ∀ b ∈ tail.head?, hexDigit b = none) :
    cssEscape (digits.map byte ++ tail) =
      some (c, if tail.head? = some (byte ' ') then tail.tail else tail) := by
  have hdigits := exists_digit_of_parseNat hvalue
  have hne : digits.map byte ≠ [] := mt List.map_eq_nil_iff.mp (parseNat_eq_some_iff.mp hvalue).1
  have hlt : c.toNat < 2 ^ 32 := (toNat_lt c).trans (by decide)
  have hdrop : (digits.map byte ++ tail).drop digits.length = tail :=
    List.drop_left' (List.length_map _)
  -- whether or not the space is taken, the number is read from the digits
  have hread : ∀ n, n = digits.length ∨
      (n = digits.length + 1 ∧ tail.head? = some (byte ' ')) → ∀ rest : Bytes,
      ((fromUtf8 (((digits.map byte ++ tail).take n).take 6)).bind fun text =>
        ((fromStrRadix 16 32 (trimEndMatches isWhitespace text)).bind charFromU32).map
          fun c => (c, rest)) = some (c, rest) := by
    intro n hn rest
    obtain ⟨blank, hblank, htext⟩ := exists_blank hlen n hn
    have hclean : ∀ d ∈ digits, isWhitespace d = false := by
      intro d hd
      obtain ⟨n, hn⟩ := hdigits d hd
      exact isWhitespace_of_toDigit hn
    rw [htext, ← asBytes_of_isAscii (ascii_of_parseNat hvalue), ← asBytes_append,
      fromUtf8_asBytes, Option.bind_some, trimEndMatches_append_blank hblank,
      trimEndMatches_of_forall hclean, fromStrRadix_of_parseNat hvalue hlt, Option.bind_some,
      charFromU32_toNat, Option.map_some]
  rw [cssEscape]
  simp only [takeWhile_digits hlen hdigits hend, if_neg hne, List.length_map, hdrop]
  by_cases hspace : tail.head? = some (byte ' ')
  · have htail : (digits.map byte ++ tail).drop (digits.length + 1) = tail.tail := by
      rw [← List.drop_drop, hdrop, List.drop_one]
    simp only [if_pos hspace, htail]
    exact hread _ (Or.inr ⟨rfl, hspace⟩) _
  · simp only [if_neg hspace, hdrop]
    exact hread _ (Or.inl rfl) _

end Escape

/-- One step of the decoder behind a backslash. -/
theorem cssStep_of_escape {l rest : Bytes} {c : Char} (h : cssEscape l = some (c, rest)) :
    cssScanner.step (byte '\\') l = ([c], rest) := by
  have hne : l ≠ [] := by
    rintro rfl
    cases h
  have hcond : byte '\\' = byte '\\' ∧ l ≠ [] := ⟨rfl, hne⟩
  have hstep : cssScanner.step (byte '\\') l = emitOr (byte '\\') l
      (if byte '\\' = byte '\\' ∧ l ≠ [] then cssEscape l else none) := rfl
  rw [hstep, if_pos hcond, h, emitOr]

/-- **A text in any mixture of spellings is decoded** to the characters it spells. -/
theorem cssDecode_of_encodes {s t : Str} (h : CssEncodes s t) : cssDecode t = s := by
  rw [cssDecode]
  induction h with
  | nil => rfl
  | literal c hascii hplain rest ih =>
    have hne : byte c ≠ byte '\\' := mt (byte_eq_byte_iff hascii (by decide)).mp hplain
    rw [asBytes_cons_ascii hascii, Scanner.run_cons]
    simp only [cssScanner, hne, false_and, if_false, emitOr] at ih ⊢
    rw [ih, byteChar_byte hascii, List.singleton_append]
  | @spaced s t c digits hlen hvalue rest ih =>
    have hend : digits.length < 6 → ∀ b ∈ (byte ' ' :: asBytes t).head?, hexDigit b = none := by
      intro _ b hb
      rw [← Option.some.inj hb]
      decide
    rw [asBytes_cons_ascii (by decide), asBytes_append, asBytes_cons_ascii (by decide),
      asBytes_of_isAscii (ascii_of_parseNat hvalue), Scanner.run_cons,
      cssStep_of_escape (cssEscape_of_digits hlen hvalue hend)]
    simp only [List.head?_cons, if_true, List.tail_cons, ih, List.singleton_append]
  | @bare s t c digits hlen hvalue hend rest ih =>
    have hhead : ∀ b ∈ (asBytes t).head?, ∃ d ∈ t.head?, b = byte d ∧ d.toNat < 0x80 := by
      rw [asBytes_of_isAscii rest.isAscii, List.head?_map]
      intro b hb
      obtain ⟨d, hd, rfl⟩ := Option.map_eq_some_iff.mp hb
      exact ⟨d, hd, rfl, rest.isAscii d (List.mem_of_mem_head? hd)⟩
    have hdigit : digits.length < 6 → ∀ b ∈ (asBytes t).head?, hexDigit b = none := by
      intro hlt b hb
      obtain ⟨d, hd, rfl, hascii⟩ := hhead b hb
      rw [hexDigit_byte hascii]
      exact (hend d hd).2 hlt
    have hspace : (asBytes t).head? ≠ some (byte ' ') := by
      intro h
      obtain ⟨d, hd, heq, hascii⟩ := hhead _ h
      exact (hend d hd).1 ((byte_eq_byte_iff (by decide) hascii).mp heq).symm
    rw [asBytes_cons_ascii (by decide), asBytes_append,
      asBytes_of_isAscii (ascii_of_parseNat hvalue), Scanner.run_cons,
      cssStep_of_escape (cssEscape_of_digits hlen hvalue hdigit), if_neg hspace]
    simp only [ih, List.singleton_append]

/-- `é` before a digit, `a` before a space, and a backslash at the end. -/
theorem cssDecode_mixed : cssDecode "\\E9 1\\000061 \\5c".toList = "é1a\\".toList := by
  have hencodes : CssEncodes "é1a\\".toList "\\E9 1\\000061 \\5c".toList :=
    .spaced 'é' "E9".toList (by decide) (by decide) (.literal '1' (by decide) (by decide)
      (.spaced 'a' "000061".toList (by decide) (by decide)
        (.bare '\\' "5c".toList (by decide) (by decide) (fun c hc => by cases hc) .nil)))
  exact cssDecode_of_encodes hencodes

end Crs

end Fywaf
