import Fywaf.Crs.Spellings

/-!
# Percent encodings in a mixture

A character may be written as itself, as `%XX` or as `%uXXXX`, and each character of a text in its
own way. `urlDecodeUni` reads every such text as the characters it spells.

## Main definitions

* `Crs.PercentSpells` — the ways to write a character

## Main results

* `Crs.urlDecodeUni_of_spells` — a text in any mixture of spellings is decoded
-/

namespace Fywaf

namespace Crs

/-- The ways to write a character: as the ASCII character it is, unless that is a percent sign; as
a percent sign and two hex digits; and as a percent sign, a `u` and four hex digits. -/
inductive PercentSpells (c : Char) : Str → Prop
  | literal (hascii : c.toNat < 0x80) (hplain : c ≠ '%') : PercentSpells c [c]
  | short (digits : Str) (hlen : digits.length = 2) (hvalue : parseNat 16 digits = some c.toNat) :
    PercentSpells c ('%' :: digits)
  | long (u : Char) (hu : u = 'u' ∨ u = 'U') (digits : Str) (hlen : digits.length = 4)
    (hvalue : parseNat 16 digits = some c.toNat) : PercentSpells c ('%' :: u :: digits)

/-- Two digits behind the percent sign are no long escape. -/
theorem uniEscape_eq_none {a : UInt8} {d : ℕ} (h : hexDigit a = some d) (l : Bytes) :
    uniEscape (a :: l) = none := by
  have hne : ¬ (a = byte 'u' ∨ a = byte 'U') := by
    rintro (rfl | rfl) <;> cases h
  unfold uniEscape
  split
  · next heq =>
    obtain ⟨rfl, -⟩ := List.cons.inj heq
    rw [if_neg hne]
  · rfl

/-- **Each spelling is read whole**, whatever follows it. -/
theorem reads_of_percentSpells {c : Char} {piece : Str} (h : PercentSpells c piece) :
    urlScanner.Reads (asBytes piece) [c] := by
  cases h with
  | literal hascii hplain =>
    have hne : byte c ≠ byte '%' := mt (byte_eq_byte_iff hascii (by decide)).mp hplain
    rw [asBytes_cons_ascii hascii, asBytes_nil]
    refine Scanner.reads_of_step _ fun rest => ?_
    simp only [urlScanner, if_neg hne, emitOr, byteChar_byte hascii, List.nil_append]
  | short digits hlen hvalue =>
    obtain ⟨a, b, hbytes, hhex, hlt⟩ := hex2_of_parseNat hlen hvalue
    obtain ⟨d, hd, -⟩ := Option.bind_eq_some_iff.mp hhex
    rw [asBytes_cons_ascii (by decide), hbytes]
    refine Scanner.reads_of_step _ fun rest => ?_
    simp only [urlScanner, if_true, List.cons_append, List.nil_append, uniEscape_eq_none hd,
      Option.none_or, byteEscape, hhex, Option.map_some, emitOr, byteChar_ofNat hlt]
  | long u hu digits hlen hvalue =>
    obtain ⟨w, x, y, z, hbytes, hhex⟩ := hex4_of_parseNat hlen hvalue
    have hascii : u.toNat < 0x80 := by rcases hu with rfl | rfl <;> decide
    have hu' : byte u = byte 'u' ∨ byte u = byte 'U' :=
      hu.imp (congrArg byte) (congrArg byte)
    rw [asBytes_cons_ascii (by decide), asBytes_cons_ascii hascii, hbytes]
    refine Scanner.reads_of_step _ fun rest => ?_
    simp only [urlScanner, if_true, List.cons_append, List.nil_append, uniEscape, if_pos hu', hhex,
      Option.bind_some, charFromU32_toNat, Option.map_some, Option.some_or, emitOr]

/-- **A text in any mixture of spellings is decoded** to the characters it spells. -/
theorem urlDecodeUni_of_spells {s : Str} {pieces : List Str}
    (h : List.Forall₂ PercentSpells s pieces) : urlDecodeUni pieces.flatten = s :=
  run_flatten (fun _ _ => reads_of_percentSpells) h

/-- `<1%é`, with a digit that is none of an escape. -/
theorem urlDecodeUni_mixed : urlDecodeUni "%3c1%25%U00e9".toList = "<1%é".toList := by
  have hspells : List.Forall₂ PercentSpells "<1%é".toList
      ["%3c".toList, "1".toList, "%25".toList, "%U00e9".toList] :=
    .cons (.short _ rfl (by decide)) (.cons (.literal (by decide) (by decide))
      (.cons (.short _ rfl (by decide)) (.cons (.long 'U' (.inr rfl) _ rfl (by decide)) .nil)))
  exact urlDecodeUni_of_spells hspells

end Crs

end Fywaf
