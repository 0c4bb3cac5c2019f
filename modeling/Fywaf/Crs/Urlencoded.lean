import Fywaf.Crs.Bytewise
import Fywaf.Crs.Engine

/-!
# Submitted forms

A form is a list of names and values, submitted with every byte as it stands, as an escape, or, if
it is a space, as a plus sign, in any mixture. The engine takes the submission apart again. It
finds every name and every value, but reads their bytes as characters.

## Main definitions

* `Crs.UrlByte`, `Crs.UrlEncodes` — the encodings of a byte and of a byte string
* `Crs.FormEncodes` — the encodings of a form
* `Crs.RecoversForm`

## Main results

* `Crs.urlDecodeSimple_of_encodes` — an encoding is decoded to the bytes, one character each
* `Crs.recoversForm_iff` — exactly when a form is recovered
-/

namespace Fywaf

namespace Crs

/-! ### Encodings -/

/-- The ways to write a byte: as the ASCII character it is, if that has no other meaning; as a
percent sign and two hex digits; and a space as a plus sign. -/
inductive UrlByte : UInt8 → Str → Prop
  | literal (c : Char) (hascii : c.toNat < 0x80) (hplain : c ∉ ['%', '+', '&', '=']) :
    UrlByte (byte c) [c]
  | escape (b : UInt8) (hi lo : Char) (hhi : toDigit 16 hi = some (b.toNat / 16))
    (hlo : toDigit 16 lo = some (b.toNat % 16)) : UrlByte b ['%', hi, lo]
  | plus : UrlByte (byte ' ') ['+']

/-- The ways to write a byte string. -/
inductive UrlEncodes : Bytes → Str → Prop
  | nil : UrlEncodes [] []
  | cons {b : UInt8} {e : Str} {bs : Bytes} {t : Str} (first : UrlByte b e)
    (rest : UrlEncodes bs t) : UrlEncodes (b :: bs) (e ++ t)

/-- One name and its value. -/
def PairEncodes (pair : Str × Str) (part : Str) : Prop :=
  ∃ name value, UrlEncodes (asBytes pair.1) name ∧ UrlEncodes (asBytes pair.2) value ∧
    part = name ++ '=' :: value

/-- The ways to write a form. -/
def FormEncodes (pairs : List (Str × Str)) (q : Str) : Prop :=
  ∃ parts, List.Forall₂ PairEncodes pairs parts ∧ q = ['&'].intercalate parts

/-! ### Decoding an encoding -/

/-- A hex digit is ASCII and no separator. -/
theorem toDigit_eq_some {c : Char} {n : ℕ} (h : toDigit 16 c = some n) :
    c.toNat < 0x80 ∧ c ≠ '&' ∧ c ≠ '=' := by
  have hne : ∀ d : Char, toDigit 16 d = none → c ≠ d := by
    rintro d hd rfl
    rw [hd] at h
    cases h
  exact ⟨(toDigit_bounds h).1, hne '&' (by decide), hne '=' (by decide)⟩

/-- An encoded byte has no separator in it. -/
theorem UrlByte.plain {b : UInt8} {e : Str} (h : UrlByte b e) : '&' ∉ e ∧ '=' ∉ e := by
  cases h with
  | literal c hascii hplain =>
    simp only [List.mem_cons, List.not_mem_nil, or_false, not_or] at hplain
    simp only [List.mem_singleton]
    exact ⟨Ne.symm hplain.2.2.1, Ne.symm hplain.2.2.2⟩
  | escape b hi lo hhi hlo =>
    obtain ⟨-, hhi₁, hhi₂⟩ := toDigit_eq_some hhi
    obtain ⟨-, hlo₁, hlo₂⟩ := toDigit_eq_some hlo
    simp [Ne.symm hhi₁, Ne.symm hhi₂, Ne.symm hlo₁, Ne.symm hlo₂]
  | plus => decide

theorem UrlEncodes.plain {bs : Bytes} {t : Str} (h : UrlEncodes bs t) : '&' ∉ t ∧ '=' ∉ t := by
  induction h with
  | nil => exact ⟨List.not_mem_nil, List.not_mem_nil⟩
  | cons first rest ih =>
    simp only [List.mem_append, not_or]
    exact ⟨⟨first.plain.1, ih.1⟩, first.plain.2, ih.2⟩

/-- The decoder reads an encoded byte in one step. -/
theorem reads_urlByte {b : UInt8} {e : Str} (h : UrlByte b e) :
    urlDecodeScanner.Reads (asBytes e) [byteChar b] := by
  cases h with
  | literal c hascii hplain =>
    simp only [List.mem_cons, List.not_mem_nil, or_false, not_or] at hplain
    have hbyte : ∀ d : Char, d.toNat < 0x80 → c ≠ d → byte c ≠ byte d := fun d hd hne heq =>
      hne (by rw [← byteChar_byte hascii, heq, byteChar_byte hd])
    rw [asBytes_cons_ascii hascii, asBytes_nil]
    refine Scanner.reads_of_step _ fun rest => ?_
    simp only [urlDecodeScanner, if_neg (hbyte '+' (by decide) hplain.2.1),
      if_neg (hbyte '%' (by decide) hplain.1), emitOr, List.nil_append]
  | escape b hi lo hhi hlo =>
    have hhi' := (toDigit_eq_some hhi).1
    have hlo' := (toDigit_eq_some hlo).1
    have hvalue : hex2 (byte hi) (byte lo) = some b := by
      rw [hex2, hexDigit, byteChar_byte hhi', hhi, hexDigit, byteChar_byte hlo', hlo,
        Option.bind_some, Option.map_some, Nat.div_add_mod', UInt8.ofNat_toNat]
    rw [asBytes_cons_ascii (by decide), asBytes_cons_ascii hhi', asBytes_cons_ascii hlo',
      asBytes_nil]
    refine Scanner.reads_of_step _ fun rest => ?_
    simp only [urlDecodeScanner, if_neg (show byte '%' ≠ byte '+' by decide), if_true,
      List.cons_append, List.nil_append, byteEscape, hvalue, Option.map_some, emitOr]
  | plus =>
    rw [asBytes_cons_ascii (by decide), asBytes_nil, byteChar_byte (by decide)]
    refine Scanner.reads_of_step _ fun rest => ?_
    simp only [urlDecodeScanner, if_true, List.nil_append]

/-- **An encoding is decoded to the bytes, one character each.** -/
theorem urlDecodeSimple_of_encodes {bs : Bytes} {t : Str} (h : UrlEncodes bs t) :
    urlDecodeSimple t = bs.map byteChar := by
  rw [urlDecodeSimple]
  induction h with
  | nil => rfl
  | cons first rest ih =>
    rw [asBytes_append, reads_urlByte first, ih, List.map_cons, List.singleton_append]

/-! ### Forms -/

/-- What one part of a submission is to the two readers. -/
theorem splitOnce_part {pair : Str × Str} {part : Str} (h : PairEncodes pair part) :
    part ≠ [] ∧ '&' ∉ part ∧ ∃ name value, splitOnce '=' part = some (name, value) ∧
      urlDecodeSimple name = bytewise pair.1 ∧ urlDecodeSimple value = bytewise pair.2 := by
  obtain ⟨name, value, hname, hvalue, rfl⟩ := h
  refine ⟨List.append_ne_nil_of_right_ne_nil _ (List.cons_ne_nil _ _), ?_, name, value,
    splitOnce_append hname.plain.2 value, urlDecodeSimple_of_encodes hname,
    urlDecodeSimple_of_encodes hvalue⟩
  simp [hname.plain.1, hvalue.plain.1]

/-- The parts of a submission are found again. -/
theorem splitOn_form {pairs : List (Str × Str)} {parts : List Str}
    (h : List.Forall₂ PairEncodes pairs parts) (hne : parts ≠ []) :
    (['&'].intercalate parts).splitOn '&' = parts := by
  refine List.splitOn_intercalate '&' ?_ hne
  clear hne
  induction h with
  | nil => exact fun part hpart => by cases hpart
  | cons hfirst hrest ih => exact List.forall_mem_cons.mpr ⟨(splitOnce_part hfirst).2.1, ih⟩

/-- A reader that takes each part to something of its pair takes the submission to those. -/
theorem filterMap_form {α : Type} {read : Str → Option α} {f : Str × Str → α}
    (hread : ∀ {pair part}, PairEncodes pair part → read part = some (f pair))
    (hnil : read [] = none) {pairs : List (Str × Str)} {q : Str} (h : FormEncodes pairs q) :
    (q.splitOn '&').filterMap read = pairs.map f := by
  obtain ⟨parts, hparts, rfl⟩ := h
  cases hparts with
  | nil => simp [hnil]
  | cons hfirst hrest =>
    rw [splitOn_form (List.Forall₂.cons hfirst hrest) (List.cons_ne_nil _ _), List.map_cons,
      List.filterMap_cons_some (hread hfirst)]
    congr 1
    induction hrest with
    | nil => rfl
    | cons hfirst hrest ih => rw [List.filterMap_cons_some (hread hfirst), ih, List.map_cons]

/-- The values of a submission, byte by byte. -/
theorem parseUrlencodedValues_form {pairs : List (Str × Str)} {q : Str} (h : FormEncodes pairs q) :
    parseUrlencodedValues q = pairs.map fun pair => bytewise pair.2 := by
  refine filterMap_form (fun hpair => ?_) rfl h
  obtain ⟨hne, -, name, value, hsplit, -, hvalue⟩ := splitOnce_part hpair
  simp only [if_neg hne, hsplit, hvalue]

/-- The names of a submission, byte by byte. -/
theorem parseUrlencodedNames_form {pairs : List (Str × Str)} {q : Str} (h : FormEncodes pairs q) :
    parseUrlencodedNames q = pairs.map fun pair => bytewise pair.1 := by
  refine filterMap_form (fun hpair => ?_) rfl h
  obtain ⟨hne, -, name, value, hsplit, hname, -⟩ := splitOnce_part hpair
  simp only [if_neg hne, hsplit, hname]

/-- The values and the names of the form are read from the submission, in order. -/
def RecoversForm (pairs : List (Str × Str)) (q : Str) : Prop :=
  parseUrlencodedValues q = pairs.map Prod.snd ∧ parseUrlencodedNames q = pairs.map Prod.fst

/-- **Exactly when a form is recovered**: when it is ASCII. -/
theorem recoversForm_iff {pairs : List (Str × Str)} {q : Str} (h : FormEncodes pairs q) :
    RecoversForm pairs q ↔ ∀ pair ∈ pairs, IsAscii pair.1 ∧ IsAscii pair.2 := by
  rw [RecoversForm, parseUrlencodedValues_form h, parseUrlencodedNames_form h, List.map_inj_left,
    List.map_inj_left]
  simp only [bytewise_eq_self_iff]
  exact ⟨fun h pair hpair => ⟨h.2 pair hpair, h.1 pair hpair⟩,
    fun h => ⟨fun pair hpair => (h pair hpair).2, fun pair hpair => (h pair hpair).1⟩⟩

theorem urlEncodes_singleton {b : UInt8} {e : Str} (h : UrlByte b e) : UrlEncodes [b] e := by
  rw [← List.append_nil e]
  exact UrlEncodes.cons h UrlEncodes.nil

/-- The form with the value `+` for the name `a`. -/
theorem formEncodes_plus : FormEncodes [(['a'], ['+'])] "a=%2b".toList := by
  have hname : UrlEncodes (asBytes ['a']) ['a'] :=
    urlEncodes_singleton (UrlByte.literal 'a' (by decide) (by decide))
  have hvalue : UrlEncodes (asBytes ['+']) "%2b".toList :=
    urlEncodes_singleton (UrlByte.escape (byte '+') '2' 'b' (by decide) (by decide))
  exact ⟨_, List.Forall₂.cons ⟨_, _, hname, hvalue, rfl⟩ List.Forall₂.nil, by decide⟩

/-- It is recovered. -/
theorem recoversForm_plus : RecoversForm [(['a'], ['+'])] "a=%2b".toList := by
  apply (recoversForm_iff formEncodes_plus).mpr
  intro pair hpair
  rw [List.mem_singleton.mp hpair]
  exact ⟨by decide, by decide⟩

/-- The form with the value `é` for the name `a` is not. -/
theorem accent_not_recovered : ¬ ∀ pairs q, FormEncodes pairs q → RecoversForm pairs q := by
  intro h
  have hname : UrlEncodes (asBytes ['a']) ['a'] :=
    urlEncodes_singleton (UrlByte.literal 'a' (by decide) (by decide))
  have hvalue : UrlEncodes (asBytes ['é']) "%C3%A9".toList :=
    UrlEncodes.cons (UrlByte.escape 0xC3 'C' '3' (by decide) (by decide))
      (urlEncodes_singleton (UrlByte.escape 0xA9 'A' '9' (by decide) (by decide)))
  have hform : FormEncodes [(['a'], ['é'])] "a=%C3%A9".toList :=
    ⟨_, List.Forall₂.cons ⟨_, _, hname, hvalue, rfl⟩ List.Forall₂.nil, by decide⟩
  have hvalues := (h _ _ hform).1
  rw [parseUrlencodedValues_form hform] at hvalues
  exact absurd hvalues (by decide)

end Crs

end Fywaf
