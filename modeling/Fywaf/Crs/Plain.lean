import Fywaf.Crs.Bytewise
import Fywaf.Crs.Engine

/-!
# Texts without escapes

A decoder has nothing to do where its escape sign does not occur. The decoders that walk over
bytes still take the text apart there, and push each byte as a character: of the texts without
escapes they leave exactly the ASCII ones alone. `htmlEntityDecode` walks over characters and
leaves all of them alone.

## Main definitions

* `Crs.LeavesAlone` — no decoder changes a text that has none of its escape signs

## Main results

* `Crs.urlDecodeUni_of_plain`, `Crs.jsDecode_of_plain`, `Crs.cssDecode_of_plain`,
  `Crs.urlDecodeSimple_of_plain` — without escapes a text is read byte by byte
* `Crs.htmlEntityDecode_of_plain` — or character by character
* `Crs.leavesAlone_iff` — exactly when a text is left alone
-/

namespace Fywaf

namespace Crs

variable {s : Str}

/-- An ASCII byte stands where its character does. -/
theorem byte_mem_asBytes_iff {c : Char} (hc : c.toNat < 0x80) : byte c ∈ asBytes s ↔ c ∈ s := by
  rw [asBytes, List.mem_flatMap]
  constructor
  · rintro ⟨d, hd, hmem⟩
    rwa [(ascii_mem_encode_iff hc).mp hmem]
  · intro h
    exact ⟨c, h, (ascii_mem_encode_iff hc).mpr rfl⟩

/-- A byte of a text that lacks the character is another byte. -/
theorem ne_byte_of_mem {c : Char} (hc : c.toNat < 0x80) (h : c ∉ s) {b : UInt8}
    (hb : b ∈ asBytes s) : b ≠ byte c := by
  rintro rfl
  exact h ((byte_mem_asBytes_iff hc).mp hb)

/-! ### One decoder at a time -/

theorem urlDecodeUni_of_plain (h : '%' ∉ s) : urlDecodeUni s = bytewise s := by
  refine Scanner.run_eq_map _ fun b hb rest => ?_
  simp only [urlScanner, if_neg (ne_byte_of_mem (by decide) h hb), emitOr]

theorem jsDecode_of_plain (h : '\\' ∉ s) : jsDecode s = bytewise s := by
  refine Scanner.run_eq_map _ fun b hb rest => ?_
  cases rest with
  | nil => rfl
  | cons e rest => simp only [jsScanner, if_neg (ne_byte_of_mem (by decide) h hb)]

theorem cssDecode_of_plain (h : '\\' ∉ s) : cssDecode s = bytewise s := by
  refine Scanner.run_eq_map _ fun b hb rest => ?_
  have hb' := ne_byte_of_mem (by decide) h hb
  simp only [cssScanner, hb', false_and, if_false, emitOr]

theorem urlDecodeSimple_of_plain (hpercent : '%' ∉ s) (hplus : '+' ∉ s) :
    urlDecodeSimple s = bytewise s := by
  refine Scanner.run_eq_map _ fun b hb rest => ?_
  simp only [urlDecodeScanner, if_neg (ne_byte_of_mem (by decide) hpercent hb),
    if_neg (ne_byte_of_mem (by decide) hplus hb), emitOr]

theorem htmlEntityDecode_of_plain (h : '&' ∉ s) : htmlEntityDecode s = s := by
  have hstep : ∀ c ∈ s, ∀ rest, entityScanner.step c rest = ([id c], rest) := by
    intro c hc rest
    have hne : c ≠ '&' := ne_of_mem_of_not_mem hc h
    simp only [entityScanner, if_neg hne, id]
  rw [htmlEntityDecode, Scanner.run_eq_map _ hstep, List.map_id]

/-! ### All of them -/

/-- No decoder changes the text, if the text has none of its escape signs. -/
structure LeavesAlone (s : Str) : Prop where
  urlDecodeUni : '%' ∉ s → urlDecodeUni s = s
  jsDecode : '\\' ∉ s → jsDecode s = s
  cssDecode : '\\' ∉ s → cssDecode s = s
  htmlEntityDecode : '&' ∉ s → htmlEntityDecode s = s
  urlDecodeSimple : '%' ∉ s → '+' ∉ s → urlDecodeSimple s = s

/-- **Exactly when a text is left alone**: when it is ASCII, or has the escape signs of every
decoder that walks over bytes. -/
theorem leavesAlone_iff : LeavesAlone s ↔ IsAscii s ∨ ('%' ∈ s ∧ '\\' ∈ s) := by
  constructor
  · intro h
    by_cases hpercent : '%' ∈ s
    · by_cases hslash : '\\' ∈ s
      · exact Or.inr ⟨hpercent, hslash⟩
      · have hjs := h.jsDecode hslash
        rw [jsDecode_of_plain hslash] at hjs
        exact Or.inl (bytewise_eq_self_iff.mp hjs)
    · have hurl := h.urlDecodeUni hpercent
      rw [urlDecodeUni_of_plain hpercent] at hurl
      exact Or.inl (bytewise_eq_self_iff.mp hurl)
  · rintro (hascii | ⟨hpercent, hslash⟩)
    · have hbytes := bytewise_eq_self_iff.mpr hascii
      exact ⟨fun h => (urlDecodeUni_of_plain h).trans hbytes,
        fun h => (jsDecode_of_plain h).trans hbytes,
        fun h => (cssDecode_of_plain h).trans hbytes, htmlEntityDecode_of_plain,
        fun h h' => (urlDecodeSimple_of_plain h h').trans hbytes⟩
    · exact ⟨fun h => absurd hpercent h, fun h => absurd hslash h, fun h => absurd hslash h,
        htmlEntityDecode_of_plain, fun h => absurd hpercent h⟩

/-- `é` has no escapes, and is not left alone. -/
theorem accent_not_left_alone : ¬ ∀ s, LeavesAlone s := by
  intro h
  exact absurd ((h ['é']).urlDecodeUni (by decide)) (by decide)

end Crs

end Fywaf
