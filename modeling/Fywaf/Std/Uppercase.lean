import Fywaf.Std.Slices
import Fywaf.Std.Unicode

/-!
# Texts whose upper case is ASCII

A text whose upper case starts with an ASCII word need not start with that word in some case: a
few characters outside ASCII have ASCII letters as their upper case. Of the letters of most words
only `S` is one of these. So a word is read off the upper case letter by letter, and at an `S` the
text is either that letter, or the long s, or the first character of a ligature.

## Main definitions

* `IsPlainLetter` — a letter that only ASCII letters have as their upper case

## Main results

* `prefix_toUppercase_plain` — a word of plain letters is read in ASCII
* `prefix_toUppercase_s` — what is read as an `S`
* `toUppercase_map_toUpper`, `utf8Size_toUpper` — upper case of ASCII letters comes first
-/

namespace Fywaf

variable {c u v : Char} {s us w : Str}

/-! ### ASCII letters -/

/-- The upper case of an ASCII letter as arithmetic on the scalar value. -/
theorem toNat_toUpper (c : Char) :
    c.toUpper.toNat = if 97 ≤ c.toNat ∧ c.toNat ≤ 122 then c.toNat - 32 else c.toNat := by
  have ha : ('a'.val : UInt32).toNat = 97 := rfl
  have hz : ('z'.val : UInt32).toNat = 122 := rfl
  have hiff : ('a'.val ≤ c.val ∧ c.val ≤ 'z'.val) ↔ (97 ≤ c.toNat ∧ c.toNat ≤ 122) := by
    rw [UInt32.le_iff_toNat_le, UInt32.le_iff_toNat_le, ha, hz]
    rfl
  unfold Char.toUpper
  by_cases h : 'a'.val ≤ c.val ∧ c.val ≤ 'z'.val
  · rw [dif_pos h, if_pos (hiff.mp h)]
    have hn := hiff.mp h
    have hv : c.val.toNat = c.toNat := rfl
    change (c.val + ('A'.val - 'a'.val)).toNat = _
    rw [UInt32.toNat_add, hv, show ('A'.val - 'a'.val : UInt32).toNat = 2 ^ 32 - 32 from rfl]
    omega
  · rw [dif_neg h, if_neg (fun hc => h (hiff.mpr hc))]

theorem toUpper_of_not_ascii (h : ¬ c.toNat < 0x80) : c.toUpper = c := by
  refine char_ext_toNat ?_
  rw [toNat_toUpper, if_neg (by omega)]

theorem toUpper_ascii (h : c.toNat < 0x80) : c.toUpper.toNat < 0x80 := by
  rw [toNat_toUpper]
  split <;> omega

theorem utf8Size_toUpper (c : Char) : c.toUpper.utf8Size = c.utf8Size := by
  by_cases h : c.toNat < 0x80
  · rw [← String.length_utf8EncodeChar, ← String.length_utf8EncodeChar, encode_ascii h,
      encode_ascii (toUpper_ascii h)]
    rfl
  · rw [toUpper_of_not_ascii h]

theorem charToUppercase_toUpper (c : Char) : charToUppercase c.toUpper = charToUppercase c := by
  by_cases h : c.toNat < 0x80
  · have htwice : c.toUpper.toUpper = c.toUpper := by
      refine char_ext_toNat ?_
      rw [toNat_toUpper c.toUpper, toNat_toUpper]
      split_ifs <;> omega
    rw [charToUppercase, if_pos (toUpper_ascii h), htwice, charToUppercase, if_pos h]
  · rw [toUpper_of_not_ascii h]

/-- **The upper case of ASCII letters comes first.** -/
theorem toUppercase_map_toUpper (s : Str) : toUppercase (s.map Char.toUpper) = toUppercase s := by
  rw [toUppercase, List.flatMap_map]
  exact List.flatMap_congr fun c _ => charToUppercase_toUpper c

theorem toUppercase_append (s t : Str) : toUppercase (s ++ t) = toUppercase s ++ toUppercase t :=
  List.flatMap_append

/-! ### Upper case in ASCII -/

theorem mem_of_lookup {table : List (ℕ × List ℕ)} {n : ℕ} {image : List ℕ}
    (h : table.lookup n = some image) : (n, image) ∈ table := by
  obtain ⟨before, behind, rfl, -⟩ := List.lookup_eq_some_iff.mp h
  exact List.mem_append_right _ List.mem_cons_self

theorem toNat_ofNat_cases (n : ℕ) : (Char.ofNat n).toNat = n ∨ (Char.ofNat n).toNat = 0 := by
  unfold Char.ofNat
  by_cases h : n.isValidChar
  · exact Or.inl (by rw [dif_pos h]; rfl)
  · exact Or.inr (by rw [dif_neg h]; rfl)

/-- Only two runs reach into ASCII. -/
theorem runImage_ascii {n m : ℕ} (h : runImage upperRuns n = some m) (hm : m < 0x80) :
    (n = 0x131 ∧ m = 0x49) ∨ (n = 0x17F ∧ m = 0x53) := by
  have htable : ∀ r ∈ upperRuns, r.2.2.2 < 0x80 →
      r = (0x131, 0x131, 1, 0x49) ∨ r = (0x17F, 0x17F, 1, 0x53) := by decide +kernel
  rw [runImage] at h
  obtain ⟨⟨first, last, stride, image⟩, hr, hmr⟩ := Option.map_eq_some_iff.mp h
  have hpred := List.find?_some hr
  simp only [Bool.and_eq_true, decide_eq_true_eq] at hpred hmr
  have hsmall : image < 0x80 := by omega
  rcases htable _ (List.mem_of_find?_eq_some hr) hsmall with heq | heq
  all_goals
    simp only [Prod.mk.injEq] at heq
    omega

/-- **The characters whose upper case starts in ASCII**: an ASCII letter, the dotless i, the long
s, or one of the special mappings. -/
theorem charToUppercase_cases (hu : 0 < u.toNat ∧ u.toNat < 0x80)
    (h : charToUppercase c = u :: us) :
    (c.toUpper = u ∧ us = []) ∨ (c = 'ı' ∧ u = 'I' ∧ us = []) ∨ (c = 'ſ' ∧ u = 'S' ∧ us = []) ∨
      ∃ image, (c.toNat, image) ∈ upperSpecial ∧ u :: us = image.map Char.ofNat := by
  rw [charToUppercase] at h
  split at h
  · obtain ⟨hc, hus⟩ := List.cons.inj h
    exact Or.inl ⟨hc, hus.symm⟩
  · next hascii =>
    rw [mapCase] at h
    split at h
    · next image himage =>
      exact Or.inr (Or.inr (Or.inr ⟨image, mem_of_lookup himage, h.symm⟩))
    · split at h
      · next n hn =>
        obtain ⟨rfl, hus⟩ := List.cons.inj h
        rcases toNat_ofNat_cases n with heq | hzero
        · rcases runImage_ascii hn (by omega) with ⟨hc, rfl⟩ | ⟨hc, rfl⟩
          · exact Or.inr (Or.inl ⟨char_ext_toNat hc, rfl, hus.symm⟩)
          · exact Or.inr (Or.inr (Or.inl ⟨char_ext_toNat hc, rfl, hus.symm⟩))
        · omega
      · obtain ⟨rfl, -⟩ := List.cons.inj h
        omega

theorem charToUppercase_ne_nil (c : Char) : charToUppercase c ≠ [] := by
  have htable : ∀ e ∈ upperSpecial, e.2 ≠ [] := by decide
  rw [charToUppercase]
  split
  · exact List.cons_ne_nil _ _
  · rw [mapCase]
    split
    · next image himage =>
      rw [ne_eq, List.map_eq_nil_iff]
      exact htable _ (mem_of_lookup himage)
    · split <;> exact List.cons_ne_nil _ _

/-- The first letter of an upper case is that of the first character. -/
theorem prefix_toUppercase_cons (h : u :: us <+: toUppercase s) :
    ∃ c t image, s = c :: t ∧ charToUppercase c = u :: image ∧ us <+: image ++ toUppercase t := by
  cases s with
  | nil => exact absurd (List.prefix_nil.mp h) (List.cons_ne_nil _ _)
  | cons c t =>
    rw [toUppercase, List.flatMap_cons] at h
    cases himage : charToUppercase c with
    | nil => exact absurd himage (charToUppercase_ne_nil c)
    | cons v image =>
      rw [himage, List.cons_append, List.cons_prefix_cons] at h
      obtain ⟨rfl, h⟩ := h
      exact ⟨c, t, image, rfl, himage, h⟩

/-! ### Reading a word -/

/-- A letter that no character outside ASCII has as its upper case, unless the upper case goes on
outside ASCII. -/
def IsPlainLetter (u : Char) : Prop :=
  (0 < u.toNat ∧ u.toNat < 0x80) ∧ u ≠ 'S' ∧ u ≠ 'I' ∧ u ≠ 'F'

instance : DecidablePred IsPlainLetter := fun _ => inferInstanceAs (Decidable (_ ∧ _))

/-- A plain letter in front of an ASCII character is read in ASCII. -/
theorem prefix_toUppercase_cons_plain (hu : IsPlainLetter u) (hv : v.toNat < 0x80)
    (h : u :: v :: us <+: toUppercase s) :
    ∃ c t, s = c :: t ∧ c.toUpper = u ∧ v :: us <+: toUppercase t := by
  obtain ⟨c, t, image, rfl, himage, hrest⟩ := prefix_toUppercase_cons h
  rcases charToUppercase_cases hu.1 himage with ⟨hc, rfl⟩ | ⟨-, rfl, -⟩ | ⟨-, rfl, -⟩ |
    ⟨codes, hmem, hcodes⟩
  · exact ⟨c, t, rfl, hc, hrest⟩
  · exact absurd rfl hu.2.2.1
  · exact absurd rfl hu.2.1
  · -- the upper case of such a character goes on outside ASCII
    have htable : ∀ e ∈ upperSpecial, ∀ x ∈ e.2.head?, IsPlainLetter (Char.ofNat x) →
        ∃ y ∈ e.2.tail.head?, ¬ (Char.ofNat y).toNat < 0x80 := by decide
    obtain ⟨x, codes, rfl, rfl, rfl⟩ := List.map_eq_cons_iff.mp hcodes.symm
    obtain ⟨y, hy, hlarge⟩ := htable _ hmem x rfl hu
    obtain ⟨codes, rfl⟩ := List.head?_eq_some_iff.mp hy
    rw [List.map_cons, List.cons_append, List.cons_prefix_cons] at hrest
    exact absurd (hrest.1 ▸ hv) hlarge

/-- **A word of plain letters is read in ASCII.** -/
theorem prefix_toUppercase_plain (hw : ∀ u ∈ w, IsPlainLetter u) (hv : v.toNat < 0x80)
    (h : w ++ v :: us <+: toUppercase s) :
    ∃ a t, s = a ++ t ∧ a.map Char.toUpper = w ∧ v :: us <+: toUppercase t := by
  induction w generalizing s with
  | nil => exact ⟨[], s, rfl, rfl, h⟩
  | cons u w ih =>
    obtain ⟨hu, hw⟩ := List.forall_mem_cons.mp hw
    obtain ⟨x, hx, rest, hrest⟩ : ∃ x, x.toNat < 0x80 ∧ ∃ rest, w ++ v :: us = x :: rest := by
      cases w with
      | nil => exact ⟨v, hv, us, rfl⟩
      | cons x w => exact ⟨x, (hw x List.mem_cons_self).1.2, _, rfl⟩
    rw [List.cons_append, hrest] at h
    obtain ⟨c, t, rfl, hc, ht⟩ := prefix_toUppercase_cons_plain hu hx h
    rw [← hrest] at ht
    obtain ⟨a, t, rfl, ha, ht⟩ := ih hw ht
    exact ⟨c :: a, t, rfl, by rw [List.map_cons, hc, ha], ht⟩

/-- **What is read as an `S`**: that letter, the long s, or a ligature that is read as `ST`. -/
theorem prefix_toUppercase_s (hv : v ≠ 'S') (h : 'S' :: v :: us <+: toUppercase s) :
    (∃ c t, s = c :: t ∧ (c.toUpper = 'S' ∨ c = 'ſ') ∧ v :: us <+: toUppercase t) ∨
      ∃ c t, s = c :: t ∧ (c = 'ﬅ' ∨ c = 'ﬆ') ∧ v = 'T' ∧ us <+: toUppercase t := by
  obtain ⟨c, t, image, rfl, himage, hrest⟩ := prefix_toUppercase_cons h
  rcases charToUppercase_cases (by decide) himage with ⟨hc, rfl⟩ | ⟨-, hne, -⟩ | ⟨rfl, -, rfl⟩ |
    ⟨codes, hmem, hcodes⟩
  · exact Or.inl ⟨c, t, rfl, Or.inl hc, hrest⟩
  · exact absurd hne (by decide)
  · exact Or.inl ⟨_, t, rfl, Or.inr rfl, hrest⟩
  · have htable : ∀ e ∈ upperSpecial, (e.2.map Char.ofNat).head? = some 'S' →
        e.2.map Char.ofNat = ['S', 'S'] ∨
          (e.2.map Char.ofNat = ['S', 'T'] ∧ (e.1 = 'ﬅ'.toNat ∨ e.1 = 'ﬆ'.toNat)) := by
      decide
    rcases htable _ hmem (by rw [← hcodes]; rfl) with hss | ⟨hst, hc⟩
    · rw [← hcodes] at hss
      rw [(List.cons.inj hss).2, List.singleton_append, List.cons_prefix_cons] at hrest
      exact absurd hrest.1 hv
    · rw [← hcodes] at hst
      rw [(List.cons.inj hst).2, List.singleton_append, List.cons_prefix_cons] at hrest
      exact Or.inr ⟨c, t, rfl, hc.imp char_ext_toNat char_ext_toNat, hrest⟩

/-- A character whose upper case starts with a colon is a colon. -/
theorem prefix_toUppercase_colon (h : ':' :: us <+: toUppercase s) :
    ∃ t, s = ':' :: t ∧ us <+: toUppercase t := by
  obtain ⟨c, t, image, rfl, himage, hrest⟩ := prefix_toUppercase_cons h
  rcases charToUppercase_cases (by decide) himage with ⟨hc, rfl⟩ | ⟨-, hne, -⟩ | ⟨-, hne, -⟩ |
    ⟨codes, hmem, hcodes⟩
  · have hcolon : c = ':' := by
      refine char_ext_toNat ?_
      have hn := congrArg Char.toNat hc
      rw [toNat_toUpper, show ':'.toNat = 58 from rfl] at hn
      split at hn
      · omega
      · exact hn
    exact ⟨t, by rw [hcolon], hrest⟩
  · exact absurd hne (by decide)
  · exact absurd hne (by decide)
  · have htable : ∀ e ∈ upperSpecial, (e.2.map Char.ofNat).head? ≠ some ':' := by decide
    exact absurd (by rw [← hcodes]; rfl) (htable _ hmem)

end Fywaf
