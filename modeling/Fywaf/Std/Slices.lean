import Fywaf.Std.Str
import Fywaf.Std.Utf8

/-!
# Character boundaries

A slice of a text is taken at a byte offset, and fails off the end of the text and inside a
character. An offset at which a search found an ASCII character is a boundary, and so is the next
one. An offset that was measured on another text need not be.

## Main definitions

* `IsBoundary` — the offsets at which a text can be sliced
* `findChar` — the offset of the first character of a kind

## Main results

* `sliceFrom_eq_ok_iff`, `sliceTo_eq_ok_iff`, `exists_sliceFrom_iff` — what a slice is
* `exists_of_getElem?_asBytes` — an ASCII byte is a character with boundaries on both sides
* `findChar_eq_some_iff`, `findChar_eq_none_iff`
* `isBoundary_map`, `not_isBoundary_inside`
-/

namespace Fywaf

variable {s a b : Str} {c : Char} {i : ℕ} {p : Char → Bool}

/-! ### Boundaries -/

/-- Byte offset `i` is a character boundary of the text. -/
def IsBoundary (s : Str) (i : ℕ) : Prop := ∃ a b, s = a ++ b ∧ (asBytes a).length = i

theorem length_asBytes_cons (c : Char) (s : Str) :
    (asBytes (c :: s)).length = c.utf8Size + (asBytes s).length := by
  rw [asBytes_cons, List.length_append, String.length_utf8EncodeChar]

theorem length_asBytes_append (a b : Str) :
    (asBytes (a ++ b)).length = (asBytes a).length + (asBytes b).length := by
  rw [asBytes_append, List.length_append]

theorem splitAtByte_zero (s : Str) : splitAtByte s 0 = some ([], s) := by cases s <;> rfl

theorem splitAtByte_append (a b : Str) :
    splitAtByte (a ++ b) (asBytes a).length = some (a, b) := by
  induction a with
  | nil => exact splitAtByte_zero b
  | cons c a ih =>
    have hpos := c.utf8Size_pos
    have hsucc : (asBytes (c :: a)).length = c.utf8Size - 1 + (asBytes a).length + 1 := by
      rw [length_asBytes_cons]
      omega
    have hrest : c.utf8Size - 1 + (asBytes a).length + 1 - c.utf8Size = (asBytes a).length := by
      omega
    rw [hsucc, List.cons_append, splitAtByte, if_pos (by omega), hrest, ih, Option.map_some]

/-- **What a cut at a byte offset is.** -/
theorem splitAtByte_eq_some_iff :
    splitAtByte s i = some (a, b) ↔ s = a ++ b ∧ (asBytes a).length = i := by
  constructor
  · intro h
    induction s generalizing i a b with
    | nil =>
      cases i with
      | zero =>
        obtain ⟨rfl, rfl⟩ := Prod.mk.inj (Option.some.inj h)
        exact ⟨rfl, rfl⟩
      | succ i => cases h
    | cons c s ih =>
      cases i with
      | zero =>
        obtain ⟨rfl, rfl⟩ := Prod.mk.inj (Option.some.inj h)
        exact ⟨rfl, rfl⟩
      | succ i =>
        rw [splitAtByte] at h
        split at h
        · next hle =>
          obtain ⟨⟨a', b'⟩, hcut, hpair⟩ := Option.map_eq_some_iff.mp h
          obtain ⟨rfl, rfl⟩ := Prod.mk.inj hpair
          obtain ⟨rfl, hlen⟩ := ih hcut
          refine ⟨rfl, ?_⟩
          rw [length_asBytes_cons]
          omega
        · cases h
  · rintro ⟨rfl, rfl⟩
    exact splitAtByte_append a b

theorem sliceFrom_eq_ok_iff :
    sliceFrom s i = .ok b ↔ ∃ a, s = a ++ b ∧ (asBytes a).length = i := by
  simp only [← splitAtByte_eq_some_iff]
  rw [sliceFrom]
  rcases splitAtByte s i with _ | ⟨a, b'⟩ <;> simp

theorem sliceTo_eq_ok_iff :
    sliceTo s i = .ok a ↔ ∃ b, s = a ++ b ∧ (asBytes a).length = i := by
  simp only [← splitAtByte_eq_some_iff]
  rw [sliceTo]
  rcases splitAtByte s i with _ | ⟨a', b⟩ <;> simp

theorem sliceFrom_append (a b : Str) : sliceFrom (a ++ b) (asBytes a).length = .ok b :=
  sliceFrom_eq_ok_iff.mpr ⟨a, rfl, rfl⟩

theorem sliceTo_append (a b : Str) : sliceTo (a ++ b) (asBytes a).length = .ok a :=
  sliceTo_eq_ok_iff.mpr ⟨b, rfl, rfl⟩

/-- **A slice fails exactly off the boundaries.** -/
theorem exists_sliceFrom_iff : (∃ b, sliceFrom s i = .ok b) ↔ IsBoundary s i := by
  simp only [sliceFrom_eq_ok_iff]
  rw [exists_comm]
  rfl

/-- Behind an ASCII character there is a boundary. -/
theorem length_asBytes_concat (hc : c.toNat < 0x80) (a : Str) :
    (asBytes (a ++ [c])).length = (asBytes a).length + 1 := by
  rw [length_asBytes_append, asBytes_cons, asBytes_nil, encode_ascii hc]
  rfl

theorem sliceFrom_behind (hc : c.toNat < 0x80) (a b : Str) :
    sliceFrom (a ++ c :: b) ((asBytes a).length + 1) = .ok b := by
  rw [← length_asBytes_concat hc, List.append_cons]
  exact sliceFrom_append _ _

/-- **An ASCII byte is a character**, and what is before it ends at its offset. -/
theorem exists_of_getElem?_asBytes (hc : c.toNat < 0x80)
    (h : (asBytes s)[i]? = some (UInt8.ofNat c.toNat)) :
    ∃ a b, s = a ++ c :: b ∧ (asBytes a).length = i := by
  obtain ⟨hlt, hget⟩ := List.getElem?_eq_some_iff.mp h
  have hcut : asBytes s =
      (asBytes s).take i ++ UInt8.ofNat c.toNat :: (asBytes s).drop (i + 1) := by
    rw [← hget, List.getElem_cons_drop, List.take_append_drop]
  obtain ⟨a, b, hs, ha, -⟩ := asBytes_eq_append_cons hc hcut
  exact ⟨a, b, hs, by rw [ha, List.length_take, Nat.min_eq_left (Nat.le_of_lt hlt)]⟩

/-! ### Searching -/

/-- `str::find`, the byte offset of the first character of a kind. -/
def findChar (p : Char → Bool) : Str → Option ℕ
  | [] => none
  | c :: s => if p c then some 0 else (findChar p s).map (c.utf8Size + ·)

theorem findChar_eq_none_iff : findChar p s = none ↔ ∀ c ∈ s, p c = false := by
  induction s with
  | nil => exact iff_of_true rfl (List.forall_mem_nil _)
  | cons c s ih =>
    rw [findChar, List.forall_mem_cons]
    cases hc : p c
    · simpa using ih
    · simp

theorem findChar_append (ha : ∀ d ∈ a, p d = false) (hc : p c = true) (b : Str) :
    findChar p (a ++ c :: b) = some (asBytes a).length := by
  induction a with
  | nil => exact if_pos hc
  | cons d a ih =>
    obtain ⟨hd, ha⟩ := List.forall_mem_cons.mp ha
    rw [List.cons_append, findChar, if_neg (by simp [hd]), ih ha, Option.map_some,
      length_asBytes_cons]

/-! ### Other texts -/

/-- Characters replaced by others of their size leave the boundaries where they are. -/
theorem isBoundary_map {f : Char → Char} (hf : ∀ c, (f c).utf8Size = c.utf8Size) :
    IsBoundary (s.map f) i ↔ IsBoundary s i := by
  have hlen : ∀ a : Str, (asBytes (a.map f)).length = (asBytes a).length := by
    intro a
    induction a with
    | nil => rfl
    | cons c a ih => rw [List.map_cons, length_asBytes_cons, length_asBytes_cons, hf, ih]
  constructor
  · rintro ⟨a, b, hs, ha⟩
    obtain ⟨a', b', rfl, rfl, rfl⟩ := List.map_eq_append_iff.mp hs
    exact ⟨a', b', rfl, (hlen a').symm.trans ha⟩
  · rintro ⟨a, b, rfl, ha⟩
    exact ⟨a.map f, b.map f, List.map_append, (hlen a).trans ha⟩

/-- There is no boundary inside a character. -/
theorem not_isBoundary_inside (hlt : (asBytes a).length < i)
    (hgt : i < (asBytes a).length + c.utf8Size) (b : Str) : ¬ IsBoundary (a ++ c :: b) i := by
  rintro ⟨a', b', hs, rfl⟩
  rcases List.append_eq_append_iff.mp hs with ⟨t, rfl, ht⟩ | ⟨t, rfl, -⟩
  · cases t with
    | nil =>
      rw [List.append_nil] at hlt
      omega
    | cons d t =>
      obtain rfl : c = d := (List.cons.inj ht).1
      rw [length_asBytes_append, length_asBytes_cons] at hgt
      omega
  · rw [length_asBytes_append] at hlt
    omega

end Fywaf
