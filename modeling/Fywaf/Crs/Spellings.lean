import Fywaf.Crs.Bytewise

/-!
# Spellings of characters

The escapes of the decoders have hex digits in them, which stand for a character. A run of digits
that denotes a number as a text denotes the same number in the window of a decoder, where it is
bytes; and what reads the spelling of each character, whatever follows it, reads every text.

## Main results

* `Crs.hex2_of_parseNat`, `Crs.hex4_of_parseNat` — two and four digits of a text as bytes
* `Crs.charFromU32_toNat`, `Crs.byteChar_ofNat` — the characters of these numbers
* `Crs.run_flatten` — texts put together from spellings
-/

namespace Fywaf

namespace Crs

variable {c : Char} {digits : Str} {n : ℕ}

theorem charFromU32_toNat (c : Char) : charFromU32 c.toNat = some c := by
  have hvalid : c.toNat.isValidChar := c.valid
  rw [charFromU32, if_pos hvalid, Char.ofNat_toNat]

theorem toNat_of_charFromU32 (h : charFromU32 n = some c) : c.toNat = n := by
  rw [charFromU32] at h
  split at h
  · next hvalid => rw [← Option.some.inj h, Char.ofNat, dif_pos hvalid]; rfl
  · cases h

theorem byteChar_ofNat (h : c.toNat < 256) : byteChar (UInt8.ofNat c.toNat) = c := by
  refine char_ext_toNat ?_
  rw [toNat_byteChar, toNat_ofNat_of_lt h]

theorem hexDigit_byte (h : c.toNat < 0x80) : hexDigit (byte c) = toDigit 16 c := by
  rw [hexDigit, byteChar_byte h]

theorem hexDigit_lt {b : UInt8} {d : ℕ} (h : hexDigit b = some d) : d < 16 :=
  (toDigit_bounds h).2

/-- An ASCII text has one byte for each character. -/
theorem asBytes_of_isAscii {s : Str} (h : IsAscii s) : asBytes s = s.map byte := by
  induction s with
  | nil => rfl
  | cons c s ih =>
    rw [asBytes_cons_ascii (h c List.mem_cons_self), List.map_cons,
      ih fun d hd => h d (List.mem_cons_of_mem _ hd)]

/-- Two digits. -/
theorem hex2_of_parseNat (hlen : digits.length = 2) (h : parseNat 16 digits = some n) :
    ∃ a b, asBytes digits = [a, b] ∧ hex2 a b = some (UInt8.ofNat n) ∧ n < 256 := by
  have hascii := ascii_of_parseNat h
  obtain ⟨a, b, rfl⟩ := List.length_eq_two.mp hlen
  obtain ⟨-, hvalue⟩ := parseNat_eq_some_iff.mp h
  simp only [parseDigits, Option.bind_eq_some_iff, Option.some.injEq] at hvalue
  obtain ⟨hi, hhi, lo, hlo, hn⟩ := hvalue
  have hhi' := (toDigit_bounds hhi).2
  have hlo' := (toDigit_bounds hlo).2
  refine ⟨byte a, byte b, asBytes_of_isAscii hascii, ?_, by omega⟩
  rw [hex2, hexDigit_byte (hascii a (by simp)), hhi, Option.bind_some,
    hexDigit_byte (hascii b (by simp)), hlo, Option.map_some, ← hn, Nat.zero_mul, Nat.zero_add]

/-- Four digits. -/
theorem hex4_of_parseNat (hlen : digits.length = 4) (h : parseNat 16 digits = some n) :
    ∃ a b c d, asBytes digits = [a, b, c, d] ∧ hex4 [a, b, c, d] = some n := by
  have hascii := ascii_of_parseNat h
  obtain ⟨a, b, c, d, rfl⟩ : ∃ a b c d, digits = [a, b, c, d] := by
    rcases digits with _ | ⟨a, digits⟩
    · cases hlen
    obtain ⟨b, c, d, rfl⟩ := List.length_eq_three.mp (Nat.succ.inj hlen)
    exact ⟨a, b, c, d, rfl⟩
  obtain ⟨-, hvalue⟩ := parseNat_eq_some_iff.mp h
  simp only [parseDigits, Option.bind_eq_some_iff, Option.some.injEq] at hvalue
  obtain ⟨h₀, hh₀, h₁, hh₁, h₂, hh₂, h₃, hh₃, hn⟩ := hvalue
  refine ⟨byte a, byte b, byte c, byte d, asBytes_of_isAscii hascii, ?_⟩
  rw [hex4, hexDigit_byte (hascii a (by simp)), hh₀, Option.bind_some,
    hexDigit_byte (hascii b (by simp)), hh₁, Option.bind_some,
    hexDigit_byte (hascii c (by simp)), hh₂, Option.bind_some,
    hexDigit_byte (hascii d (by simp)), hh₃, Option.map_some, ← hn]
  congr 1
  omega

/-- No more than four digits. -/
theorem hex4_lt {l : Bytes} (h : hex4 l = some n) : n < 0x10000 := by
  unfold hex4 at h
  split at h
  · simp only [Option.bind_eq_some_iff, Option.map_eq_some_iff] at h
    obtain ⟨h₀, hh₀, h₁, hh₁, h₂, hh₂, h₃, hh₃, rfl⟩ := h
    have := hexDigit_lt hh₀
    have := hexDigit_lt hh₁
    have := hexDigit_lt hh₂
    have := hexDigit_lt hh₃
    omega
  · cases h

/-- **Texts put together from spellings** are read by what reads each spelling. -/
theorem run_flatten {S : Scanner UInt8 Char} {R : Char → Str → Prop}
    (hR : ∀ c piece, R c piece → S.Reads (asBytes piece) [c]) {s : Str} {pieces : List Str}
    (h : List.Forall₂ R s pieces) : S.run (asBytes pieces.flatten) = s := by
  have hrun : S.run (pieces.flatMap asBytes) = s.flatMap fun c => [c] :=
    S.run_flatMap hR h
  rw [asBytes_flatten, hrun, List.flatMap_singleton']

end Crs

end Fywaf
