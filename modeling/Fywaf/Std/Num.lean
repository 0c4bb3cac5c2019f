import Mathlib.Algebra.Group.Nat.Defs
import Mathlib.Data.Nat.Notation
import Mathlib.Tactic.IntervalCases
import Fywaf.Std.Str

/-!
# Numbers as text

Reading and printing machine integers the way `str::parse`, `from_str_radix` and `to_string` do:
an optional sign, at least one digit, and a value that fits. Leading zeros and a plus sign are
accepted, blanks are not.

## Main definitions

* `fromStrRadix`, `parseUnsigned`, `parseSigned`
* `decimal`, `signedDecimal` — `to_string` of an integer
* `IntLiteral` — optionally signed decimal literals, of any length

## Main results

* `parseUnsigned_decimal` — what is printed is read back
* `decimal_digits`, `decimal_ne_nil`
* `parseDigits_append`, `exists_digit_of_parseNat` — runs of digits
* `parseSigned_of_literal` — which integer literals are read
* `parseDigits_toDigits` — what is printed in hexadecimal is read back
-/

namespace Fywaf

variable {s : Str}

/-- `char::to_digit`, for a radix up to 16. -/
def toDigit (radix : ℕ) (c : Char) : Option ℕ :=
  let n := c.toNat
  let value : Option ℕ :=
    if 48 ≤ n ∧ n ≤ 57 then some (n - 48)
    else if 97 ≤ n ∧ n ≤ 102 then some (n - 87)
    else if 65 ≤ n ∧ n ≤ 70 then some (n - 55)
    else none
  value.filter (· < radix)

/-- The value of a run of digits behind an already read value. -/
def parseDigits (radix : ℕ) : ℕ → Str → Option ℕ
  | acc, [] => some acc
  | acc, c :: s => (toDigit radix c).bind fun d => parseDigits radix (acc * radix + d) s

/-- The value of a non-empty run of digits. -/
def parseNat (radix : ℕ) (s : Str) : Option ℕ := if s = [] then none else parseDigits radix 0 s

/-- `from_str_radix` of an unsigned type of `bits` bits. -/
def fromStrRadix (radix bits : ℕ) (s : Str) : Option ℕ :=
  (parseNat radix (if s.head? = some '+' then s.tail else s)).filter (· < 2 ^ bits)

/-- `str::parse` of an unsigned type of `bits` bits. -/
def parseUnsigned (bits : ℕ) (s : Str) : Option ℕ := fromStrRadix 10 bits s

/-- `str::parse` of a signed type of `bits` bits. -/
def parseSigned (bits : ℕ) (s : Str) : Option ℤ :=
  if s.head? = some '-' then
    ((parseNat 10 s.tail).filter (· ≤ 2 ^ (bits - 1))).map fun n => -(n : ℤ)
  else
    ((parseNat 10 (if s.head? = some '+' then s.tail else s)).filter (· < 2 ^ (bits - 1))).map
      fun n => (n : ℤ)

/-- `to_string` of an unsigned integer. -/
def decimal (n : ℕ) : Str := Nat.toDigits 10 n

/-- `to_string` of a signed integer. -/
def signedDecimal (n : ℤ) : Str := if n < 0 then '-' :: decimal n.natAbs else decimal n.natAbs

theorem decimal_ne_nil (n : ℕ) : decimal n ≠ [] := Nat.toDigits_ne_nil

theorem decimal_digits {n : ℕ} {c : Char} (h : c ∈ decimal n) : c.isDigit = true :=
  Nat.isDigit_of_mem_toDigits (by decide) (by decide) h

theorem isDigit_iff {c : Char} : c.isDigit = true ↔ 48 ≤ c.toNat ∧ c.toNat ≤ 57 := by
  simp [Char.isDigit, UInt32.le_iff_toNat_le]

theorem toDigit_ten {c : Char} (h : c.isDigit = true) : toDigit 10 c = some (c.toNat - 48) := by
  rw [isDigit_iff] at h
  simp only [toDigit, h, and_self, if_true]
  rw [Option.filter_some]
  simp
  omega

theorem parseDigits_ten : ∀ {s : Str} {acc : ℕ}, (∀ c ∈ s, c.isDigit = true) →
    parseDigits 10 acc s = some (Nat.ofDigitChars 10 s acc)
  | [], acc, _ => by simp [parseDigits]
  | c :: s, acc, h => by
    rw [parseDigits, toDigit_ten (h c List.mem_cons_self), Option.bind_some,
      parseDigits_ten fun d hd => h d (List.mem_cons_of_mem _ hd), Nat.ofDigitChars_cons,
      Nat.mul_comm]
    rfl

theorem parseNat_of_digits (hne : s ≠ []) (h : ∀ c ∈ s, c.isDigit = true) :
    parseNat 10 s = some (Nat.ofDigitChars 10 s 0) := by
  rw [parseNat, if_neg hne, parseDigits_ten h]

/-- A run of digits is read as the number it denotes, when that fits. -/
theorem parseUnsigned_of_digits {bits : ℕ} (hne : s ≠ []) (h : ∀ c ∈ s, c.isDigit = true)
    (hlt : Nat.ofDigitChars 10 s 0 < 2 ^ bits) :
    parseUnsigned bits s = some (Nat.ofDigitChars 10 s 0) := by
  have hsign : s.head? ≠ some '+' := by
    intro hs
    have := h '+' (List.mem_of_mem_head? hs)
    exact absurd this (by decide)
  rw [parseUnsigned, fromStrRadix, if_neg hsign, parseNat_of_digits hne h, Option.filter_some]
  simp [hlt]

theorem lt_of_parseUnsigned {bits n : ℕ} (h : parseUnsigned bits s = some n) : n < 2 ^ bits := by
  rw [parseUnsigned, fromStrRadix] at h
  exact of_decide_eq_true (Option.filter_eq_some_iff.mp h).2

/-- A run of digits that is read denotes the number that is read. -/
theorem ofDigitChars_of_parseUnsigned {bits n : ℕ} (h : ∀ c ∈ s, c.isDigit = true)
    (hparse : parseUnsigned bits s = some n) : s ≠ [] ∧ Nat.ofDigitChars 10 s 0 = n := by
  have hsign : s.head? ≠ some '+' := by
    intro hs
    exact absurd (h '+' (List.mem_of_mem_head? hs)) (by decide)
  have hne : s ≠ [] := by
    rintro rfl
    cases hparse
  rw [parseUnsigned, fromStrRadix, if_neg hsign, parseNat_of_digits hne h,
    Option.filter_eq_some_iff, Option.some.injEq] at hparse
  exact ⟨hne, hparse.1⟩

/-- **What is printed is read back.** -/
theorem parseUnsigned_decimal {bits n : ℕ} (h : n < 2 ^ bits) :
    parseUnsigned bits (decimal n) = some n := by
  have hval : Nat.ofDigitChars 10 (decimal n) 0 = n := Nat.ofDigitChars_ten_toDigits
  have hlt : Nat.ofDigitChars 10 (decimal n) 0 < 2 ^ bits := hval.symm ▸ h
  rw [parseUnsigned_of_digits (decimal_ne_nil n) (fun c => decimal_digits) hlt, hval]

/-! ### Runs of digits -/

theorem parseDigits_append (radix : ℕ) : ∀ (s t : Str) (acc : ℕ),
    parseDigits radix acc (s ++ t) = (parseDigits radix acc s).bind fun n => parseDigits radix n t
  | [], _, _ => rfl
  | c :: s, t, acc => by
    rw [List.cons_append, parseDigits, parseDigits]
    cases toDigit radix c with
    | none => rfl
    | some d => exact parseDigits_append radix s t _

/-- What is read as a run of digits consists of digits. -/
theorem exists_digit_of_parseDigits {radix : ℕ} : ∀ {s : Str} {acc n : ℕ},
    parseDigits radix acc s = some n → ∀ c ∈ s, ∃ d, toDigit radix c = some d
  | [], _, _, _ => fun _ hc => by cases hc
  | c :: s, acc, n, h => by
    rw [parseDigits] at h
    obtain ⟨d, hd, h⟩ := Option.bind_eq_some_iff.mp h
    exact List.forall_mem_cons.mpr ⟨⟨d, hd⟩, exists_digit_of_parseDigits h⟩

theorem parseNat_eq_some_iff {radix n : ℕ} :
    parseNat radix s = some n ↔ s ≠ [] ∧ parseDigits radix 0 s = some n := by
  rw [parseNat]
  split
  · next h => simp [h]
  · next h => simp [h]

theorem exists_digit_of_parseNat {radix n : ℕ} (h : parseNat radix s = some n) :
    ∀ c ∈ s, ∃ d, toDigit radix c = some d :=
  exists_digit_of_parseDigits (parseNat_eq_some_iff.mp h).2

/-- The digits, as numbers. -/
theorem toNat_of_toDigit {radix d : ℕ} {c : Char} (h : toDigit radix c = some d) :
    48 ≤ c.toNat ∧ c.toNat ≤ 57 ∨ 97 ≤ c.toNat ∧ c.toNat ≤ 102 ∨
      65 ≤ c.toNat ∧ c.toNat ≤ 70 := by
  obtain ⟨hvalue, -⟩ := Option.filter_eq_some_iff.mp h
  by_contra hc
  rw [not_or, not_or] at hc
  simp only [if_neg hc.1, if_neg hc.2.1, if_neg hc.2.2] at hvalue
  cases hvalue

/-- A digit is ASCII, and below the radix. -/
theorem toDigit_bounds {radix d : ℕ} {c : Char} (h : toDigit radix c = some d) :
    c.toNat < 0x80 ∧ d < radix := by
  have hc := toNat_of_toDigit h
  exact ⟨by omega, of_decide_eq_true (Option.filter_eq_some_iff.mp h).2⟩

/-- A digit is no white space. -/
theorem isWhitespace_of_toDigit {radix d : ℕ} {c : Char} (h : toDigit radix c = some d) :
    isWhitespace c = false := by
  have hc := toNat_of_toDigit h
  rw [← Bool.not_eq_true]
  simp only [isWhitespace, Bool.or_eq_true, Bool.and_eq_true, decide_eq_true_eq, beq_iff_eq]
  omega

theorem ascii_of_parseNat {radix n : ℕ} (h : parseNat radix s = some n) :
    ∀ c ∈ s, c.toNat < 0x80 := by
  intro c hc
  obtain ⟨d, hd⟩ := exists_digit_of_parseNat h c hc
  exact (toDigit_bounds hd).1

/-- A character that is no digit is not among digits. -/
theorem not_mem_of_parseNat {radix n : ℕ} {c : Char} (hc : toDigit radix c = none)
    (h : parseNat radix s = some n) : c ∉ s := by
  intro hmem
  obtain ⟨d, hd⟩ := exists_digit_of_parseNat h c hmem
  rw [hc] at hd
  cases hd

/-- A run of digits has no sign, so that it is read whole. -/
theorem fromStrRadix_of_parseNat {radix bits n : ℕ} (h : parseNat radix s = some n)
    (hlt : n < 2 ^ bits) : fromStrRadix radix bits s = some n := by
  have hplus : toDigit radix '+' = none := by simp [toDigit]
  have hsign : s.head? ≠ some '+' :=
    fun hs => not_mem_of_parseNat hplus h (List.mem_of_mem_head? hs)
  rw [fromStrRadix, if_neg hsign, h, Option.filter_some]
  simp [hlt]

/-! ### Integer literals -/

/-- `s` is an optional sign and decimal digits, and denotes `n`. -/
inductive IntLiteral : Str → ℤ → Prop
  | unsigned {digits : Str} {n : ℕ} (h : parseNat 10 digits = some n) : IntLiteral digits n
  | plus {digits : Str} {n : ℕ} (h : parseNat 10 digits = some n) : IntLiteral ('+' :: digits) n
  | minus {digits : Str} {n : ℕ} (h : parseNat 10 digits = some n) :
    IntLiteral ('-' :: digits) (-n)

/-- A number in print is a literal. -/
theorem intLiteral_signedDecimal (n : ℤ) : IntLiteral (signedDecimal n) n := by
  have hread : ∀ m : ℕ, parseNat 10 (decimal m) = some m := fun m => by
    rw [parseNat_of_digits (decimal_ne_nil m) fun c hc => decimal_digits hc, decimal,
      Nat.ofDigitChars_toDigits (by decide) le_rfl]
  rw [signedDecimal]
  split
  · next hneg =>
    have hminus := IntLiteral.minus (hread n.natAbs)
    rwa [show -(n.natAbs : ℤ) = n by omega] at hminus
  · next hpos =>
    have hunsigned := IntLiteral.unsigned (hread n.natAbs)
    rwa [show (n.natAbs : ℤ) = n by omega] at hunsigned

/-- There are no blanks in a literal. -/
theorem IntLiteral.not_isWhitespace {n : ℤ} (h : IntLiteral s n) :
    ∀ c ∈ s, isWhitespace c = false := by
  have hdigits : ∀ {digits : Str} {n : ℕ}, parseNat 10 digits = some n →
      ∀ c ∈ digits, isWhitespace c = false := by
    intro digits n h c hc
    obtain ⟨d, hd⟩ := exists_digit_of_parseNat h c hc
    exact isWhitespace_of_toDigit hd
  cases h with
  | unsigned h => exact hdigits h
  | plus h => exact List.forall_mem_cons.mpr ⟨by decide, hdigits h⟩
  | minus h => exact List.forall_mem_cons.mpr ⟨by decide, hdigits h⟩

theorem IntLiteral.trim {n : ℤ} (h : IntLiteral s n) : trim s = s :=
  trimMatches_of_cleanEnds (cleanEnds_of_forall h.not_isWhitespace)

/-- **A literal is read when it fits**, as what it denotes. -/
theorem parseSigned_of_literal {bits : ℕ} {n : ℤ} (h : IntLiteral s n) :
    parseSigned bits s =
      if -2 ^ (bits - 1) ≤ n ∧ n < 2 ^ (bits - 1) then some n else none := by
  have hpos : (0 : ℤ) < 2 ^ (bits - 1) := by positivity
  have hsign : ∀ {digits : Str} {m : ℕ} {c : Char}, toDigit 10 c = none →
      parseNat 10 digits = some m → digits.head? ≠ some c :=
    fun hc hm hs => not_mem_of_parseNat hc hm (List.mem_of_mem_head? hs)
  have hnonneg : ∀ m : ℕ, m < 2 ^ (bits - 1) ↔
      (-2 ^ (bits - 1) ≤ (m : ℤ) ∧ (m : ℤ) < 2 ^ (bits - 1)) := by
    intro m
    rw [and_iff_right (by omega)]
    exact_mod_cast Iff.rfl
  have hneg : ∀ m : ℕ, m ≤ 2 ^ (bits - 1) ↔
      (-2 ^ (bits - 1) ≤ -(m : ℤ) ∧ -(m : ℤ) < 2 ^ (bits - 1)) := by
    intro m
    rw [and_iff_left (by omega), neg_le_neg_iff]
    exact_mod_cast Iff.rfl
  rw [parseSigned]
  cases h with
  | @unsigned _ m h =>
    rw [if_neg (hsign (by decide) h), if_neg (hsign (by decide) h), h, Option.filter_some]
    simp only [decide_eq_true_eq, hnonneg m]
    split <;> rfl
  | @plus digits m h =>
    rw [if_neg (by simp), if_pos (by simp), List.tail_cons, h, Option.filter_some]
    simp only [decide_eq_true_eq, hnonneg m]
    split <;> rfl
  | @minus digits m h =>
    rw [if_pos (by simp), List.tail_cons, h, Option.filter_some]
    simp only [decide_eq_true_eq, hneg m]
    split <;> rfl

theorem toDigit_toUpper_digitChar {n : ℕ} (h : n < 16) :
    toDigit 16 (Char.toUpper (Nat.digitChar n)) = some n := by
  interval_cases n <;> decide

/-- Leading zeros do not count. -/
theorem parseDigits_zeros (k : ℕ) : parseDigits 16 0 (List.replicate k '0') = some 0 := by
  induction k with
  | zero => rfl
  | succ k ih => rwa [List.replicate_succ, parseDigits]

/-- What is printed in upper-case hexadecimal is read back. -/
theorem parseDigits_toDigits (n : ℕ) :
    parseDigits 16 0 ((Nat.toDigits 16 n).map Char.toUpper) = some n := by
  induction n using Nat.strongRecOn with
  | ind n ih =>
    by_cases h : n < 16
    · rw [Nat.toDigits_of_lt_base h, List.map_singleton, parseDigits, toDigit_toUpper_digitChar h,
        Option.bind_some, parseDigits, Nat.zero_mul, Nat.zero_add]
    · have hlast := toDigit_toUpper_digitChar (Nat.mod_lt n (by decide : 16 > 0))
      rw [Nat.toDigits_of_base_le (by decide) (Nat.not_lt.mp h), List.map_append,
        parseDigits_append, ih (n / 16) (by omega), Option.bind_some, List.map_singleton,
        parseDigits, hlast, Option.bind_some, parseDigits, Nat.div_add_mod']

end Fywaf
