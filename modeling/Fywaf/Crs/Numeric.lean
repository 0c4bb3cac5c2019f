import Fywaf.Crs.Operators
import Fywaf.Crs.Parser

/-!
# Numeric operators

`@lt`, `@le`, `@ge` and `@gt` compare 64-bit numbers. A number in a rule or in a request may be
longer than that. In a rule it is then read as zero, and in a request it never matches; as long as
both fit, the operators follow the order of the integers.

## Main definitions

* `Crs.Comparison`, `Crs.Comparison.Holds` — the four operators and the relation each stands for
* `Crs.FitsI64`, `Crs.argumentValue`

## Main results

* `Crs.comparison_matches_iff` — what a numeric operator of a rule file matches
-/

namespace Fywaf

namespace Crs

/-- The numeric operators. -/
inductive Comparison
  | lt
  | le
  | ge
  | gt
  deriving DecidableEq, Repr

namespace Comparison

/-- The name in a rule file. -/
def name : Comparison → Str
  | lt => "lt".toList
  | le => "le".toList
  | ge => "ge".toList
  | gt => "gt".toList

/-- The relation between the value and the argument. -/
def Holds : Comparison → ℤ → ℤ → Prop
  | lt, v, a => v < a
  | le, v, a => v ≤ a
  | ge, v, a => v ≥ a
  | gt, v, a => v > a

instance (op : Comparison) (v a : ℤ) : Decidable (op.Holds v a) :=
  match op with
  | lt => inferInstanceAs (Decidable (v < a))
  | le => inferInstanceAs (Decidable (v ≤ a))
  | ge => inferInstanceAs (Decidable (v ≥ a))
  | gt => inferInstanceAs (Decidable (v > a))

/-- What the parser makes of it. -/
def operator : Comparison → Int64 → Operator
  | lt => .lt
  | le => .le
  | ge => .ge
  | gt => .gt

end Comparison

/-- The integer is one of 64 bits. -/
def FitsI64 (n : ℤ) : Prop := -2 ^ 63 ≤ n ∧ n < 2 ^ 63

instance (n : ℤ) : Decidable (FitsI64 n) := inferInstanceAs (Decidable (_ ∧ _))

/-- The number a rule compares with: zero for one that does not fit. -/
def argumentValue (n : ℤ) : ℤ := if FitsI64 n then n else 0

theorem fitsI64_argumentValue (n : ℤ) : FitsI64 (argumentValue n) := by
  rw [argumentValue]
  split
  · assumption
  · decide

/-! ### Reading the two numbers -/

theorem numberOrZero_of_literal {a : Str} {m : ℤ} (h : IntLiteral a m) :
    numberOrZero a = Int64.ofInt (argumentValue m) := by
  rw [numberOrZero, parseSigned_of_literal h, argumentValue]
  change ((if FitsI64 m then some m else none).map Int64.ofInt).getD 0 = _
  split
  · rfl
  · rfl

theorem parseI64_of_literal {v : Str} {n : ℤ} (h : IntLiteral v n) :
    parseI64 v = if FitsI64 n then some (Int64.ofInt n) else none := by
  rw [parseI64, h.trim, parseSigned_of_literal h]
  change (if FitsI64 n then some n else none).map Int64.ofInt = _
  split
  · rfl
  · rfl

/-- The parser keeps the operator and reads its argument. -/
theorem parseOperator_comparison (op : Comparison) {a : Str} {m : ℤ} (h : IntLiteral a m) :
    parseOperator ('@' :: (op.name ++ ' ' :: a)) =
      (op.operator (Int64.ofInt (argumentValue m)), false) := by
  have hplain : ∀ c ∈ op.name, isAsciiWhitespace c = false := by
    cases op <;> exact forall_mem_of_all (by decide)
  have hfold : toLowercase op.name = op.name := by cases op <;> decide
  have hsplit := operatorName_at hplain (by decide : isAsciiWhitespace ' ' = true) a
  rw [h.trim] at hsplit
  have hnegated : (('@' :: (op.name ++ ' ' :: a)).head? == some '!') = false := rfl
  rw [parseOperator, hnegated, if_neg Bool.false_ne_true, hsplit]
  dsimp only
  rw [hfold, numberOrZero_of_literal h]
  cases op <;> rfl

/-! ### Comparing them -/

theorem toInt_ofInt {n : ℤ} (h : FitsI64 n) : (Int64.ofInt n).toInt = n :=
  Int64.toInt_ofInt_of_le h.1 h.2

theorem operatorMatches_comparison (regex : RegexNew) (op : Comparison) (arg : Int64) (v : Str) :
    operatorMatches regex (op.operator arg) v = true ↔
      ∃ n, parseI64 v = some n ∧ op.Holds n.toInt arg.toInt := by
  have hcompare : ∀ rel : Int64 → Bool, compareI64 rel v = true ↔
      ∃ n, parseI64 v = some n ∧ rel n = true := by
    intro rel
    rw [compareI64]
    cases parseI64 v with
    | none => simp
    | some n => simp
  cases op
  all_goals
    rw [Comparison.operator, operatorMatches, hcompare]
    simp only [Comparison.Holds, decide_eq_true_eq, Int64.lt_iff_toInt_lt, Int64.le_iff_toInt_le,
      ge_iff_le, gt_iff_lt]

/-- **What a numeric operator of a rule file matches**: the values that fit in 64 bits and compare
with the argument, which is zero if it does not fit. -/
theorem comparison_matches_iff (regex : RegexNew) (op : Comparison) {a v : Str} {m n : ℤ}
    (ha : IntLiteral a m) (hv : IntLiteral v n) :
    (parseOperator ('@' :: (op.name ++ ' ' :: a))).2 = false ∧
      (operatorMatches regex (parseOperator ('@' :: (op.name ++ ' ' :: a))).1 v = true ↔
        FitsI64 n ∧ op.Holds n (argumentValue m)) := by
  rw [parseOperator_comparison op ha]
  refine ⟨rfl, ?_⟩
  rw [operatorMatches_comparison, toInt_ofInt (fitsI64_argumentValue m), parseI64_of_literal hv]
  constructor
  · rintro ⟨k, hk, hholds⟩
    split at hk
    · next hfits =>
      rw [← Option.some.inj hk, toInt_ofInt hfits] at hholds
      exact ⟨hfits, hholds⟩
    · cases hk
  · rintro ⟨hfits, hholds⟩
    refine ⟨Int64.ofInt n, if_pos hfits, ?_⟩
    rwa [toInt_ofInt hfits]

/-- `-5` is less than `+3`. -/
theorem comparison_matches_minus_five : operatorMatches (fun _ => none)
    (parseOperator "@lt +3".toList).1 "-5".toList = true := by
  have ha : IntLiteral "+3".toList 3 := IntLiteral.plus (n := 3) (by decide)
  have hv : IntLiteral "-5".toList (-5) := IntLiteral.minus (n := 5) (by decide)
  exact (comparison_matches_iff (fun _ => none) .lt ha hv).2.mpr ⟨by decide, by decide⟩

/-- A value of twenty digits is not greater than 100. -/
theorem long_value_not_greater : ¬ ∀ (regex : RegexNew) (op : Comparison) (a v : Str) (m n : ℤ),
    IntLiteral a m → IntLiteral v n →
      (operatorMatches regex (parseOperator ('@' :: (op.name ++ ' ' :: a))).1 v = true ↔
        op.Holds n m) := by
  intro h
  have ha : IntLiteral "100".toList 100 := IntLiteral.unsigned (n := 100) (by decide)
  have hv : IntLiteral "10000000000000000000".toList 10000000000000000000 :=
    IntLiteral.unsigned (n := 10000000000000000000) (by decide)
  have hmatch := (h (fun _ => none) .gt _ _ _ _ ha hv).mpr (by decide)
  rw [parseOperator_comparison .gt ha, operatorMatches_comparison, parseI64_of_literal hv] at hmatch
  obtain ⟨k, hk, -⟩ := hmatch
  rw [if_neg (by decide)] at hk
  cases hk

end Crs

end Fywaf
