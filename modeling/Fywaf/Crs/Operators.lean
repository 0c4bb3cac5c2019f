import Fywaf.Crs.Transforms

/-!
# Operators

Whether a transformed value satisfies an operator. The regular expression engine is a crate of its
own; it enters as `RegexNew`, what compiling a pattern gives. Numbers are 64-bit and signed, and a
value that is not one never compares.

## Main definitions

* `Crs.RegexNew` — the regular expression engine
* `Crs.operatorMatches` — `matches`, by recursion on the operator

## Main results

* `Crs.operatorMatches_eq_core` — negations cancel in pairs
-/

namespace Fywaf

namespace Crs

/-- `Regex::new` and `is_match` of the `regex` crate: a pattern either fails to compile or is a
predicate on values. -/
abbrev RegexNew := Str → Option (Str → Bool)

variable (regex : RegexNew)

/-- A pattern that does not compile matches nothing. -/
def rxMatch (pattern value : Str) : Bool :=
  match regex pattern with
  | some re => re value
  | none => false

/-- The words were folded by the parser. -/
def pmMatch (words : List Str) (value : Str) : Bool :=
  let lower := toLowercase value
  words.any fun w => contains lower w

/-- Each line is a phrase; blank lines and `#` comments are skipped. -/
def pmMatchPhrases (phrases value : Str) : Bool :=
  let lower := toLowercase value
  (lines phrases).any fun line =>
    let phrase := trim line
    !(phrase == [] || phrase.head? == some '#') && contains lower (toLowercase phrase)

/-- One part of a range list: `lo-hi`, or one number. -/
def parseByteRange (part : Str) : Option (ℕ × ℕ) :=
  let part := trim part
  match splitOnce '-' part with
  | some (lo, hi) =>
    (parseUnsigned 8 (trim lo)).bind fun a => (parseUnsigned 8 (trim hi)).map fun b => (a, b)
  | none => (parseUnsigned 8 part).map fun n => (n, n)

/-- Parts that are no range are dropped. -/
def parseByteRanges (ranges : Str) : List (ℕ × ℕ) := (ranges.splitOn ',').filterMap parseByteRange

/-- Every byte lies in a range, or there is no range. -/
def validateByteRange (value ranges : Str) : Bool :=
  let parsed := parseByteRanges ranges
  if parsed.isEmpty then true
  else (asBytes value).all fun b => parsed.any fun (lo, hi) => lo ≤ b.toNat && b.toNat ≤ hi

def parseI64 (s : Str) : Option Int64 := (parseSigned 64 (trim s)).map Int64.ofInt

/-- A numeric comparison with the value; no number, no match. -/
def compareI64 (rel : Int64 → Bool) (value : Str) : Bool := ((parseI64 value).map rel).getD false

/-- Evaluate an operator against a value. -/
def operatorMatches : Operator → Str → Bool
  | .rx pattern, value => rxMatch regex pattern value
  | .pm words, value => pmMatch words value
  | .pmFromFile phrases, value => pmMatchPhrases phrases value
  | .contains s, value => contains (toLowercase value) (toLowercase s)
  | .beginsWith s, value => (toLowercase s).isPrefixOf (toLowercase value)
  | .endsWith s, value => (toLowercase s).isSuffixOf (toLowercase value)
  | .streq s, value => value == s
  | .lt n, value => compareI64 (· < n) value
  | .le n, value => compareI64 (· ≤ n) value
  | .ge n, value => compareI64 (n ≤ ·) value
  | .gt n, value => compareI64 (n < ·) value
  | .within list, value => list.any fun w => toLowercase w == toLowercase value
  | .validateByteRange ranges, value => validateByteRange value ranges
  | .detectXss, _ => false
  | .detectSqli, _ => false
  | .negated inner, value => !operatorMatches inner value
  | .pass, _ => false
  | .unsupported _, _ => false

/-! ### Negation -/

/-- How many `Negated` wrappers an operator has. -/
def Operator.negations : Operator → ℕ
  | .negated inner => inner.negations + 1
  | _ => 0

/-- The operator under its `Negated` wrappers. -/
def Operator.core : Operator → Operator
  | .negated inner => inner.core
  | op => op

/-- **Negations cancel in pairs**: an operator is its core, or the opposite of its core. -/
theorem operatorMatches_eq_core (op : Operator) (value : Str) :
    operatorMatches regex op value =
      (operatorMatches regex op.core value ^^ decide (op.negations % 2 = 1)) := by
  fun_induction Operator.core op with
  | case1 inner ih =>
    rw [operatorMatches, ih, Operator.negations]
    by_cases h : inner.negations % 2 = 1
    · rw [decide_eq_true h, decide_eq_false (by omega)]; simp
    · rw [decide_eq_false h, decide_eq_true (by omega)]; simp
  | case2 op h =>
    have : op.negations = 0 := by
      cases op <;> first | rfl | exact absurd rfl (h _)
    rw [this]; simp

end Crs

end Fywaf
