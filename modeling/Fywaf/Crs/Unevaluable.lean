import Fywaf.Crs.EvaluateSpec

/-!
# Operators the engine cannot evaluate

An operator the engine does not know, a libinjection operator, or a pattern that does not compile
is a non-match. `Negated` turns that non-match into a match: under an odd number of negations such
an operator accepts every value, and the rule that carries it can fire on requests nobody meant
it for.

## Main definitions

* `Crs.Unevaluable` — the operator is one of these, under any negations
* `Crs.Inert` — when a rule cannot change what happens to a request

## Main results

* `Crs.conditionMatches_of_unevaluable` — the parity of the negations decides the condition
* `Crs.evaluate_remove_iff` — taking a rule away changes no verdict exactly when it is inert
-/

namespace Fywaf

namespace Crs

variable (regex : RegexNew)

/-- The engine cannot evaluate the operator under the negations. -/
def Unevaluable (op : Operator) : Prop :=
  match op.core with
  | .unsupported _ => True
  | .detectXss => True
  | .detectSqli => True
  | .rx pattern => regex pattern = none
  | _ => False

/-- The conditions of a rule: its own and the chained ones. -/
def Rule.conditions (rule : Rule) : List ChainedRule :=
  ⟨rule.vars, rule.operator, rule.transforms⟩ :: rule.chained

/-- One condition of a rule, on a request. -/
def ChainedRule.holds (cond : ChainedRule) (ctx : RequestContext) : Bool :=
  conditionMatches regex cond.vars cond.operator cond.transforms ctx

theorem ruleMatches_iff {rule : Rule} {ctx : RequestContext} :
    ruleMatches regex rule ctx = true ↔ ∀ cond ∈ rule.conditions, cond.holds regex ctx = true := by
  simp [ruleMatches, Rule.conditions, ChainedRule.holds]

/-! ### Parity -/

variable {regex}

/-- What cannot be evaluated does not match, before negations. -/
theorem operatorMatches_core {op : Operator} (h : Unevaluable regex op) (value : Str) :
    operatorMatches regex op.core value = false := by
  rw [Unevaluable] at h
  split at h
  case h_1 name hc => rw [hc, operatorMatches]
  case h_2 hc => rw [hc, operatorMatches]
  case h_3 hc => rw [hc, operatorMatches]
  case h_4 pattern hc => rw [hc, operatorMatches, rxMatch, h]
  case h_5 => exact h.elim

/-- **Parity decides**: under an even number of negations such a condition never holds, and under
an odd number it holds as soon as its variables have a value at all. -/
theorem conditionMatches_of_unevaluable {cond : ChainedRule} (h : Unevaluable regex cond.operator)
    (ctx : RequestContext) : cond.holds regex ctx = true ↔
      cond.operator.negations % 2 = 1 ∧ resolveVariables cond.vars ctx ≠ [] := by
  have hop : ∀ value, operatorMatches regex cond.operator value =
      decide (cond.operator.negations % 2 = 1) := fun value => by
    rw [operatorMatches_eq_core, operatorMatches_core h, Bool.false_xor]
  rw [ChainedRule.holds, conditionMatches]
  simp only [hop, List.any_eq_true, decide_eq_true_eq]
  constructor
  · rintro ⟨value, hvalue, hodd⟩
    exact ⟨hodd, List.ne_nil_of_mem hvalue⟩
  · rintro ⟨hodd, hne⟩
    obtain ⟨value, hvalue⟩ := List.exists_mem_of_ne_nil _ hne
    exact ⟨value, hvalue, hodd⟩

/-! ### Taking a rule away -/

section Remove

variable {ctx : RequestContext} {paranoiaLevel : UInt8} {anomalyThreshold : UInt32}

/-- A rule that leaves every state as it is can be taken out of the list. -/
theorem evalLoop_remove {rule : Rule} {post : List Rule}
    (h : ∀ st, step regex ctx paranoiaLevel anomalyThreshold st rule = .next st) :
    ∀ (pre : List Rule) (st : EvalState),
      evalLoop regex ctx paranoiaLevel anomalyThreshold st (pre ++ rule :: post) =
        evalLoop regex ctx paranoiaLevel anomalyThreshold st (pre ++ post) := by
  intro pre
  induction pre with
  | nil => intro st; rw [List.nil_append, evalLoop, h, List.nil_append]
  | cons r pre ih =>
    intro st
    rw [List.cons_append, List.cons_append, evalLoop, evalLoop]
    cases step regex ctx paranoiaLevel anomalyThreshold st r with
    | next st' => exact ih st'
    | ret blocking => rfl

/-- A rule with an id that never fires leaves every state as it is. -/
theorem step_of_not_fires {rule : Rule} (hid : rule.id ≠ 0)
    (h : (ruleSkips regex ctx paranoiaLevel).fires rule = false) (st : EvalState) :
    step regex ctx paranoiaLevel anomalyThreshold st rule = .next st := by
  rw [step_eq, if_neg fun hact => by rw [hact.2] at h; cases h]
  cases hs : st.skipUntil with
  | none => rw [Skips.next, h, ← hs]; rfl
  | some m =>
    have hlabel : (ruleSkips regex ctx paranoiaLevel).label rule ≠ some m := fun hl =>
      hid ((label_eq_some_iff regex ctx paranoiaLevel).mp hl).1
    rw [Skips.next, if_neg hlabel, ← hs]

/-- A pass rule without a jump leaves every state as it is. -/
theorem step_of_pass {rule : Rule} (hid : rule.id ≠ 0) (haction : rule.action = .pass)
    (hskip : rule.skipAfter = none) (st : EvalState) :
    step regex ctx paranoiaLevel anomalyThreshold st rule = .next st := by
  by_cases h : (ruleSkips regex ctx paranoiaLevel).fires rule = true
  · cases hs : st.skipUntil with
    | none => rw [step_eq, if_pos ⟨hs, h⟩, onMatch, haction, hskip]
    | some m => simp [step, hid, hs]
  · exact step_of_not_fires hid (Bool.not_eq_true _ ▸ h) st

/-- The rule is switched off, has nothing to do, or has a condition that cannot hold here. A
condition that cannot be evaluated cannot hold under an even number of negations, nor without a
value to look at. -/
def Inert (regex : RegexNew) (ctx : RequestContext) (paranoiaLevel : UInt8) (rule : Rule) : Prop :=
  rule.filtered paranoiaLevel = true ∨
    (rule.action = .pass ∧ rule.skipAfter = none) ∨
    ∃ cond ∈ rule.conditions,
      (Unevaluable regex cond.operator ∧
        (cond.operator.negations % 2 = 0 ∨ resolveVariables cond.vars ctx = [])) ∨
      (¬ Unevaluable regex cond.operator ∧ cond.holds regex ctx = false)

theorem exists_not_holds_iff {rule : Rule} : (∃ cond ∈ rule.conditions,
      (Unevaluable regex cond.operator ∧
        (cond.operator.negations % 2 = 0 ∨ resolveVariables cond.vars ctx = [])) ∨
      (¬ Unevaluable regex cond.operator ∧ cond.holds regex ctx = false)) ↔
    ruleMatches regex rule ctx = false := by
  rw [← Bool.not_eq_true, ruleMatches_iff]
  push Not
  refine exists_congr fun cond => and_congr_right fun _ => ?_
  by_cases h : Unevaluable regex cond.operator
  · simp only [h, true_and, not_true_eq_false, false_and, or_false, ne_eq,
      conditionMatches_of_unevaluable h, not_and_or, not_not]
    exact or_congr_left (by omega)
  · simp only [h, false_and, not_false_eq_true, true_and, false_or, ne_eq, Bool.not_eq_true]

/-- An inert rule does nothing, whatever is around it. -/
theorem step_of_inert {rule : Rule} (hid : rule.id ≠ 0) (h : Inert regex ctx paranoiaLevel rule)
    (st : EvalState) : step regex ctx paranoiaLevel anomalyThreshold st rule = .next st := by
  rcases h with hf | ⟨haction, hskip⟩ | hnot
  · exact step_of_not_fires hid (by simp [ruleSkips, hf]) st
  · exact step_of_pass hid haction hskip st
  · exact step_of_not_fires hid (by simp [ruleSkips, exists_not_holds_iff.mp hnot]) st

/-- A rule with an id that fires and blocks reaches the threshold `0` on its own. -/
theorem evaluate_blocking_cons {rule : Rule} {rules : List Rule} (hid : rule.id ≠ 0)
    (hlevel : rule.filtered paranoiaLevel = false) (hmatch : ruleMatches regex rule ctx = true)
    (haction : rule.action = .block) :
    evaluate regex ctx paranoiaLevel 0 (rule :: rules) = some (rule.id, rule.message) := by
  have hle : ∀ n : UInt32, (0 : UInt32) ≤ n := fun n => by
    rw [UInt32.le_iff_toNat_le]
    exact Nat.zero_le _
  simp [evaluate, evalLoop, step, EvalState.init, hid, hlevel, hmatch, onMatch, haction, hle]

/-- The rule, blocking. -/
def Rule.blockingTwin (rule : Rule) : Rule := { rule with action := .block }

/-- A rule that fires and jumps passes over its own blocking twin. -/
theorem evaluate_jump_twin {rule : Rule} {m : Str} (hid : rule.id ≠ 0)
    (hlevel : rule.filtered paranoiaLevel = false) (hmatch : ruleMatches regex rule ctx = true)
    (haction : rule.action = .pass) (hskip : rule.skipAfter = some m) :
    evaluate regex ctx paranoiaLevel 0 [rule, rule.blockingTwin] = none := by
  have hjump : step regex ctx paranoiaLevel 0 EvalState.init rule = .next ⟨0, some m, none⟩ := by
    simp [step, EvalState.init, hid, hlevel, hmatch, onMatch, haction, hskip]
  have hpassed : step regex ctx paranoiaLevel 0 ⟨0, some m, none⟩ rule.blockingTwin =
      .next ⟨0, some m, none⟩ := by
    simp [step, show rule.blockingTwin.id ≠ 0 from hid]
  rw [evaluate, evalLoop, hjump]
  simp [evalLoop, hpassed]

/-- A rule that is not inert is noticed in some list: a blocking one on its own, one that jumps in
front of its blocking twin. -/
theorem exists_evaluate_ne {rule : Rule} (hid : rule.id ≠ 0)
    (h : ¬ Inert regex ctx paranoiaLevel rule) : ∃ post,
      evaluate regex ctx paranoiaLevel 0 (rule :: post) ≠
        evaluate regex ctx paranoiaLevel 0 post := by
  rw [Inert, exists_not_holds_iff] at h
  push Not at h
  obtain ⟨hlevel, haction, hmatch⟩ := h
  rw [ne_eq, Bool.not_eq_true] at hlevel
  rw [ne_eq, Bool.not_eq_false] at hmatch
  cases ha : rule.action with
  | block =>
    refine ⟨[], ?_⟩
    rw [evaluate_blocking_cons hid hlevel hmatch ha]
    exact Option.some_ne_none _
  | pass =>
    obtain ⟨m, hm⟩ := Option.ne_none_iff_exists'.mp (haction ha)
    have htwin : evaluate regex ctx paranoiaLevel 0 [rule.blockingTwin] =
        some (rule.id, rule.message) :=
      @evaluate_blocking_cons _ _ _ rule.blockingTwin [] hid hlevel hmatch rfl
    refine ⟨[rule.blockingTwin], ?_⟩
    rw [evaluate_jump_twin hid hlevel hmatch ha hm, htwin]
    exact (Option.some_ne_none _).symm

/-- **Taking a rule away changes no verdict exactly when it is inert.** In particular a rule with
an operator that cannot be evaluated goes unnoticed when that operator is under an even number of
negations; under an odd number it fires whenever the rest of the rule holds. -/
theorem evaluate_remove_iff {rule : Rule} (hid : rule.id ≠ 0) :
    (∀ pre post anomalyThreshold,
      evaluate regex ctx paranoiaLevel anomalyThreshold (pre ++ rule :: post) =
        evaluate regex ctx paranoiaLevel anomalyThreshold (pre ++ post)) ↔
      Inert regex ctx paranoiaLevel rule := by
  constructor
  · intro h
    by_contra hnot
    obtain ⟨post, hne⟩ := exists_evaluate_ne hid hnot
    exact hne (h [] post 0)
  · intro h pre post anomalyThreshold
    exact evalLoop_remove (step_of_inert hid h) pre EvalState.init

/-- `SecRule REQUEST_URI "!@detectXSS" "id:100,phase:2,deny"`. -/
def negatedXssRule : Rule where
  id := 100
  phase := .two
  vars := [.requestUri]
  operator := .negated .detectXss
  transforms := []
  action := .block
  msg := none
  tags := []
  severity := none
  chained := []
  skipAfter := none
  anomalyScore := none
  paranoiaLevel := 0

/-- `GET /` without headers. -/
def plainContext : RequestContext where
  method := "GET".toList
  path := "/".toList
  query := none
  userAgent := none
  headers := .empty
  body := none

/-- The rule `negatedXssRule` blocks a plain request, and without it nothing does. -/
theorem negatedXss_fires : ¬ ∀ (regex : RegexNew) (pre post : List Rule) (rule : Rule)
    (ctx : RequestContext) (paranoiaLevel : UInt8) (anomalyThreshold : UInt32), rule.id ≠ 0 →
    (∃ cond ∈ rule.conditions, Unevaluable regex cond.operator) →
    evaluate regex ctx paranoiaLevel anomalyThreshold (pre ++ rule :: post) =
      evaluate regex ctx paranoiaLevel anomalyThreshold (pre ++ post) := by
  intro h
  have := h (fun _ => none) [] [] negatedXssRule plainContext 1 5 (by decide)
    ⟨_, List.mem_cons_self, trivial⟩
  exact absurd this (by decide)

/-- `negatedXssRule` at paranoia level `1` is noticed. -/
theorem evaluate_remove_negatedXss : negatedXssRule.id ≠ 0 ∧
    ((∀ pre post anomalyThreshold,
      evaluate (fun _ => none) plainContext 1 anomalyThreshold (pre ++ negatedXssRule :: post) =
        evaluate (fun _ => none) plainContext 1 anomalyThreshold (pre ++ post)) ↔
      Inert (fun _ => none) plainContext 1 negatedXssRule) :=
  ⟨by decide, evaluate_remove_iff (by decide)⟩

end Remove

end Crs

end Fywaf
