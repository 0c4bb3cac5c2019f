import Fywaf.Crs.Engine
import Fywaf.Std.Skip

/-!
# What `evaluate` decides

The verdict of the evaluation loop, said without the loop: which entries of the rule list take
effect, and whether their exact scores reach the threshold. Neither the early exit nor the
saturating sum shows in the verdict, because the threshold itself is a `u32`.

The rule list is a sequence with forward skips (`Skips`): a marker places a label, a matching rule
acts, a matching pass rule with `skipAfter` jumps.

## Main definitions

* `Crs.ruleSkips` — the rule list to a reader that skips
* `Crs.Effective`, `Crs.EffectiveBlock` — the declarative reading
* `Crs.exactVerdict` — the loop with an unbounded sum and no early exit

## Main results

* `Crs.step_eq` — everything one pass of the loop body can do
* `Crs.foldl_exactStep` — what the exact loop has at the end
* `Crs.evalLoop_eq_exact` — the loop against the exact one, from any state
* `Crs.evaluate_verdict` — the verdict of `evaluate`
-/

namespace Fywaf

namespace Crs

variable (regex : RegexNew) (ctx : RequestContext) (paranoiaLevel : UInt8)

/-! ### The rule list as a sequence with skips -/

/-- Markers place labels, matching rules act, matching pass rules jump. -/
def ruleSkips : Skips Rule Str where
  label rule := if rule.id = 0 then rule.skipAfter else none
  fires rule :=
    decide (rule.id ≠ 0) && !rule.filtered paranoiaLevel && ruleMatches regex rule ctx
  target rule :=
    match rule.action with
    | .pass => rule.skipAfter
    | .block => none

/-- An entry takes effect when it is a matching rule of an active level and no earlier effective
jump is still looking for its marker. -/
def Effective (rules : List Rule) (i : ℕ) : Prop :=
  ∃ rule, rules[i]? = some rule ∧ rule.id ≠ 0 ∧
    (rule.paranoiaLevel = 0 ∨ rule.paranoiaLevel ≤ paranoiaLevel) ∧
    ruleMatches regex rule ctx = true ∧
    ¬ ∃ j, ∃ _ : j < i, Effective rules j ∧ ∃ jump m, rules[j]? = some jump ∧
      jump.action = .pass ∧ jump.skipAfter = some m ∧
      ¬ ∃ k, j < k ∧ k < i ∧ ∃ marker, rules[k]? = some marker ∧ marker.id = 0 ∧
        marker.skipAfter = some m
termination_by i

/-- An effective entry that blocks. -/
def EffectiveBlock (rules : List Rule) (i : ℕ) : Prop :=
  Effective regex ctx paranoiaLevel rules i ∧ ∃ rule, rules[i]? = some rule ∧ rule.action = .block

variable {paranoiaLevel} in
theorem not_filtered_iff {rule : Rule} : rule.filtered paranoiaLevel = false ↔
    rule.paranoiaLevel = 0 ∨ rule.paranoiaLevel ≤ paranoiaLevel := by
  simp only [Rule.filtered, gt_iff_lt, Bool.and_eq_false_iff, decide_eq_false_iff_not,
    UInt8.lt_iff_toNat_lt, UInt8.le_iff_toNat_le, ← UInt8.toNat_inj, UInt8.toNat_zero]
  omega

theorem fires_iff {rule : Rule} : (ruleSkips regex ctx paranoiaLevel).fires rule = true ↔
    rule.id ≠ 0 ∧ (rule.paranoiaLevel = 0 ∨ rule.paranoiaLevel ≤ paranoiaLevel) ∧
      ruleMatches regex rule ctx = true := by
  simp only [ruleSkips, Bool.and_eq_true, decide_eq_true_eq, Bool.not_eq_true', not_filtered_iff,
    and_assoc]

theorem target_eq_some_iff {rule : Rule} {m : Str} :
    (ruleSkips regex ctx paranoiaLevel).target rule = some m ↔
      rule.action = .pass ∧ rule.skipAfter = some m := by
  rw [ruleSkips]
  cases h : rule.action <;> simp [h]

theorem label_eq_some_iff {rule : Rule} {m : Str} :
    (ruleSkips regex ctx paranoiaLevel).label rule = some m ↔
      rule.id = 0 ∧ rule.skipAfter = some m := by
  rw [ruleSkips]
  by_cases h : rule.id = 0 <;> simp [h]

/-- The declarative reading is the one of sequences with skips. -/
theorem effective_iff (rules : List Rule) (i : ℕ) : Effective regex ctx paranoiaLevel rules i ↔
    (ruleSkips regex ctx paranoiaLevel).Effective rules i := by
  induction i using Nat.strong_induction_on with
  | _ i ih =>
    have hopen : ∀ j m, (ruleSkips regex ctx paranoiaLevel).Open rules i j m ↔
        ∃ jump, rules[j]? = some jump ∧ jump.action = .pass ∧ jump.skipAfter = some m ∧
          ¬ ∃ k, j < k ∧ k < i ∧ ∃ marker, rules[k]? = some marker ∧ marker.id = 0 ∧
            marker.skipAfter = some m := by
      intro j m
      simp only [Skips.Open, target_eq_some_iff, ne_eq, label_eq_some_iff]
      grind
    have hblocked : (∃ j, ∃ _ : j < i, Effective regex ctx paranoiaLevel rules j ∧
          ∃ jump m, rules[j]? = some jump ∧ jump.action = .pass ∧ jump.skipAfter = some m ∧
            ¬ ∃ k, j < k ∧ k < i ∧ ∃ marker, rules[k]? = some marker ∧ marker.id = 0 ∧
              marker.skipAfter = some m) ↔
        ∃ j, ∃ _ : j < i, (ruleSkips regex ctx paranoiaLevel).Effective rules j ∧
          ∃ m, (ruleSkips regex ctx paranoiaLevel).Open rules i j m := by
      refine exists_congr fun j => exists_congr fun hj => ?_
      rw [ih j hj, exists_comm]
      simp only [hopen]
    rw [Effective, Skips.Effective, hblocked]
    simp only [fires_iff]
    constructor
    · rintro ⟨rule, h, hid, hlevel, hmatch, hnot⟩
      exact ⟨⟨rule, h, hid, hlevel, hmatch⟩, hnot⟩
    · rintro ⟨⟨rule, h, hid, hlevel, hmatch⟩, hnot⟩
      exact ⟨rule, h, hid, hlevel, hmatch, hnot⟩

/-! ### One pass of the loop body -/

variable (anomalyThreshold : UInt32)

/-- The rule acts in this state: no jump is pending and it fires. -/
def Acts (st : EvalState) (rule : Rule) : Prop :=
  st.skipUntil = none ∧ (ruleSkips regex ctx paranoiaLevel).fires rule = true

instance (st : EvalState) (rule : Rule) : Decidable (Acts regex ctx paranoiaLevel st rule) :=
  inferInstanceAs (Decidable (_ ∧ _))

/-- A rule that acts does what its action says; any other entry can only end a jump. -/
theorem step_eq (st : EvalState) (rule : Rule) :
    step regex ctx paranoiaLevel anomalyThreshold st rule =
      if Acts regex ctx paranoiaLevel st rule then onMatch anomalyThreshold st rule
      else
        .next { st with
          skipUntil := (ruleSkips regex ctx paranoiaLevel).next st.skipUntil rule } := by
  obtain ⟨score, skipUntil, blocking⟩ := st
  cases skipUntil with
  | none =>
    by_cases hid : rule.id = 0
    · simp [step, Acts, hid, ruleSkips, Skips.next]
    · by_cases hf : rule.filtered paranoiaLevel = true
      · simp [step, Acts, hid, hf, ruleSkips, Skips.next]
      · by_cases hm : ruleMatches regex rule ctx = true <;>
          simp [step, Acts, hid, hf, hm, ruleSkips, Skips.next]
  | some target =>
    by_cases hid : rule.id = 0
    · by_cases hs : rule.skipAfter = some target <;>
        simp [step, Acts, hid, hs, ruleSkips, Skips.next]
    · simp [step, Acts, hid, ruleSkips, Skips.next]

/-- The state after a rule that does not return. -/
def EvalState.after (st : EvalState) (rule : Rule) : EvalState where
  anomalyScore :=
    if Acts regex ctx paranoiaLevel st rule ∧ rule.action = .block then
      saturatingAdd st.anomalyScore rule.score
    else st.anomalyScore
  skipUntil := (ruleSkips regex ctx paranoiaLevel).next st.skipUntil rule
  blockingRule :=
    if Acts regex ctx paranoiaLevel st rule ∧ rule.action = .block then
      st.blockingRule.or (some (rule.id, rule.message))
    else st.blockingRule

/-- **Everything one pass can do**: return the blocking rule, at a rule that blocks and lifts the
score to the threshold, or go on. -/
theorem step_cases (st : EvalState) (rule : Rule) :
    (Acts regex ctx paranoiaLevel st rule ∧ rule.action = .block ∧
      anomalyThreshold ≤ saturatingAdd st.anomalyScore rule.score ∧
      step regex ctx paranoiaLevel anomalyThreshold st rule =
        .ret (st.blockingRule.or (some (rule.id, rule.message)))) ∨
    (¬ (Acts regex ctx paranoiaLevel st rule ∧ rule.action = .block ∧
        anomalyThreshold ≤ saturatingAdd st.anomalyScore rule.score) ∧
      step regex ctx paranoiaLevel anomalyThreshold st rule =
        .next (st.after regex ctx paranoiaLevel rule)) := by
  rw [step_eq]
  by_cases hact : Acts regex ctx paranoiaLevel st rule
  · have hskip : st.skipUntil = none := hact.1
    have hnext : (ruleSkips regex ctx paranoiaLevel).next none rule =
        (ruleSkips regex ctx paranoiaLevel).target rule := by
      rw [Skips.next, if_pos hact.2]
    rw [if_pos hact]
    cases haction : rule.action with
    | pass =>
      have htarget : (ruleSkips regex ctx paranoiaLevel).target rule = rule.skipAfter := by
        simp [ruleSkips, haction]
      refine Or.inr ⟨fun h => Action.noConfusion h.2.1, ?_⟩
      cases hs : rule.skipAfter <;>
        simp [onMatch, EvalState.after, hskip, hnext, htarget, haction, hs]
      rw [← hskip]
    | block =>
      have htarget : (ruleSkips regex ctx paranoiaLevel).target rule = none := by
        simp [ruleSkips, haction]
      by_cases hreach : anomalyThreshold ≤ saturatingAdd st.anomalyScore rule.score
      · exact Or.inl ⟨hact, rfl, hreach, by simp [onMatch, haction, hreach]⟩
      · refine Or.inr ⟨fun h => hreach h.2.2, ?_⟩
        simp [onMatch, haction, hreach, EvalState.after, hact, hskip, hnext, htarget]
  · rw [if_neg hact]
    exact Or.inr ⟨fun h => hact h.1, by simp [EvalState.after, hact]⟩

/-! ### Scores -/

/-- What a rule adds to the exact sum when it acts. -/
def Rule.weight (rule : Rule) : ℕ :=
  match rule.action with
  | .pass => 0
  | .block => rule.score.toNat

theorem toNat_saturatingAdd (a b : UInt32) :
    (saturatingAdd a b).toNat = min (a.toNat + b.toNat) (2 ^ 32 - 1) := by
  rw [saturatingAdd, UInt32.toNat_ofNat', Nat.mod_eq_of_lt]
  omega

/-- A saturated sum of a saturated sum is the saturated sum. -/
theorem toNat_saturatingAdd_of_min {a b : UInt32} {exact : ℕ}
    (h : a.toNat = min exact (2 ^ 32 - 1)) :
    (saturatingAdd a b).toNat = min (exact + b.toNat) (2 ^ 32 - 1) := by
  rw [toNat_saturatingAdd, h]
  omega

/-- A threshold that fits `u32` cannot tell a saturated sum from the exact one. -/
theorem le_saturated_iff {t a : UInt32} {exact : ℕ} (h : a.toNat = min exact (2 ^ 32 - 1)) :
    t ≤ a ↔ t.toNat ≤ exact := by
  have := t.toNat_lt
  rw [UInt32.le_iff_toNat_le, h]
  omega

/-! ### The loop without its shortcuts -/

/-- The state of a loop that sums exactly. -/
structure ExactState where
  anomalyScore : ℕ
  skipUntil : Option Str
  blockingRule : Option (UInt32 × Str)

/-- The loop body with an exact sum and no way out. -/
def exactStep (st : ExactState) (rule : Rule) : ExactState :=
  if rule.id = 0 then
    if st.skipUntil.isSome ∧ rule.skipAfter = st.skipUntil then { st with skipUntil := none }
    else st
  else if st.skipUntil.isSome then st
  else if rule.filtered paranoiaLevel then st
  else if ruleMatches regex rule ctx then
    match rule.action with
    | .pass =>
      match rule.skipAfter with
      | some marker => { st with skipUntil := some marker }
      | none => st
    | .block =>
      { st with
        anomalyScore := st.anomalyScore + rule.score.toNat
        blockingRule := st.blockingRule.or (some (rule.id, rule.message)) }
  else st

/-- The verdict after the whole list. -/
def ExactState.verdict (st : ExactState) : Option (UInt32 × Str) :=
  if anomalyThreshold.toNat ≤ st.anomalyScore then st.blockingRule else none

/-- The verdict of the loop that never exits early and never saturates. -/
def exactVerdict (rules : List Rule) : Option (UInt32 × Str) :=
  (rules.foldl (exactStep regex ctx paranoiaLevel) ⟨0, none, none⟩).verdict anomalyThreshold

/-- The exact loop does what an acting rule says and nothing else. -/
theorem exactStep_eq (st : ExactState) (rule : Rule) :
    exactStep regex ctx paranoiaLevel st rule =
      { anomalyScore :=
          if (st.skipUntil = none ∧ (ruleSkips regex ctx paranoiaLevel).fires rule = true) ∧
              rule.action = .block then st.anomalyScore + rule.score.toNat
          else st.anomalyScore
        skipUntil := (ruleSkips regex ctx paranoiaLevel).next st.skipUntil rule
        blockingRule :=
          if (st.skipUntil = none ∧ (ruleSkips regex ctx paranoiaLevel).fires rule = true) ∧
              rule.action = .block then st.blockingRule.or (some (rule.id, rule.message))
          else st.blockingRule } := by
  obtain ⟨score, skipUntil, blocking⟩ := st
  cases skipUntil with
  | none =>
    by_cases hid : rule.id = 0
    · simp [exactStep, hid, ruleSkips, Skips.next]
    · by_cases hf : rule.filtered paranoiaLevel = true
      · simp [exactStep, hid, hf, ruleSkips, Skips.next]
      · by_cases hm : ruleMatches regex rule ctx = true
        · cases haction : rule.action with
          | pass =>
            cases hs : rule.skipAfter <;>
              simp [exactStep, hid, hf, hm, haction, hs, ruleSkips, Skips.next]
          | block => simp [exactStep, hid, hf, hm, haction, ruleSkips, Skips.next]
        · simp [exactStep, hid, hf, hm, ruleSkips, Skips.next]
  | some target =>
    by_cases hid : rule.id = 0
    · by_cases hs : rule.skipAfter = some target <;>
        simp [exactStep, hid, hs, ruleSkips, Skips.next]
    · simp [exactStep, hid, ruleSkips, Skips.next]

/-- The exact state a saturating state stands for. -/
def EvalState.exactly (st : EvalState) (exact : ℕ) : ExactState :=
  ⟨exact, st.skipUntil, st.blockingRule⟩

/-- A loop pass that does not return keeps the two states together. -/
theorem exactStep_exactly (st : EvalState) (exact : ℕ) (rule : Rule) :
    exactStep regex ctx paranoiaLevel (st.exactly exact) rule =
      (st.after regex ctx paranoiaLevel rule).exactly
        (if Acts regex ctx paranoiaLevel st rule ∧ rule.action = .block then
          exact + rule.score.toNat
        else exact) := by
  rw [exactStep_eq]
  rfl

/-- What `evaluate` says of a rule. -/
def Rule.report (rule : Rule) : UInt32 × Str := (rule.id, rule.message)

/-- **The exact loop sums the weights of the acting rules**, and remembers the first of them that
blocks, unless it had a blocking rule before. -/
theorem foldl_exactStep {rules : List Rule} : ∀ {st : ExactState},
    (rules.foldl (exactStep regex ctx paranoiaLevel) st).anomalyScore = st.anomalyScore +
      (((ruleSkips regex ctx paranoiaLevel).acting st.skipUntil rules).map Rule.weight).sum ∧
    (rules.foldl (exactStep regex ctx paranoiaLevel) st).blockingRule = st.blockingRule.or
      ((((ruleSkips regex ctx paranoiaLevel).acting st.skipUntil rules).find?
        fun rule => rule.action = .block).map Rule.report) := by
  induction rules with
  | nil => intro st; simp [Skips.acting]
  | cons rule rules ih =>
    intro st
    obtain ⟨hsum, hblocking⟩ := @ih (exactStep regex ctx paranoiaLevel st rule)
    rw [List.foldl_cons, hsum, hblocking, exactStep_eq, Skips.acting]
    by_cases hact : st.skipUntil = none ∧ (ruleSkips regex ctx paranoiaLevel).fires rule = true
    · cases haction : rule.action with
      | pass => simp [hact, haction, Rule.weight]
      | block =>
        cases st.blockingRule <;> simp [hact, haction, Rule.weight, Rule.report, Nat.add_assoc]
    · simp [hact]

/-- The exact verdict: the first acting rule that blocks, when the sum reaches the threshold. -/
theorem exactVerdict_eq_some_iff {rules : List Rule} {r : UInt32 × Str} :
    exactVerdict regex ctx paranoiaLevel anomalyThreshold rules = some r ↔
      anomalyThreshold.toNat ≤
          (((ruleSkips regex ctx paranoiaLevel).acting none rules).map Rule.weight).sum ∧
        ∃ rule, ((ruleSkips regex ctx paranoiaLevel).acting none rules).find?
          (fun rule => rule.action = .block) = some rule ∧ rule.report = r := by
  obtain ⟨hsum, hblocking⟩ := @foldl_exactStep regex ctx paranoiaLevel rules ⟨0, none, none⟩
  rw [Nat.zero_add] at hsum
  rw [Option.none_or] at hblocking
  rw [exactVerdict, ExactState.verdict, hsum, hblocking, Option.ite_none_right_eq_some,
    Option.map_eq_some_iff]

/-- The exact loop blocks when an acting rule blocks and the sum reaches the threshold. -/
theorem isSome_exactVerdict_iff {rules : List Rule} :
    (exactVerdict regex ctx paranoiaLevel anomalyThreshold rules).isSome = true ↔
      (∃ rule ∈ (ruleSkips regex ctx paranoiaLevel).acting none rules, rule.action = .block) ∧
        anomalyThreshold.toNat ≤
          (((ruleSkips regex ctx paranoiaLevel).acting none rules).map Rule.weight).sum := by
  rw [Option.isSome_iff_exists]
  simp only [exactVerdict_eq_some_iff]
  constructor
  · rintro ⟨r, hsum, rule, hfind, -⟩
    exact ⟨⟨rule, List.mem_of_find?_eq_some hfind, by simpa using List.find?_some hfind⟩, hsum⟩
  · rintro ⟨⟨rule, hrule, hblock⟩, hsum⟩
    have hsome : (((ruleSkips regex ctx paranoiaLevel).acting none rules).find?
        fun rule => rule.action = .block).isSome = true :=
      List.find?_isSome.mpr ⟨rule, hrule, decide_eq_true hblock⟩
    obtain ⟨first, hfirst⟩ := Option.isSome_iff_exists.mp hsome
    exact ⟨_, hsum, first, hfirst, rfl⟩

/-- Once there is a blocking rule and the threshold is reached, the exact verdict is settled. -/
theorem exact_settled {rules : List Rule} : ∀ {st : ExactState} {r : UInt32 × Str},
    st.blockingRule = some r → anomalyThreshold.toNat ≤ st.anomalyScore →
    (rules.foldl (exactStep regex ctx paranoiaLevel) st).verdict anomalyThreshold = some r := by
  induction rules with
  | nil => intro st r hr hle; rw [List.foldl_nil, ExactState.verdict, if_pos hle, hr]
  | cons rule rules ih =>
    intro st r hr hle
    rw [List.foldl_cons]
    apply ih <;> rw [exactStep_eq]
    · dsimp only
      split <;> simp [hr]
    · dsimp only
      split <;> omega

/-- **The shortcuts do not show**: from corresponding states, below the threshold or without a
blocking rule, the loop and the exact loop give the same verdict. -/
theorem evalLoop_eq_exact {rules : List Rule} : ∀ {st : EvalState} {exact : ℕ},
    st.anomalyScore.toNat = min exact (2 ^ 32 - 1) →
    (st.blockingRule.isSome = true → exact < anomalyThreshold.toNat) →
    evalLoop regex ctx paranoiaLevel anomalyThreshold st rules =
      (rules.foldl (exactStep regex ctx paranoiaLevel) (st.exactly exact)).verdict
        anomalyThreshold := by
  induction rules with
  | nil =>
    intro st exact _ hlow
    rw [evalLoop, List.foldl_nil, ExactState.verdict, EvalState.exactly]
    cases hb : st.blockingRule with
    | none => exact (ite_self _).symm
    | some r => rw [if_neg (Nat.not_le.mpr (hlow (by rw [hb]; rfl)))]
  | cons rule rules ih =>
    intro st exact hst hlow
    have hscore := toNat_saturatingAdd_of_min (b := rule.score) hst
    rw [evalLoop, List.foldl_cons, exactStep_exactly]
    rcases step_cases regex ctx paranoiaLevel anomalyThreshold st rule with
      ⟨hact, haction, hreach, hstep⟩ | ⟨hgo, hstep⟩
    · obtain ⟨r, hr⟩ : ∃ r, st.blockingRule.or (some (rule.id, rule.message)) = some r := by
        cases st.blockingRule <;> exact ⟨_, rfl⟩
      rw [hstep, if_pos ⟨hact, haction⟩]
      refine hr.trans (exact_settled regex ctx paranoiaLevel anomalyThreshold ?_ ?_).symm
      · exact (if_pos ⟨hact, haction⟩).trans hr
      · exact (le_saturated_iff hscore).mp hreach
    · rw [hstep]
      by_cases hblock : Acts regex ctx paranoiaLevel st rule ∧ rule.action = .block
      · have hlt : ¬ anomalyThreshold.toNat ≤ exact + rule.score.toNat :=
          fun h => hgo ⟨hblock.1, hblock.2, (le_saturated_iff hscore).mpr h⟩
        rw [if_pos hblock]
        exact ih ((congrArg UInt32.toNat (if_pos hblock)).trans hscore) fun _ => by omega
      · have hb : (st.after regex ctx paranoiaLevel rule).blockingRule = st.blockingRule :=
          if_neg hblock
        rw [if_neg hblock]
        exact ih ((congrArg UInt32.toNat (if_neg hblock)).trans hst) (hb ▸ hlow)

/-! ### The verdict -/

instance (rules : List Rule) (i : ℕ) : Decidable (Effective regex ctx paranoiaLevel rules i) :=
  decidable_of_iff ((ruleSkips regex ctx paranoiaLevel).ActsAt none rules i) <| by
    rw [Skips.actsAt_iff, effective_iff]

instance (rules : List Rule) (i : ℕ) :
    Decidable (EffectiveBlock regex ctx paranoiaLevel rules i) :=
  decidable_of_iff (Effective regex ctx paranoiaLevel rules i ∧
    (rules[i]?.any fun rule => rule.action = .block) = true) <| by
      simp [EffectiveBlock, Option.any_eq_true]

/-- The positions of the blocking entries that take effect. -/
def effectiveBlocks (rules : List Rule) : Finset ℕ :=
  (Finset.range rules.length).filter (EffectiveBlock regex ctx paranoiaLevel rules)

theorem mem_effectiveBlocks {rules : List Rule} {i : ℕ} :
    i ∈ effectiveBlocks regex ctx paranoiaLevel rules ↔
      EffectiveBlock regex ctx paranoiaLevel rules i := by
  rw [effectiveBlocks, Finset.mem_filter, Finset.mem_range, and_iff_right_iff_imp]
  rintro ⟨-, rule, h, -⟩
  exact (List.getElem?_eq_some_iff.mp h).1

/-- The blocking rules among the acting ones are the rules at the effective blocking positions. -/
theorem exists_acting_block_iff (rules : List Rule) :
    (∃ rule ∈ (ruleSkips regex ctx paranoiaLevel).acting none rules, rule.action = .block) ↔
      (effectiveBlocks regex ctx paranoiaLevel rules).Nonempty := by
  simp only [Skips.mem_acting_iff, Skips.actsAt_iff, ← effective_iff, Finset.Nonempty,
    mem_effectiveBlocks, EffectiveBlock]
  grind

/-- The weights of the acting rules add up to the scores at the effective blocking positions. -/
theorem sum_weight_acting (rules : List Rule) :
    (((ruleSkips regex ctx paranoiaLevel).acting none rules).map Rule.weight).sum =
      ∑ i ∈ effectiveBlocks regex ctx paranoiaLevel rules,
        rules[i]?.elim 0 fun rule => rule.score.toNat := by
  rw [Skips.sum_acting, effectiveBlocks, Finset.sum_filter]
  refine Finset.sum_congr rfl fun i _ => ?_
  have hacts := (Skips.actsAt_iff (S := ruleSkips regex ctx paranoiaLevel) rules i).trans
    (effective_iff regex ctx paranoiaLevel rules i).symm
  cases hi : rules[i]? with
  | none => simp
  | some rule =>
    cases haction : rule.action <;>
      simp [EffectiveBlock, hacts, hi, haction, Rule.weight]

/-- `evaluate` names the rule that the loop without early exit and without saturation names. -/
theorem evaluate_eq_exact (rules : List Rule) :
    evaluate regex ctx paranoiaLevel anomalyThreshold rules =
      exactVerdict regex ctx paranoiaLevel anomalyThreshold rules := by
  have hinit : EvalState.init.anomalyScore.toNat = min 0 (2 ^ 32 - 1) := rfl
  exact evalLoop_eq_exact regex ctx paranoiaLevel anomalyThreshold hinit fun h => by cases h

/-- **The verdict of `evaluate`.** It blocks exactly when some blocking entry takes effect and the
exact scores of all of them reach the threshold; and it names the rule that the loop without
early exit and without saturation names. -/
theorem evaluate_verdict (rules : List Rule) :
    ((evaluate regex ctx paranoiaLevel anomalyThreshold rules).isSome = true ↔
      (effectiveBlocks regex ctx paranoiaLevel rules).Nonempty ∧
        anomalyThreshold.toNat ≤ ∑ i ∈ effectiveBlocks regex ctx paranoiaLevel rules,
          rules[i]?.elim 0 fun rule => (rule.anomalyScore.getD 5).toNat) ∧
    evaluate regex ctx paranoiaLevel anomalyThreshold rules =
      exactVerdict regex ctx paranoiaLevel anomalyThreshold rules := by
  have hexact := evaluate_eq_exact regex ctx paranoiaLevel anomalyThreshold rules
  refine ⟨?_, hexact⟩
  rw [hexact, isSome_exactVerdict_iff, exists_acting_block_iff, sum_weight_acting]
  rfl

end Crs

end Fywaf
