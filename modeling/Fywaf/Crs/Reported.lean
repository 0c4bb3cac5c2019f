import Fywaf.Crs.EvaluateSpec

/-!
# The rule that is reported

`evaluate` promises the rule that makes the score reach the threshold. It remembers the first rule
that blocks, and reports that one whenever the threshold is reached, by whichever rule. The two
are the same when the first one reaches the threshold alone.

## Main definitions

* `Crs.totalScore`, `Crs.scoreBefore` — the score, at the end and in front of an entry
* `Crs.Crosses` — an entry makes the score reach the threshold
* `Crs.ReportsCrossing` — what is reported is such an entry
* `Crs.FirstSuffices` — the first entry that blocks is such an entry

## Main results

* `Crs.evaluate_eq_some_iff` — what is reported
* `Crs.reportsCrossing_iff` — exactly when it is the rule that was promised
-/

namespace Fywaf

namespace Crs

variable (regex : RegexNew) (ctx : RequestContext) (paranoiaLevel : UInt8)
  (anomalyThreshold : UInt32) (rules : List Rule)

/-! ### Scores along the list -/

/-- The score of the entry at a position. -/
def scoreAt (i : ℕ) : ℕ := rules[i]?.elim 0 fun rule => rule.score.toNat

/-- The exact score of all blocking entries that take effect. -/
def totalScore : ℕ := ∑ i ∈ effectiveBlocks regex ctx paranoiaLevel rules, scoreAt rules i

/-- The exact score of those strictly before a position. -/
def scoreBefore (i : ℕ) : ℕ :=
  ∑ j ∈ (effectiveBlocks regex ctx paranoiaLevel rules).filter (· < i), scoreAt rules j

/-- The entry blocks, takes effect, and makes the score reach the threshold. -/
def Crosses (i : ℕ) : Prop :=
  EffectiveBlock regex ctx paranoiaLevel rules i ∧
    scoreBefore regex ctx paranoiaLevel rules i < anomalyThreshold.toNat ∧
    anomalyThreshold.toNat ≤ scoreBefore regex ctx paranoiaLevel rules i + scoreAt rules i

/-- The first blocking entry that takes effect. -/
def FirstBlock (i : ℕ) : Prop :=
  EffectiveBlock regex ctx paranoiaLevel rules i ∧
    ∀ j < i, ¬ EffectiveBlock regex ctx paranoiaLevel rules j

variable {regex ctx paranoiaLevel anomalyThreshold rules}

theorem scoreBefore_first {i : ℕ} (h : FirstBlock regex ctx paranoiaLevel rules i) :
    scoreBefore regex ctx paranoiaLevel rules i = 0 := by
  have hnone : (effectiveBlocks regex ctx paranoiaLevel rules).filter (· < i) = ∅ := by
    apply Finset.filter_eq_empty_iff.mpr
    intro j hj hlt
    exact h.2 j hlt ((mem_effectiveBlocks regex ctx paranoiaLevel).mp hj)
  rw [scoreBefore, hnone, Finset.sum_empty]

/-- The first entry that blocks crosses the threshold when it reaches it alone, and the threshold
was not reached already, being zero. -/
theorem crosses_first_iff {i : ℕ} {rule : Rule} (h : FirstBlock regex ctx paranoiaLevel rules i)
    (hrule : rules[i]? = some rule) : Crosses regex ctx paranoiaLevel anomalyThreshold rules i ↔
      0 < anomalyThreshold.toNat ∧ anomalyThreshold.toNat ≤ rule.score.toNat := by
  rw [Crosses, scoreBefore_first h, scoreAt, hrule, Option.elim_some, Nat.zero_add,
    and_iff_right h.1]

/-! ### What is reported -/

/-- The first acting rule that blocks stands at the first effective position that does. -/
theorem find?_acting_block_iff {rule : Rule} :
    ((ruleSkips regex ctx paranoiaLevel).acting none rules).find?
        (fun rule => rule.action = .block) = some rule ↔
      ∃ i, FirstBlock regex ctx paranoiaLevel rules i ∧ rules[i]? = some rule := by
  rw [Skips.find?_acting_eq_some_iff]
  simp only [Skips.actsAt_iff, ← effective_iff, decide_eq_true_eq, decide_eq_false_iff_not]
  refine exists_congr fun i => ?_
  constructor
  · rintro ⟨heff, hrule, hblock, hbefore⟩
    refine ⟨⟨⟨heff, rule, hrule, hblock⟩, ?_⟩, hrule⟩
    rintro j hj ⟨heff', other, hother, hblock'⟩
    exact hbefore j hj heff' other hother hblock'
  · rintro ⟨⟨⟨heff, rule', hrule', hblock⟩, hbefore⟩, hrule⟩
    obtain rfl := Option.some.inj (hrule'.symm.trans hrule)
    exact ⟨heff, hrule, hblock, fun j hj heff' other hother hblock' =>
      hbefore j hj ⟨heff', other, hother, hblock'⟩⟩

/-- **What is reported**: the first entry that blocks, when the total reaches the threshold. -/
theorem evaluate_eq_some_iff {r : UInt32 × Str} :
    evaluate regex ctx paranoiaLevel anomalyThreshold rules = some r ↔
      anomalyThreshold.toNat ≤ totalScore regex ctx paranoiaLevel rules ∧
        ∃ i rule, FirstBlock regex ctx paranoiaLevel rules i ∧ rules[i]? = some rule ∧
          rule.report = r := by
  rw [evaluate_eq_exact, exactVerdict_eq_some_iff, sum_weight_acting]
  refine and_congr_right fun _ => ?_
  simp only [find?_acting_block_iff]
  constructor
  · rintro ⟨rule, ⟨i, hfirst, hrule⟩, hr⟩
    exact ⟨i, rule, hfirst, hrule, hr⟩
  · rintro ⟨i, rule, hfirst, hrule, hr⟩
    exact ⟨rule, ⟨i, hfirst, hrule⟩, hr⟩

variable (regex ctx paranoiaLevel anomalyThreshold rules)

/-- Whatever is reported, it is an entry that makes the score reach the threshold. -/
def ReportsCrossing : Prop :=
  ∀ r, evaluate regex ctx paranoiaLevel anomalyThreshold rules = some r →
    ∃ i rule, rules[i]? = some rule ∧ rule.report = r ∧
      Crosses regex ctx paranoiaLevel anomalyThreshold rules i

/-- When the total reaches the threshold, the threshold is not zero and the score of the first
entry that blocks reaches it alone; or a later entry that crosses it has the same id and the same
message. -/
def FirstSuffices : Prop :=
  ∀ i rule, FirstBlock regex ctx paranoiaLevel rules i → rules[i]? = some rule →
    anomalyThreshold.toNat ≤ totalScore regex ctx paranoiaLevel rules →
    (0 < anomalyThreshold.toNat ∧ anomalyThreshold.toNat ≤ rule.score.toNat) ∨
      ∃ j other, i < j ∧ rules[j]? = some other ∧ other.report = rule.report ∧
        Crosses regex ctx paranoiaLevel anomalyThreshold rules j

/-- **Exactly when the rule that was promised is reported.** -/
theorem reportsCrossing_iff :
    ReportsCrossing regex ctx paranoiaLevel anomalyThreshold rules ↔
      FirstSuffices regex ctx paranoiaLevel anomalyThreshold rules := by
  constructor
  · intro h i rule hfirst hrule htotal
    obtain ⟨j, other, hother, hreport, hcross⟩ :=
      h rule.report (evaluate_eq_some_iff.mpr ⟨htotal, i, rule, hfirst, hrule, rfl⟩)
    rcases Nat.lt_trichotomy j i with hlt | rfl | hlt
    · exact absurd hcross.1 (hfirst.2 j hlt)
    · exact Or.inl ((crosses_first_iff hfirst hrule).mp hcross)
    · exact Or.inr ⟨j, other, hlt, hother, hreport, hcross⟩
  · intro h r hr
    obtain ⟨htotal, i, rule, hfirst, hrule, rfl⟩ := evaluate_eq_some_iff.mp hr
    rcases h i rule hfirst hrule htotal with hreach | ⟨j, other, -, hother, hreport, hcross⟩
    · exact ⟨i, rule, hrule, rfl, (crosses_first_iff hfirst hrule).mpr hreach⟩
    · exact ⟨j, other, hother, hreport, hcross⟩

/-- `SecRule REQUEST_METHOD "@streq GET" "id:<id>,phase:2,deny,msg:'<msg>'"` with the score of a
warning. -/
def warningRule (id : UInt32) (msg : Str) : Rule where
  id := id
  phase := .two
  vars := [.requestMethod]
  operator := .streq "GET".toList
  transforms := []
  action := .block
  msg := some msg
  tags := []
  severity := none
  chained := []
  skipAfter := none
  anomalyScore := some 3
  paranoiaLevel := 0

/-- `GET /` without headers. -/
def getContext : RequestContext where
  method := "GET".toList
  path := ['/']
  query := none
  userAgent := none
  headers := .empty
  body := none

/-- Of two warnings the first is reported at threshold 5, and the second reaches it. -/
theorem warnings_report_first : ¬ ∀ (regex : RegexNew) (ctx : RequestContext)
    (paranoiaLevel : UInt8) (anomalyThreshold : UInt32) (rules : List Rule),
    ReportsCrossing regex ctx paranoiaLevel anomalyThreshold rules := by
  intro h
  have hreport : evaluate (fun _ => none) getContext 1 5
      [warningRule 1 ['a'], warningRule 2 ['b']] = some (1, ['a']) := by decide
  obtain ⟨i, rule, hrule, hsame, -, -, hreach⟩ := h _ _ _ _ _ _ hreport
  match i, hrule with
  | 0, hrule =>
    have hlow : scoreBefore (fun _ => none) getContext 1
        [warningRule 1 ['a'], warningRule 2 ['b']] 0 = 0 := Finset.sum_eq_zero (by simp)
    rw [hlow] at hreach
    exact absurd hreach (by decide)
  | 1, hrule =>
    obtain rfl := Option.some.inj hrule
    exact absurd hsame (by decide)

end Crs

end Fywaf
