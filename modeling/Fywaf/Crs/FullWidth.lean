import Fywaf.Crs.Guest
import Fywaf.Crs.Reported

/-!
# The threshold at full width

The threshold of a profile is a 64-bit number, the score a saturating 32-bit sum. A threshold the
sum cannot reach should be as good as the largest one it can; the guest cuts it to its lower 32
bits instead, so a very high threshold may be a very low one.

## Main definitions

* `Crs.RespectsThreshold` — a request is blocked at its threshold, or at the largest score
* `Crs.WidthSafe` — the lower 32 bits tell the same as the threshold

## Main results

* `Crs.blocks_iff` — when the guest blocks
* `Crs.respectsThreshold_iff` — exactly when the threshold is respected
-/

namespace Fywaf

namespace Crs

variable (regex : RegexNew) (rules : List Rule) (req : Request)

/-- The guest does not let the request through. -/
def Blocks : Prop := (runRules regex (some rules) req).allow = false

/-- The score that the rules give a request. -/
def Request.score : ℕ := totalScore regex req.context req.paranoiaLevel rules

/-- Some blocking rule takes effect on a request. -/
def HasEffectiveBlock : Prop := (effectiveBlocks regex req.context req.paranoiaLevel rules).Nonempty

/-- The request is blocked when a blocking rule takes effect and the scores add up to the threshold
`n`, or to the largest value of the score when `n` is larger. -/
def RespectsThreshold (n : ℕ) : Prop :=
  Blocks regex rules req ↔
    HasEffectiveBlock regex rules req ∧ min n (2 ^ 32 - 1) ≤ req.score regex rules

/-- The lower 32 bits of the threshold `n` tell the same as `n`: there are no others, or nothing
takes effect, or the score is below the lower bits, or it is the largest. -/
def WidthSafe (n : ℕ) : Prop :=
  n < 2 ^ 32 ∨ ¬ HasEffectiveBlock regex rules req ∨ req.score regex rules < n % 2 ^ 32 ∨
    2 ^ 32 - 1 ≤ req.score regex rules

/-- The two requests are the same to the rules, at the same level. -/
structure SameButThreshold (req req' : Request) : Prop where
  context : req'.context = req.context
  paranoiaLevel : req'.paranoiaLevel = req.paranoiaLevel

variable {regex rules req}

/-- **When the guest blocks**: at the lower 32 bits of the threshold. -/
theorem blocks_iff {n : ℕ} (h : req.param "anomaly_threshold" = some n) :
    Blocks regex rules req ↔
      HasEffectiveBlock regex rules req ∧ n % 2 ^ 32 ≤ req.score regex rules := by
  have hthreshold : req.anomalyThreshold.toNat = n % 2 ^ 32 := by
    rw [Request.anomalyThreshold, h, Option.map_some, Option.getD_some, UInt32.toNat_ofNat']
  have hverdict : (evaluate regex req.context req.paranoiaLevel req.anomalyThreshold rules).isSome =
      true ↔ HasEffectiveBlock regex rules req ∧ n % 2 ^ 32 ≤ req.score regex rules := by
    rw [evaluate_eq_exact, isSome_exactVerdict_iff, exists_acting_block_iff, sum_weight_acting,
      hthreshold]
    rfl
  rw [← hverdict, Blocks, runRules]
  cases evaluate regex req.context req.paranoiaLevel req.anomalyThreshold rules with
  | none => simp [Decision.allowed]
  | some r => simp [Decision.blocked]

/-- **Exactly when the threshold is respected**; and a request that is let through at a threshold
is let through at a higher one that is respected. -/
theorem respectsThreshold_iff {n : ℕ} (h : req.param "anomaly_threshold" = some n) :
    (RespectsThreshold regex rules req n ↔ WidthSafe regex rules req n) ∧
    ∀ req' n', SameButThreshold req req' → req'.param "anomaly_threshold" = some n' → n ≤ n' →
      WidthSafe regex rules req' n' → ¬ Blocks regex rules req → ¬ Blocks regex rules req' := by
  constructor
  · rw [RespectsThreshold, blocks_iff h, WidthSafe]
    by_cases hblock : HasEffectiveBlock regex rules req
    · simp only [hblock, true_and, not_true_eq_false, false_or]
      omega
    · simp [hblock]
  · intro req' n' hsame h' hle hsafe hallowed hblocked
    have hblock : HasEffectiveBlock regex rules req' ↔ HasEffectiveBlock regex rules req := by
      rw [HasEffectiveBlock, HasEffectiveBlock, hsame.context, hsame.paranoiaLevel]
    have hscore : req'.score regex rules = req.score regex rules := by
      rw [Request.score, Request.score, hsame.context, hsame.paranoiaLevel]
    rw [blocks_iff h] at hallowed
    rw [blocks_iff h', hblock, hscore] at hblocked
    rw [WidthSafe, hblock, hscore] at hsafe
    -- the lower threshold was not reached, so the score is not the largest
    have hlow : req.score regex rules < n % 2 ^ 32 := by
      by_contra hle
      exact hallowed ⟨hblocked.1, Nat.not_lt.mp hle⟩
    rcases hsafe with hsafe | hsafe | hsafe | hsafe
    · omega
    · exact hsafe hblocked.1
    · omega
    · omega

/-- `GET /` with a threshold. -/
def thresholdRequest (n : ℕ) : Request where
  method := "GET".toList
  path := ['/']
  query := none
  userAgent := none
  headers := .empty
  body := none
  params := BTreeMap.empty.insert "anomaly_threshold".toList (.int false n)

theorem param_thresholdRequest (n : ℕ) :
    (thresholdRequest n).param "anomaly_threshold" = some n := rfl

/-- A request with threshold 5, and the same with threshold 6. -/
theorem respectsThreshold_five :
    (RespectsThreshold (fun _ => none) [warningRule 1 ['a']] (thresholdRequest 5) 5 ↔
      WidthSafe (fun _ => none) [warningRule 1 ['a']] (thresholdRequest 5) 5) ∧
    (¬ Blocks (fun _ => none) [warningRule 1 ['a']] (thresholdRequest 5) →
      ¬ Blocks (fun _ => none) [warningRule 1 ['a']] (thresholdRequest 6)) := by
  obtain ⟨hiff, hraise⟩ := @respectsThreshold_iff (fun _ => none) [warningRule 1 ['a']] _ _
    (param_thresholdRequest 5)
  exact ⟨hiff, hraise (thresholdRequest 6) 6 ⟨rfl, rfl⟩ (param_thresholdRequest 6) (by decide)
    (Or.inl (by decide))⟩

/-- A threshold of `2 ^ 32` blocks a request with a single warning. -/
theorem wide_threshold_blocks : ¬ ∀ (regex : RegexNew) (rules : List Rule) (req : Request) (n : ℕ),
    req.param "anomaly_threshold" = some n → RespectsThreshold regex rules req n := by
  intro h
  have hblocks : Blocks (fun _ => none) [warningRule 1 ['a']] (thresholdRequest (2 ^ 32)) := by
    rw [Blocks]
    decide
  have hhigh := ((h _ _ _ _ (param_thresholdRequest (2 ^ 32))).mp hblocks).2
  have hlow : (thresholdRequest (2 ^ 32)).score (fun _ => none) [warningRule 1 ['a']] ≤ 3 := by
    rw [Request.score]
    decide
  have hmin : min (2 ^ 32) (2 ^ 32 - 1) = 4294967295 := rfl
  omega

end Crs

end Fywaf
