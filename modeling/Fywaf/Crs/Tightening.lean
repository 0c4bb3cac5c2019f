import Fywaf.Crs.EvaluateSpec

/-!
# Tightening the configuration

A higher paranoia level switches more rules on, and a lower threshold is reached sooner. Neither
can let a request through that was blocked, as long as the level switches no jump: then the same
entries are passed over at both levels, and the rules that act at the lower one act at the higher
one as well.

## Main definitions

* `Crs.JumpsAtEveryLevel` — no jump depends on the paranoia level

## Main results

* `Crs.ruleSkips_extends` — a higher level acts more often and jumps alike
* `Crs.evaluate_tighten` — what was blocked stays blocked
-/

namespace Fywaf

namespace Crs

variable {regex : RegexNew} {ctx : RequestContext} {paranoiaLevel paranoiaLevel' : UInt8}
  {anomalyThreshold anomalyThreshold' : UInt32} {rules : List Rule}

/-- Every pass rule that jumps is on at every level, as the control rules of the rule set are. -/
def JumpsAtEveryLevel (rules : List Rule) : Prop :=
  ∀ rule ∈ rules, rule.action = .pass → rule.skipAfter ≠ none → rule.paranoiaLevel = 0

theorem not_filtered_of_le {rule : Rule} (hle : paranoiaLevel ≤ paranoiaLevel')
    (h : rule.filtered paranoiaLevel = false) : rule.filtered paranoiaLevel' = false := by
  rw [not_filtered_iff] at h ⊢
  rw [UInt8.le_iff_toNat_le] at hle h ⊢
  exact h.imp_right fun h => h.trans hle

theorem not_filtered_of_zero {rule : Rule} (h : rule.paranoiaLevel = 0) (paranoiaLevel : UInt8) :
    rule.filtered paranoiaLevel = false := not_filtered_iff.mpr (Or.inl h)

variable (regex ctx) in
/-- **A higher level acts more often and jumps alike.** -/
theorem ruleSkips_extends (hjumps : JumpsAtEveryLevel rules)
    (hle : paranoiaLevel ≤ paranoiaLevel') :
    Skips.Extends (ruleSkips regex ctx paranoiaLevel) (ruleSkips regex ctx paranoiaLevel')
      rules where
  label _ _ := rfl
  target _ _ := rfl
  fires rule _ h := by
    simp only [ruleSkips, Bool.and_eq_true, Bool.not_eq_true'] at h ⊢
    exact ⟨⟨h.1.1, not_filtered_of_le hle h.1.2⟩, h.2⟩
  jumps rule hrule h := by
    obtain ⟨m, hm⟩ := Option.ne_none_iff_exists'.mp h
    obtain ⟨hpass, hskip⟩ := (target_eq_some_iff regex ctx paranoiaLevel).mp hm
    have hzero := hjumps rule hrule hpass (by rw [hskip]; exact Option.some_ne_none m)
    simp only [ruleSkips, not_filtered_of_zero hzero]

/-- The verdict in terms of the acting rules. -/
theorem isSome_evaluate_iff : (evaluate regex ctx paranoiaLevel anomalyThreshold rules).isSome =
    true ↔
      (∃ rule ∈ (ruleSkips regex ctx paranoiaLevel).acting none rules, rule.action = .block) ∧
        anomalyThreshold.toNat ≤
          (((ruleSkips regex ctx paranoiaLevel).acting none rules).map Rule.weight).sum := by
  rw [evaluate_eq_exact, isSome_exactVerdict_iff]

/-- **What was blocked stays blocked** at a higher paranoia level and a lower threshold. -/
theorem evaluate_tighten (hjumps : JumpsAtEveryLevel rules)
    (hlevel : paranoiaLevel ≤ paranoiaLevel') (hthreshold : anomalyThreshold' ≤ anomalyThreshold)
    (h : (evaluate regex ctx paranoiaLevel anomalyThreshold rules).isSome = true) :
    (evaluate regex ctx paranoiaLevel' anomalyThreshold' rules).isSome = true := by
  rw [isSome_evaluate_iff] at h ⊢
  have hsub : ((ruleSkips regex ctx paranoiaLevel).acting none rules).Sublist
      ((ruleSkips regex ctx paranoiaLevel').acting none rules) :=
    (ruleSkips_extends regex ctx hjumps hlevel).acting_sublist
  obtain ⟨⟨rule, hrule, hblock⟩, hsum⟩ := h
  refine ⟨⟨rule, hsub.subset hrule, hblock⟩, ?_⟩
  calc anomalyThreshold'.toNat
      ≤ anomalyThreshold.toNat := UInt32.le_iff_toNat_le.mp hthreshold
    _ ≤ (((ruleSkips regex ctx paranoiaLevel).acting none rules).map Rule.weight).sum := hsum
    _ ≤ (((ruleSkips regex ctx paranoiaLevel').acting none rules).map Rule.weight).sum :=
      (hsub.map Rule.weight).sum_le_sum fun _ _ => Nat.zero_le _

/-- `SecRule REQUEST_URI "@beginsWith /" "id:1,phase:2,deny,tag:'paranoia-level/1'"`. -/
def slashRule : Rule where
  id := 1
  phase := .two
  vars := [.requestUri]
  operator := .beginsWith ['/']
  transforms := []
  action := .block
  msg := none
  tags := ["paranoia-level/1".toList]
  severity := none
  chained := []
  skipAfter := none
  anomalyScore := none
  paranoiaLevel := 1

/-- A post to `/` with one parameter. -/
def formContext : RequestContext where
  method := "POST".toList
  path := ['/']
  query := some "a=b".toList
  userAgent := none
  headers := .empty
  body := none

/-- `slashRule` blocks at level 2 and threshold 4, since it does at level 1 and threshold 5. -/
theorem evaluate_tighten_slash :
    (evaluate (fun _ => none) formContext 2 4 [slashRule]).isSome = true := by
  have hjumps : JumpsAtEveryLevel [slashRule] := by
    intro rule hrule hpass
    rw [List.mem_singleton.mp hrule] at hpass
    cases hpass
  have h : (evaluate (fun _ => none) formContext 1 5 [slashRule]).isSome = true := by
    decide
  exact evaluate_tighten hjumps (by decide) (by decide) h

end Crs

end Fywaf
