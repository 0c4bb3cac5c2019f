import Fywaf.Crs.Tightening

/-!
# Rules that block alone

A rule set blocks when the scores of what has matched reach the threshold, so most rules only
contribute, and any rule may be jumped over. A rule that scores enough by itself, and in front of
which every jump has ended, blocks whatever it matches, whatever stands around it.

## Main definitions

* `Crs.JumpsEnd` — rules with a marker behind every jump
* `Crs.Shields` — a rule that blocks alone

## Main results

* `Crs.ruleMatches_of_allowed` — what is let through does not match such a rule
-/

namespace Fywaf

namespace Crs

/-- The marker that the rule can jump to. -/
def Rule.jump (rule : Rule) : Option Str :=
  if rule.id ≠ 0 ∧ rule.action = .pass then rule.skipAfter else none

/-- Behind every rule that can jump is the marker that it jumps to. -/
def JumpsEnd : List Rule → Prop
  | [] => True
  | rule :: rules =>
    (∀ m ∈ rule.jump, ∃ marker ∈ rules, marker.id = 0 ∧ marker.skipAfter = some m) ∧ JumpsEnd rules

instance decidableJumpsEnd : (rules : List Rule) → Decidable (JumpsEnd rules)
  | [] => inferInstanceAs (Decidable True)
  | _ :: rules =>
    have := decidableJumpsEnd rules
    inferInstanceAs (Decidable (_ ∧ _))

/-- The rule is on at the level and scores the threshold, and the rules in front of it do not jump
over it. -/
structure Shields (rules : List Rule) (paranoiaLevel : UInt8) (anomalyThreshold : UInt32)
    (rule : Rule) : Prop where
  reached : ∃ before after, rules = before ++ rule :: after ∧ JumpsEnd before
  id_ne_zero : rule.id ≠ 0
  block : rule.action = .block
  level : rule.filtered paranoiaLevel = false
  score : anomalyThreshold ≤ rule.score

variable {regex : RegexNew} {ctx : RequestContext} {paranoiaLevel : UInt8}
  {anomalyThreshold : UInt32} {rules : List Rule} {rule : Rule}

/-- What acts is what counts, in any order. -/
theorem isSome_evaluate_of_perm {rules' : List Rule}
    (h : ((ruleSkips regex ctx paranoiaLevel).acting none rules).Perm
      ((ruleSkips regex ctx paranoiaLevel).acting none rules')) :
    (evaluate regex ctx paranoiaLevel anomalyThreshold rules).isSome =
      (evaluate regex ctx paranoiaLevel anomalyThreshold rules').isSome := by
  rw [Bool.eq_iff_iff, isSome_evaluate_iff, isSome_evaluate_iff, (h.map Rule.weight).sum_eq]
  simp only [h.mem_iff]

variable (regex ctx paranoiaLevel) in
/-- Rules whose jumps end leave nothing to skip. -/
theorem stateAfter_of_jumpsEnd (h : JumpsEnd rules) :
    (ruleSkips regex ctx paranoiaLevel).stateAfter none rules = none := by
  have hclosed : (ruleSkips regex ctx paranoiaLevel).Closed rules := by
    induction rules with
    | nil => trivial
    | cons rule rules ih =>
      refine ⟨fun m hfires htarget => ?_, ih h.2⟩
      obtain ⟨hid, -⟩ := (fires_iff regex ctx paranoiaLevel).mp hfires
      obtain ⟨hpass, hskip⟩ := (target_eq_some_iff regex ctx paranoiaLevel).mp htarget
      have hjump : rule.jump = some m := by rw [Rule.jump, if_pos ⟨hid, hpass⟩, hskip]
      obtain ⟨marker, hmarker, hlabel⟩ := h.1 m hjump
      exact ⟨marker, hmarker, (label_eq_some_iff regex ctx paranoiaLevel).mpr hlabel⟩
  exact Skips.stateAfter_of_closed _ hclosed fun m hm => by cases hm

/-- A rule that blocks alone acts whenever it matches. -/
theorem Shields.mem_acting (h : Shields rules paranoiaLevel anomalyThreshold rule)
    (hmatch : ruleMatches regex rule ctx = true) :
    rule ∈ (ruleSkips regex ctx paranoiaLevel).acting none rules := by
  obtain ⟨before, after, rfl, hends⟩ := h.reached
  refine Skips.mem_acting_of_stateAfter (stateAfter_of_jumpsEnd regex ctx paranoiaLevel hends) ?_
  exact (fires_iff regex ctx paranoiaLevel).mpr ⟨h.id_ne_zero, not_filtered_iff.mp h.level, hmatch⟩

/-- **What is let through does not match a rule that blocks alone.** -/
theorem ruleMatches_of_allowed (h : Shields rules paranoiaLevel anomalyThreshold rule)
    (hnone : evaluate regex ctx paranoiaLevel anomalyThreshold rules = none) :
    ruleMatches regex rule ctx = false := by
  refine eq_false_of_ne_true fun hmatch => ?_
  have hacting := h.mem_acting hmatch
  have hsum : anomalyThreshold.toNat ≤
      (((ruleSkips regex ctx paranoiaLevel).acting none rules).map Rule.weight).sum :=
    calc anomalyThreshold.toNat
        ≤ rule.score.toNat := UInt32.le_iff_toNat_le.mp h.score
      _ = rule.weight := by rw [Rule.weight, h.block]
      _ ≤ _ := List.le_sum_of_mem (List.mem_map_of_mem hacting)
  have hblocks := isSome_evaluate_iff.mpr ⟨⟨rule, hacting, h.block⟩, hsum⟩
  rw [hnone] at hblocks
  cases hblocks

end Crs

end Fywaf
