import Fywaf.Crs.Exclusion
import Fywaf.Crs.Shields

/-!
# Changes to a rule set

A rule set changes: rules come in, rules are made to match more or to weigh more, and rules move.
The jumps between the rules and the sum over them make it less than obvious what a change does to a
request that was blocked before. Changes that leave every jump as it was do what they seem to do:
what acted before still acts, with no smaller score, and the order of what acts does not matter.

## Main definitions

* `Crs.Rule.Broader` — a blocking rule that matches more, weighs more, or is on at more levels
* `Crs.Hardens` — rules made broader, and rules added, anywhere in a rule set
* `Crs.Reorders` — rules in another order between the markers and the jumps

## Main results

* `Crs.ruleMatches_broader` — more variables and fewer links match more
* `Crs.acting_hardened` — what acts before and after
* `Crs.evaluate_hardened` — what was blocked stays blocked
* `Crs.isSome_evaluate_reordered` — the order of the rules does not decide what is blocked
-/

namespace Fywaf

namespace Crs

/-- The rule is no marker, and does not jump. -/
def Rule.IsPlain (rule : Rule) : Prop :=
  rule.id ≠ 0 ∧ (rule.action = .pass → rule.skipAfter = none)

/-- Both rules block, and the second looks at no fewer values, asks for no more conditions, has no
smaller score and is on at no fewer levels. -/
structure Rule.Broader (rule rule' : Rule) : Prop where
  id_ne_zero : rule.id ≠ 0
  id_ne_zero' : rule'.id ≠ 0
  block : rule.action = .block
  block' : rule'.action = .block
  vars : rule.vars ⊆ rule'.vars
  exclude : excludeHeaders rule'.vars ⊆ excludeHeaders rule.vars
  operator : rule'.operator = rule.operator
  transforms : rule'.transforms = rule.transforms
  chained : rule'.chained ⊆ rule.chained
  score : rule.score ≤ rule'.score
  level : rule'.paranoiaLevel = 0 ∨
    (rule.paranoiaLevel ≠ 0 ∧ rule'.paranoiaLevel ≤ rule.paranoiaLevel)

/-- Some rules were made broader and some were added. -/
inductive Hardens : List Rule → List Rule → Prop
  | nil : Hardens [] []
  | keep (rule : Rule) {rules rules' : List Rule} (h : Hardens rules rules') :
    Hardens (rule :: rules) (rule :: rules')
  | broaden {rule rule' : Rule} (hbroader : rule.Broader rule') {rules rules' : List Rule}
    (h : Hardens rules rules') : Hardens (rule :: rules) (rule' :: rules')
  | add {rule : Rule} (hplain : rule.IsPlain) {rules rules' : List Rule}
    (h : Hardens rules rules') : Hardens rules (rule :: rules')

/-- Neighbours have changed places, neither of them a marker nor a rule that jumps. -/
inductive Reorders : List Rule → List Rule → Prop
  | refl (rules : List Rule) : Reorders rules rules
  | swap {rule rule' : Rule} (hplain : rule.IsPlain) (hplain' : rule'.IsPlain)
    (rules : List Rule) : Reorders (rule :: rule' :: rules) (rule' :: rule :: rules)
  | cons (rule : Rule) {rules rules' : List Rule} (h : Reorders rules rules') :
    Reorders (rule :: rules) (rule :: rules')
  | trans {rules rules' rules'' : List Rule} (h : Reorders rules rules')
    (h' : Reorders rules' rules'') : Reorders rules rules''

variable {regex : RegexNew} {ctx : RequestContext} {paranoiaLevel : UInt8}
  {anomalyThreshold : UInt32} {rules rules' : List Rule}

/-! ### One rule -/

/-- More variables, with no more exclusions, have more values. -/
theorem conditionMatches_mono {vars vars' : List Variable} (hvars : vars ⊆ vars')
    (hexclude : excludeHeaders vars' ⊆ excludeHeaders vars) {operator : Operator}
    {transforms : List Transform}
    (h : conditionMatches regex vars operator transforms ctx = true) :
    conditionMatches regex vars' operator transforms ctx = true := by
  rw [conditionMatches, List.any_eq_true] at h ⊢
  obtain ⟨value, hvalue, hmatch⟩ := h
  obtain ⟨var, hvar, hmem⟩ := mem_resolveVariables.mp hvalue
  have hmem' : value ∈ resolveVariable ctx (excludeHeaders vars') var :=
    resolveVariable_mono (fun _ hname => hexclude hname) hmem
  exact ⟨value, mem_resolveVariables.mpr ⟨var, hvars hvar, hmem'⟩, hmatch⟩

/-- **A broader rule matches more.** -/
theorem ruleMatches_broader {rule rule' : Rule} (hbroader : rule.Broader rule')
    (h : ruleMatches regex rule ctx = true) : ruleMatches regex rule' ctx = true := by
  rw [ruleMatches, Bool.and_eq_true, List.all_eq_true] at h ⊢
  obtain ⟨hown, hlinks⟩ := h
  refine ⟨?_, fun link hlink => hlinks link (hbroader.chained hlink)⟩
  rw [hbroader.operator, hbroader.transforms]
  exact conditionMatches_mono hbroader.vars hbroader.exclude hown

/-- A broader rule is on at more levels. -/
theorem not_filtered_broader {rule rule' : Rule} (hbroader : rule.Broader rule')
    (h : rule.filtered paranoiaLevel = false) : rule'.filtered paranoiaLevel = false := by
  rw [not_filtered_iff] at h ⊢
  rcases hbroader.level with hzero | ⟨hne, hle⟩
  · exact Or.inl hzero
  · rcases h with hzero | hlevel
    · exact absurd hzero hne
    · rw [UInt8.le_iff_toNat_le] at hle hlevel ⊢
      exact Or.inr (hle.trans hlevel)

theorem fires_broader {rule rule' : Rule} (hbroader : rule.Broader rule')
    (h : (ruleSkips regex ctx paranoiaLevel).fires rule = true) :
    (ruleSkips regex ctx paranoiaLevel).fires rule' = true := by
  simp only [ruleSkips, Bool.and_eq_true, Bool.not_eq_true', decide_eq_true_eq] at h ⊢
  exact ⟨⟨hbroader.id_ne_zero', not_filtered_broader hbroader h.1.2⟩,
    ruleMatches_broader hbroader h.2⟩

/-- A plain rule leaves the jumps as they are. -/
theorem next_of_isPlain {rule : Rule} (hplain : rule.IsPlain) (st : Option Str) :
    (ruleSkips regex ctx paranoiaLevel).next st rule = st := by
  have htarget : (ruleSkips regex ctx paranoiaLevel).target rule = none := by
    refine Option.eq_none_iff_forall_ne_some.mpr fun m hm => ?_
    obtain ⟨hpass, hskip⟩ := (target_eq_some_iff regex ctx paranoiaLevel).mp hm
    rw [hplain.2 hpass] at hskip
    cases hskip
  exact Skips.next_of_plain _ (if_neg hplain.1) htarget st

/-- A rule that blocks is plain. -/
theorem isPlain_of_block {rule : Rule} (hid : rule.id ≠ 0) (hblock : rule.action = .block) :
    rule.IsPlain :=
  ⟨hid, fun hpass => by rw [hblock] at hpass; cases hpass⟩

/-! ### Rule sets -/

/-- What acts after a change in the place of what acted before: it blocks as well, and weighs no
less. -/
def Rule.Outweighs (rule rule' : Rule) : Prop :=
  (rule.action = .block → rule'.action = .block) ∧ rule.weight ≤ rule'.weight

theorem Rule.Broader.outweighs {rule rule' : Rule} (hbroader : rule.Broader rule') :
    rule.Outweighs rule' := by
  refine ⟨fun _ => hbroader.block', ?_⟩
  rw [Rule.weight, Rule.weight, hbroader.block, hbroader.block']
  exact UInt32.le_iff_toNat_le.mp hbroader.score

variable (regex ctx paranoiaLevel) in
/-- **What acts before and after.** Each rule that acted still acts, or a broader one in its place,
and others may act beside them. -/
theorem acting_hardened (h : Hardens rules rules') (st : Option Str) :
    List.SublistForall₂ Rule.Outweighs ((ruleSkips regex ctx paranoiaLevel).acting st rules)
      ((ruleSkips regex ctx paranoiaLevel).acting st rules') := by
  induction h generalizing st with
  | nil => exact .nil
  | keep rule h ih =>
    rw [Skips.acting, Skips.acting]
    split
    · exact .cons ⟨id, le_rfl⟩ (ih _)
    · exact ih _
  | @broaden rule rule' hbroader rules rules' h ih =>
    rw [Skips.acting, Skips.acting,
      next_of_isPlain (isPlain_of_block hbroader.id_ne_zero hbroader.block),
      next_of_isPlain (isPlain_of_block hbroader.id_ne_zero' hbroader.block')]
    by_cases hact : st = none ∧ (ruleSkips regex ctx paranoiaLevel).fires rule = true
    · rw [if_pos hact, if_pos ⟨hact.1, fires_broader hbroader hact.2⟩]
      exact .cons hbroader.outweighs (ih st)
    · rw [if_neg hact]
      split
      · exact .cons_right (ih st)
      · exact ih st
  | add hplain h ih =>
    rw [Skips.acting, next_of_isPlain hplain]
    split
    · exact .cons_right (ih st)
    · exact ih st

/-- **What was blocked stays blocked** when a rule set is hardened, for every request, level and
threshold. -/
theorem evaluate_hardened (hhardens : Hardens rules rules')
    (h : (evaluate regex ctx paranoiaLevel anomalyThreshold rules).isSome = true) :
    (evaluate regex ctx paranoiaLevel anomalyThreshold rules').isSome = true := by
  rw [isSome_evaluate_iff] at h ⊢
  have hacting := acting_hardened regex ctx paranoiaLevel hhardens none
  generalize (ruleSkips regex ctx paranoiaLevel).acting none rules = acting at h hacting
  generalize (ruleSkips regex ctx paranoiaLevel).acting none rules' = acting' at hacting ⊢
  obtain ⟨⟨rule, hrule, hblock⟩, hsum⟩ := h
  obtain ⟨between, hforall, hsub⟩ := List.sublistForall₂_iff.mp hacting
  constructor
  · obtain ⟨rule', hrule', hout⟩ := exists_of_forall₂_left hforall hrule
    exact ⟨rule', hsub.subset hrule', hout.1 hblock⟩
  · have hbetween : (acting.map Rule.weight).sum ≤ (between.map Rule.weight).sum := by
      refine List.Forall₂.sum_le_sum (List.forall₂_map_left_iff.mpr
        (List.forall₂_map_right_iff.mpr (hforall.imp fun _ _ hout => hout.2)))
    calc anomalyThreshold.toNat
        ≤ (acting.map Rule.weight).sum := hsum
      _ ≤ (between.map Rule.weight).sum := hbetween
      _ ≤ (acting'.map Rule.weight).sum :=
        (hsub.map Rule.weight).sum_le_sum fun _ _ => Nat.zero_le _

/-- `slashRule` over the whole request, for a higher score. -/
def widerRule : Rule :=
  { slashRule with vars := [.requestUri, .requestBody], anomalyScore := some 6 }

/-- What `slashRule` blocks is blocked behind another rule, and by a broader one. -/
theorem evaluate_hardened_slash : (evaluate (fun _ => none) formContext 1 5
    [{ slashRule with id := 2, action := .pass }, widerRule]).isSome = true := by
  have hbroader : slashRule.Broader widerRule := by
    constructor <;> decide
  have h : (evaluate (fun _ => none) formContext 1 5 [slashRule]).isSome = true := by
    decide
  exact evaluate_hardened (.add ⟨by decide, fun _ => rfl⟩ (.broaden hbroader .nil)) h

/-! ### The order of the rules -/

variable (regex ctx paranoiaLevel) in
/-- **The same rules act**, in some order. -/
theorem acting_reordered (h : Reorders rules rules') (st : Option Str) :
    ((ruleSkips regex ctx paranoiaLevel).acting st rules).Perm
      ((ruleSkips regex ctx paranoiaLevel).acting st rules') := by
  induction h generalizing st with
  | refl => exact .refl _
  | swap hplain hplain' rules =>
    simp only [Skips.acting, next_of_isPlain hplain, next_of_isPlain hplain']
    split_ifs
    · exact .swap _ _ _
    · exact .refl _
    · exact .refl _
    · exact .refl _
  | cons rule h ih =>
    rw [Skips.acting, Skips.acting]
    split
    · exact (ih _).cons rule
    · exact ih _
  | trans h h' ih ih' => exact (ih st).trans (ih' st)

/-- **The order of the rules does not decide what is blocked**, between the markers and the rules
that jump, for any request, level and threshold. -/
theorem isSome_evaluate_reordered (h : Reorders rules rules') :
    (evaluate regex ctx paranoiaLevel anomalyThreshold rules).isSome =
      (evaluate regex ctx paranoiaLevel anomalyThreshold rules').isSome :=
  isSome_evaluate_of_perm (acting_reordered regex ctx paranoiaLevel h none)

/-- Two rules of which only one blocks can change places. -/
theorem isSome_evaluate_swapped :
    (evaluate (fun _ => none) formContext 1 5
      [{ slashRule with id := 2, action := .pass }, slashRule]).isSome =
    (evaluate (fun _ => none) formContext 1 5
      [slashRule, { slashRule with id := 2, action := .pass }]).isSome :=
  isSome_evaluate_reordered
    (.swap ⟨by decide, fun _ => rfl⟩ (isPlain_of_block (by decide) rfl) [])

end Crs

end Fywaf
