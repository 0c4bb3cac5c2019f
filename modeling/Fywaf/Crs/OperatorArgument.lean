import Fywaf.Crs.NoPanic
import Fywaf.Crs.WrittenLine

/-!
# The argument of an operator

The operator of a rule stands in quotes, and the parser drops them before it reads the operator. It
drops every quote at the ends, so an escaped quote that ends the argument goes with the one that
closes the field, and the pattern ends in a bare backslash instead.

## Main definitions

* `Crs.rxField`, `Crs.rxBody` — a rule that searches for a pattern
* `Crs.KeepsArgument` — the rule that is read searches for the pattern that was written

## Main results

* `Crs.operator_rxField` — the pattern that is read
* `Crs.keepsArgument_iff` — exactly when the argument survives
-/

namespace Fywaf

namespace Crs

/-- The operator field `"@rx a"`. -/
def rxField (a : Str) : Str := '"' :: ("@rx ".toList ++ (a ++ ['"']))

/-- The body of a rule line: `V "@rx a" "A"`. -/
def rxBody (vars a actions : Str) : Str :=
  vars ++ ' ' :: (rxField a ++ ' ' :: '"' :: (actions ++ ['"']))

/-- A word without quotes. -/
structure IsVariablesToken (vars : Str) : Prop where
  ne_nil : vars ≠ []
  plain : ∀ c ∈ vars, isWhitespace c = false ∧ c ≠ '"'

/-- The text can stand in quotes as the argument of an operator. -/
structure IsArgument (a : Str) : Prop where
  ne_nil : a ≠ []
  clean : CleanEnds isWhitespace a
  quoted : QuotedBody '\\' '"' a

/-- The body is read as a rule that searches for `a`. -/
def KeepsArgument (vars a actions : Str) : Prop :=
  ∃ r, parseSecrule (rxBody vars a actions) = .ok (some r) ∧ r.1.operator = .rx a

section Argument

variable {a : Str}

/-- The pattern is the one written, unless that ends in a quote. -/
theorem trimEnd_eq_self_iff : trimEndMatches (· == '"') a = a ↔ a.getLast? ≠ some '"' := by
  rw [trimEndMatches, List.rdropWhile_eq_self_iff]
  constructor
  · intro h hlast
    obtain ⟨front, rfl⟩ := List.getLast?_eq_some_iff.mp hlast
    exact h (by simp) (by simp)
  · intro h hne hlast
    rw [beq_iff_eq] at hlast
    exact h (by rw [List.getLast?_eq_some_getLast hne, hlast])

/-- What is in front of a quote at the end ends in a backslash. -/
theorem getLast?_of_openEnd (h : OpenEnd '\\' a) : a.getLast? = some '\\' := by
  rcases List.eq_nil_or_concat' a with rfl | ⟨init, c, rfl⟩
  · exact absurd h not_openEnd_nil
  · rw [(openEnd_concat.mp h).1, List.getLast?_concat]

/-- At most one quote is dropped with the one that closes the field. -/
theorem argument_cases (h : QuotedBody '\\' '"' a) :
    (a.getLast? ≠ some '"' ∧ trimEndMatches (· == '"') a = a) ∨
      ∃ front, a = front ++ ['"'] ∧ front.getLast? = some '\\' ∧
        trimEndMatches (· == '"') a = front := by
  by_cases hlast : a.getLast? = some '"'
  · obtain ⟨front, rfl⟩ := List.getLast?_eq_some_iff.mp hlast
    have hescape := getLast?_of_openEnd (h.escaped front [] rfl)
    refine Or.inr ⟨front, rfl, hescape, ?_⟩
    have hdrop : trimEndMatches (· == '"') (front ++ ['"']) = trimEndMatches (· == '"') front :=
      trimEndMatches_append_blank fun c hc => by simpa using hc
    rw [hdrop, trimEnd_eq_self_iff.mpr (by rw [hescape]; decide)]
  · exact Or.inl ⟨hlast, trimEnd_eq_self_iff.mpr hlast⟩

/-- What is left of the argument has clean ends. -/
theorem IsArgument.trimEnd (h : IsArgument a) : trimEndMatches (· == '"') a ≠ [] ∧
    CleanEnds isWhitespace (trimEndMatches (· == '"') a) := by
  rcases argument_cases h.quoted with ⟨-, heq⟩ | ⟨front, rfl, hescape, heq⟩
  · rw [heq]
    exact ⟨h.ne_nil, h.clean⟩
  · have hne : front ≠ [] := by
      rintro rfl
      cases hescape
    rw [heq]
    refine ⟨hne, fun c hc => ?_, fun c hc => ?_⟩
    · exact h.clean.head c (by rw [List.head?_append_of_ne_nil _ hne]; exact hc)
    · obtain rfl := Option.some.inj (hescape.symm.trans hc)
      decide

/-- A search without quotes is read as it stands. -/
theorem parseOperator_rx (h : CleanEnds isWhitespace a) :
    parseOperator ('@' :: ("rx".toList ++ ' ' :: a)) = (.rx a, false) := by
  have hplain : ∀ c ∈ "rx".toList, isAsciiWhitespace c = false := forall_mem_of_all (by decide)
  have hsplit := operatorName_at hplain (by decide : isAsciiWhitespace ' ' = true) a
  have htrim : trim a = a := trimMatches_of_cleanEnds h
  have hfold : toLowercase "rx".toList = "rx".toList := by decide
  have hnegated : (('@' :: ("rx".toList ++ ' ' :: a)).head? == some '!') = false := rfl
  rw [htrim] at hsplit
  rw [parseOperator, hnegated, if_neg Bool.false_ne_true, hsplit]
  dsimp only
  rw [hfold, if_pos rfl]

/-- **The pattern that is read**: the argument without quotes at its end. -/
theorem operator_rxField (h : IsArgument a) (vars : List Variable) (actionsRaw : Str) :
    (buildRule vars (rxField a) actionsRaw).1.operator =
      .rx (trimEndMatches (· == '"') a) := by
  obtain ⟨hne, hclean⟩ := h.trimEnd
  have houter : trim (rxField a) = rxField a := by
    refine trimMatches_of_cleanEnds ?_
    rw [rxField, ← List.append_assoc]
    exact cleanEnds_quoted (by decide) _
  have hquotes : trimMatches (· == '"') (rxField a) =
      "@rx ".toList ++ trimEndMatches (· == '"') a := by
    have hword : CleanEnds (· == '"') "@rx ".toList :=
      cleanEnds_of_forall (forall_mem_of_all (by decide))
    have hfield : rxField a = ['"'] ++ ("@rx ".toList ++ (a ++ ['"'])) := rfl
    rw [hfield, trimMatches_word hword (by decide) (by simp)]
    exact congrArg ("@rx ".toList ++ ·) (trimEndMatches_append_blank fun c hc => by simpa using hc)
  have hinner : trim ("@rx ".toList ++ trimEndMatches (· == '"') a) =
      "@rx ".toList ++ trimEndMatches (· == '"') a := by
    refine trimMatches_of_cleanEnds (cleanEnds_append (by decide) hne (fun c hc => ?_) hclean.last)
    obtain rfl : '@' = c := Option.some.inj hc
    decide
  rw [buildRule, houter, hquotes, hinner]
  have hop : parseOperator ("@rx ".toList ++ trimEndMatches (· == '"') a) =
      (.rx (trimEndMatches (· == '"') a), false) := parseOperator_rx hclean
  rw [hop]
  rfl

variable {vars actions : Str}

/-- The fields of the body are the ones written. -/
theorem secruleFields_rxBody (hvars : IsVariablesToken vars) (hactions : ActionsText actions) :
    secruleFields (rxBody vars a actions) = .ok (some (vars, rxField a, actions)) := by
  have hblank : ∀ c ∈ vars, isAsciiWhitespace c = false := by
    intro c hc
    rw [← Bool.not_eq_true]
    intro hascii
    have hwhite := isWhitespace_of_isAsciiWhitespace hascii
    rw [(hvars.plain c hc).1] at hwhite
    cases hwhite
  have hclean : CleanEnds isWhitespace (rxField a) := by
    rw [rxField, ← List.append_assoc]
    exact cleanEnds_quoted (by decide) _
  have hopen : ¬ OpenEnd '\\' (rxField a ++ [' ']) :=
    fun h => absurd (openEnd_concat.mp h).1 (by decide)
  have hhead : ∀ c ∈ vars.head?, isWhitespace c = false :=
    fun c hc => (hvars.plain c (List.mem_of_mem_head? hc)).1
  exact @secruleFields_written vars [] (rxField a) [' '] actions [] ' ' hvars.ne_nil hhead hblank
    (by decide) (List.forall_mem_nil _) (List.cons_ne_nil _ _) hclean
    (forall_mem_of_all (by decide)) hopen hactions (List.forall_mem_nil _)

/-- The rule that is read searches for what is left of the argument. -/
theorem operator_of_rxBody (hvars : IsVariablesToken vars) (ha : IsArgument a)
    (hactions : ActionsText actions) {r : Rule × Bool}
    (h : parseSecrule (rxBody vars a actions) = .ok (some r)) :
    r.1.operator = .rx (trimEndMatches (· == '"') a) := by
  obtain ⟨_, _, _, vs, hread, -, rfl⟩ := parseSecrule_eq_some_iff.mp h
  cases (secruleFields_rxBody hvars hactions).symm.trans hread
  exact operator_rxField ha vs actions

/-- **Exactly when the argument survives**: when it does not end in a quote, and the variables do
not make the parser panic. -/
theorem keepsArgument_iff (hvars : IsVariablesToken vars) (ha : IsArgument a)
    (hactions : ActionsText actions) : KeepsArgument vars a actions ↔
      (∀ part ∈ vars.splitOn '|', ¬ CutsHeaderName (variableName (trim part))) ∧
        a.getLast? ≠ some '"' := by
  have hfields := secruleFields_rxBody (a := a) hvars hactions
  rw [← exists_parseVariables_iff, ← trimEnd_eq_self_iff]
  constructor
  · rintro ⟨r, hparse, hop⟩
    have hleft := operator_of_rxBody hvars ha hactions hparse
    obtain ⟨_, _, _, vs, hread, hvs, -⟩ := parseSecrule_eq_some_iff.mp hparse
    cases hfields.symm.trans hread
    exact ⟨⟨vs, hvs⟩, Operator.rx.inj (hleft.symm.trans hop)⟩
  · rintro ⟨⟨vs, hvs⟩, hkeep⟩
    refine ⟨buildRule vs (rxField a) actions,
      parseSecrule_eq_some_iff.mpr ⟨_, _, _, vs, hfields, hvs, rfl⟩, ?_⟩
    rw [operator_rxField ha, hkeep]

end Argument

/-- The pattern `say \"hi\"`. -/
def quotedPattern : Str := "say \\\"hi\\\"".toList

/-- A text with clean ends whose quotes are all escaped, as it is checked. -/
theorem isArgument_of_check {a : Str} (hne : a ≠ [])
    (hhead : a.head?.all (fun c => !isWhitespace c) = true)
    (hlast : a.getLast?.all (fun c => !isWhitespace c) = true)
    (hquoted : passesQuotes '\\' '"' a = true) : IsArgument a where
  ne_nil := hne
  clean :=
    ⟨fun c hc => by simpa using Option.all_eq_true _ _ |>.mp hhead c hc,
      fun c hc => by simpa using Option.all_eq_true _ _ |>.mp hlast c hc⟩
  quoted := (quotedBody_iff (by decide)).mpr hquoted

theorem isVariablesToken_args : IsVariablesToken "ARGS".toList :=
  ⟨by decide, forall_mem_of_all (by decide)⟩

theorem actionsText_id : ActionsText "id:1".toList := (quotedBody_iff (by decide)).mpr (by decide)

/-- Its last quote is lost. -/
theorem last_quote_lost : ¬ ∀ vars a actions, IsVariablesToken vars → IsArgument a →
    ActionsText actions → KeepsArgument vars a actions := by
  intro h
  have ha : IsArgument quotedPattern :=
    isArgument_of_check (by decide) (by decide) (by decide) (by decide)
  obtain ⟨r, hparse, hop⟩ := h _ _ _ isVariablesToken_args ha actionsText_id
  have hleft := operator_of_rxBody isVariablesToken_args ha actionsText_id hparse
  have hkept := trimEnd_eq_self_iff.mp (Operator.rx.inj (hleft.symm.trans hop))
  exact hkept (by decide)

/-- The pattern `say \"hi\" there` survives. -/
theorem inner_quote_kept :
    KeepsArgument "ARGS".toList "say \\\"hi\\\" there".toList "id:1".toList := by
  have ha : IsArgument "say \\\"hi\\\" there".toList :=
    isArgument_of_check (by decide) (by decide) (by decide) (by decide)
  have hvars : ∃ vars, parseVariables "ARGS".toList = .ok vars :=
    ⟨[.args], toOption_eq_some_iff.mp (by decide)⟩
  exact (keepsArgument_iff isVariablesToken_args ha actionsText_id).mpr
    ⟨exists_parseVariables_iff.mp hvars, by decide⟩

end Crs

end Fywaf
