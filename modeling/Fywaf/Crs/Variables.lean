import Fywaf.Crs.Parser

/-!
# What a variable can be

`parse_variable` compares the upper case of a name with one word after the other. Here the words
are a table, and what comes of a name is one of five cases: the name is in the table, or it starts
with one of three words that end in a colon, or it is not known and becomes a header.

## Main definitions

* `Crs.variableName` — a part of the variables field without the exclamation mark
* `Crs.knownVariables` — the table
* `Crs.VariableCase` — what comes of a name

## Main results

* `Crs.variableCase` — the cases are exhaustive
-/

namespace Fywaf

namespace Crs

/-- A part of the variables field without the exclamation mark. -/
def variableName (part : Str) : Str := (stripPrefix ['!'] part).getD part

/-- The names that stand for a variable as a whole. -/
def knownVariables : List (Str × Variable) :=
  [("ARGS".toList, .args), ("ARGS_NAMES".toList, .argsNames),
    ("REQUEST_COOKIES".toList, .requestCookies),
    ("REQUEST_COOKIES_NAMES".toList, .requestCookiesNames),
    ("REQUEST_FILENAME".toList, .requestFilename), ("REQUEST_HEADERS".toList, .requestHeaders),
    ("REQUEST_METHOD".toList, .requestMethod), ("REQUEST_URI".toList, .requestUri),
    ("REQUEST_URI_RAW".toList, .requestUri), ("REQUEST_BODY".toList, .requestBody),
    ("REQUEST_BODY_RAW".toList, .requestBody)]

/-- What comes of a name, by its upper case. -/
inductive VariableCase (name upper : Str) (negated : Bool) : Except Panic Variable → Prop
  | known {var : Variable} (h : (upper, var) ∈ knownVariables) :
    VariableCase name upper negated (.ok var)
  | header (h : "REQUEST_HEADERS:".toList <+: upper) :
    VariableCase name upper negated ((sliceFrom name 16).map fun header =>
      if negated then .requestHeaderExclude header else .requestHeader header)
  | tx (h : "TX:".toList <+: upper) : VariableCase name upper negated ((sliceFrom name 3).map .tx)
  | xml (h : "XML:".toList <+: upper) : VariableCase name upper negated (.ok .xml)
  | unknown (hknown : ∀ e ∈ knownVariables, upper ≠ e.1)
    (hheader : ¬ "REQUEST_HEADERS:".toList <+: upper) (htx : ¬ "TX:".toList <+: upper)
    (hxml : ¬ "XML:".toList <+: upper) :
    VariableCase name upper negated (.ok (.requestHeader name))

section Cases

variable {name upper : Str} {negated : Bool} {x y : Except Panic Variable}

/-- One comparison with a word, or with two. -/
theorem VariableCase.of_ite {p : Prop} [Decidable p] (hx : p → VariableCase name upper negated x)
    (hy : ¬ p → VariableCase name upper negated y) :
    VariableCase name upper negated (if p then x else y) := by
  by_cases hp : p
  · rw [if_pos hp]
    exact hx hp
  · rw [if_neg hp]
    exact hy hp

/-- **The cases are exhaustive.** -/
theorem variableCase (part : Str) : VariableCase (variableName part)
    (toUppercase (variableName part)) (part.head? == some '!') (parseVariable part) := by
  unfold parseVariable
  dsimp only
  rw [show (stripPrefix ['!'] part).getD part = variableName part from rfl]
  generalize variableName part = name
  generalize toUppercase name = upper
  refine .of_ite (fun h => .known (by rw [h]; decide)) fun h₁ => ?_
  refine .of_ite (fun h => .known (by rw [h]; decide)) fun h₂ => ?_
  refine .of_ite (fun h => .known (by rw [h]; decide)) fun h₃ => ?_
  refine .of_ite (fun h => .known (by rw [h]; decide)) fun h₄ => ?_
  refine .of_ite (fun h => .known (by rw [h]; decide)) fun h₅ => ?_
  refine .of_ite (fun h => .known (by rw [h]; decide)) fun h₆ => ?_
  refine .of_ite (fun h => .header (List.isPrefixOf_iff_prefix.mp h)) fun hheader => ?_
  refine .of_ite (fun h => .known (by rw [h]; decide)) fun h₇ => ?_
  refine .of_ite (fun h => .known (by rcases h with h | h <;> rw [h] <;> decide)) fun h₈ => ?_
  refine .of_ite (fun h => .known (by rcases h with h | h <;> rw [h] <;> decide)) fun h₉ => ?_
  refine .of_ite (fun h => .tx (List.isPrefixOf_iff_prefix.mp h)) fun htx => ?_
  refine .of_ite (fun h => .xml (List.isPrefixOf_iff_prefix.mp h)) fun hxml => ?_
  rw [not_or] at h₈ h₉
  rw [List.isPrefixOf_iff_prefix] at hheader htx hxml
  refine .unknown ?_ hheader htx hxml
  simp only [knownVariables, List.forall_mem_cons]
  exact ⟨h₁, h₂, h₃, h₄, h₅, h₆, h₇, h₈.1, h₈.2, h₉.1, h₉.2, List.forall_mem_nil _⟩

end Cases

end Crs

end Fywaf
