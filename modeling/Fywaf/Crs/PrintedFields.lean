import Fywaf.Crs.Exclusion
import Fywaf.Crs.Numeric
import Fywaf.Crs.SkipTargets
import Fywaf.Std.Slices
import Fywaf.Std.Uppercase

/-!
# Variables and operators in print

The variables and the operator of a rule, written so that the parser reads them back. The parser
makes something of any text, and reads what stands in front of a bar, or an argument without the
blanks and quotes at its end; so the names have no bars and the arguments have clean ends.

## Main definitions

* `Crs.Variable.write`, `Crs.writeVariables` — the variables of a rule
* `Crs.Operator.write` — its operator

## Main results

* `Crs.parseVariables_write`, `Crs.readOperator_write` — both are read as they are written
-/

namespace Fywaf

namespace Crs

/-! ### Variables -/

/-- A variable as it is written. -/
def Variable.write : Variable → Str
  | .args => "ARGS".toList
  | .argsNames => "ARGS_NAMES".toList
  | .requestCookies => "REQUEST_COOKIES".toList
  | .requestCookiesNames => "REQUEST_COOKIES_NAMES".toList
  | .requestFilename => "REQUEST_FILENAME".toList
  | .requestHeaders => "REQUEST_HEADERS".toList
  | .requestHeader name => "REQUEST_HEADERS:".toList ++ name
  | .requestHeaderExclude name => '!' :: ("REQUEST_HEADERS:".toList ++ name)
  | .requestMethod => "REQUEST_METHOD".toList
  | .requestUri => "REQUEST_URI".toList
  | .requestBody => "REQUEST_BODY".toList
  | .tx name => "TX:".toList ++ name
  | .xml => "XML:/*".toList

/-- The name that is written with a variable. -/
def Variable.name : Variable → Str
  | .requestHeader name | .requestHeaderExclude name | .tx name => name
  | _ => []

/-- The name has neither blanks nor bars. -/
def Variable.Writable (var : Variable) : Prop :=
  ∀ c ∈ var.name, isWhitespace c = false ∧ c ≠ '|'

/-- Variables with bars between. -/
def writeVariables (vars : List Variable) : Str := ['|'].intercalate (vars.map Variable.write)

section Parts

variable {part : Str} {negated : Bool} {r : Except Panic Variable}

/-- A name of the table. -/
theorem VariableCase.known_eq {upper : Str} (h : VariableCase part upper negated r)
    {var : Variable} (hmem : (upper, var) ∈ knownVariables) : r = .ok var := by
  have htable : ∀ e ∈ knownVariables, (∀ e' ∈ knownVariables, e.1 = e'.1 → e.2 = e'.2) ∧
      ¬ "REQUEST_HEADERS:".toList <+: e.1 ∧ ¬ "TX:".toList <+: e.1 ∧ ¬ "XML:".toList <+: e.1 := by
    decide
  obtain ⟨hunique, hheader, htx, hxml⟩ := htable _ hmem
  cases h with
  | known h' => exact congrArg _ (hunique _ h' rfl).symm
  | header h' => exact absurd h' hheader
  | tx h' => exact absurd h' htx
  | xml h' => exact absurd h' hxml
  | unknown h' => exact absurd rfl (h' _ hmem)

/-- A name behind `REQUEST_HEADERS:`. -/
theorem VariableCase.header_eq {name rest : Str}
    (h : VariableCase ("REQUEST_HEADERS:".toList ++ name) ("REQUEST_HEADERS:".toList ++ rest)
      negated r) :
    r = .ok (if negated then .requestHeaderExclude name else .requestHeader name) := by
  have htable : ∀ e ∈ knownVariables, ¬ "REQUEST_HEADERS:".toList <+: e.1 := by decide
  generalize hupper : "REQUEST_HEADERS:".toList ++ rest = upper at h
  cases h with
  | known h' => exact absurd ⟨rest, hupper⟩ (htable _ h')
  | header h' =>
    rw [show sliceFrom ("REQUEST_HEADERS:".toList ++ name) 16 = .ok name from
      sliceFrom_append "REQUEST_HEADERS:".toList name]
    rfl
  | tx h' =>
    obtain ⟨t, ht⟩ := h'
    cases hupper.trans ht.symm
  | xml h' =>
    obtain ⟨t, ht⟩ := h'
    cases hupper.trans ht.symm
  | unknown _ h' => exact absurd ⟨rest, hupper⟩ h'

/-- A name behind `TX:`. -/
theorem VariableCase.tx_eq {name rest : Str}
    (h : VariableCase ("TX:".toList ++ name) ("TX:".toList ++ rest) negated r) :
    r = .ok (.tx name) := by
  have htable : ∀ e ∈ knownVariables, ¬ "TX:".toList <+: e.1 := by decide
  generalize hupper : "TX:".toList ++ rest = upper at h
  cases h with
  | known h' => exact absurd ⟨rest, hupper⟩ (htable _ h')
  | header h' =>
    obtain ⟨t, ht⟩ := h'
    cases hupper.trans ht.symm
  | tx h' =>
    rw [show sliceFrom ("TX:".toList ++ name) 3 = .ok name from
      sliceFrom_append "TX:".toList name]
    rfl
  | xml h' =>
    obtain ⟨t, ht⟩ := h'
    cases hupper.trans ht.symm
  | unknown _ _ h' => exact absurd ⟨rest, hupper⟩ h'

end Parts

/-- **A variable is read as it is written.** -/
theorem parseVariable_write (var : Variable) : parseVariable var.write = .ok var := by
  have hcase := variableCase var.write
  have hupper : ∀ {word : Str}, toUppercase word = word → ∀ name,
      toUppercase (word ++ name) = word ++ toUppercase name := fun hword name => by
    rw [toUppercase_append, hword]
  cases var with
  | requestHeader name =>
    rw [show variableName (Variable.write (.requestHeader name)) =
      "REQUEST_HEADERS:".toList ++ name from rfl, hupper (by decide)] at hcase
    exact hcase.header_eq
  | requestHeaderExclude name =>
    rw [show variableName (Variable.write (.requestHeaderExclude name)) =
      "REQUEST_HEADERS:".toList ++ name from rfl, hupper (by decide)] at hcase
    exact hcase.header_eq
  | tx name =>
    rw [show variableName (Variable.write (.tx name)) = "TX:".toList ++ name from rfl,
      hupper (by decide)] at hcase
    exact hcase.tx_eq
  | xml => exact toOption_eq_some_iff.mp (by decide)
  | args | argsNames | requestCookies | requestCookiesNames | requestFilename | requestHeaders |
    requestMethod | requestUri | requestBody => exact hcase.known_eq (by decide)

theorem Variable.write_ne_nil (var : Variable) : var.write ≠ [] := by
  cases var <;> exact List.cons_ne_nil _ _

/-- What is written with a variable is plain. -/
theorem Variable.Writable.write {var : Variable} (h : var.Writable) :
    ∀ c ∈ var.write, isWhitespace c = false ∧ c ≠ '|' := by
  have hword : ∀ {word : Str},
      (word.all fun c => decide (isWhitespace c = false ∧ c ≠ '|')) = true →
      ∀ c ∈ word ++ var.name, isWhitespace c = false ∧ c ≠ '|' := fun hall =>
    List.forall_mem_append.mpr ⟨forall_mem_of_all hall, h⟩
  cases var with
  | requestHeaderExclude name => exact @hword "!REQUEST_HEADERS:".toList (by decide)
  | requestHeader name => exact @hword "REQUEST_HEADERS:".toList (by decide)
  | tx name => exact @hword "TX:".toList (by decide)
  | _ => exact forall_mem_of_all (by decide)

/-- **The variables of a rule are read as they are written.** -/
theorem parseVariables_write {vars : List Variable} (hne : vars ≠ [])
    (h : ∀ var ∈ vars, var.Writable) : parseVariables (writeVariables vars) = .ok vars := by
  have hbar : ∀ part ∈ vars.map Variable.write, '|' ∉ part := by
    refine List.forall_mem_map.mpr fun var hvar hmem => ?_
    exact ((h var hvar).write _ hmem).2 rfl
  rw [writeVariables, parseVariables_join (by simpa using hne) hbar, parseParts, List.mapM_map,
    mapM_eq_ok_iff, List.forall₂_same]
  intro var hvar
  have htrim : trim var.write = var.write :=
    trimMatches_of_cleanEnds (cleanEnds_of_forall fun c hc => ((h var hvar).write c hc).1)
  rw [Function.comp_apply, htrim, parseVariable_write]

/-! ### Operators -/

/-- The word of an operator; its case does not matter. -/
def Operator.word : Operator → Str
  | .rx _ => "rx".toList
  | .pm _ => "pm".toList
  | .pmFromFile _ => "pmfromfile".toList
  | .contains _ => "contains".toList
  | .beginsWith _ => "beginswith".toList
  | .endsWith _ => "endswith".toList
  | .streq _ => "streq".toList
  | .lt _ => "lt".toList
  | .le _ => "le".toList
  | .ge _ => "ge".toList
  | .gt _ => "gt".toList
  | .within _ => "within".toList
  | .validateByteRange _ => "validatebyterange".toList
  | .detectXss => "detectxss".toList
  | .detectSqli => "detectsqli".toList
  | .unsupported name => name
  | .negated _ | .pass => []

/-- The argument of an operator as it is written. -/
def Operator.argument : Operator → Str
  | .rx s | .pmFromFile s | .contains s | .beginsWith s | .endsWith s | .streq s
  | .validateByteRange s => s
  | .pm words | .within words => unwords words
  | .lt n | .le n | .ge n | .gt n => signedDecimal n.toInt
  | .detectXss | .detectSqli | .unsupported _ | .negated _ | .pass => []

/-- An operator that is not negated. -/
def Operator.writePlain (op : Operator) : Str :=
  '@' :: (op.word ++ if op.argument = [] then [] else ' ' :: op.argument)

/-- An operator as it is written. -/
def Operator.write : Operator → Str
  | .negated op => '!' :: op.writePlain
  | op => op.writePlain

/-- The operators that the parser knows, in lower case. -/
def knownOperators : List Str :=
  ["rx".toList, "pm".toList, "pmfromfile".toList, "contains".toList, "beginswith".toList,
    "endswith".toList, "streq".toList, "lt".toList, "le".toList, "ge".toList, "gt".toList,
    "within".toList, "validatebyterange".toList, "detectxss".toList, "detectsqli".toList]

/-- What the parser makes of a word and an argument: the words of `pm` are in lower case, and so is
the word of an operator that is not known. -/
def Operator.IsParsed : Operator → Prop
  | .pm words => ∀ w ∈ words, IsWord w ∧ toLowercase w = w
  | .within words => ∀ w ∈ words, IsWord w
  | .unsupported name =>
    toLowercase name = name ∧ (∀ c ∈ name, isWhitespace c = false) ∧ name ∉ knownOperators
  | .negated _ | .pass => False
  | _ => True

/-- An operator that is not negated, and whose text is read as it is. -/
structure Operator.IsPlain (op : Operator) : Prop where
  parsed : op.IsParsed
  clean : CleanEnds isWhitespace op.argument
  /-- No quote is taken for the one that closes the field. -/
  last : op.writePlain.getLast? ≠ some '"'
  /-- The argument is on one line. -/
  line : '\n' ∉ op.argument

/-- At most one negation can be written. -/
def Operator.Writable : Operator → Prop
  | .negated op => op.IsPlain
  | op => op.IsPlain

section Operators

variable {op : Operator}

/-- The word is one that the parser knows, unless that is what the operator says. -/
theorem Operator.IsParsed.word_mem (h : op.IsParsed) :
    op.word ∈ knownOperators ∨ (op = .unsupported op.word ∧ op.word ∉ knownOperators) := by
  cases op with
  | unsupported name => exact Or.inr ⟨rfl, h.2.2⟩
  | negated | pass => exact absurd h id
  | _ => exact Or.inl (List.elem_iff.mp rfl)

theorem Operator.IsParsed.word (h : op.IsParsed) :
    toLowercase op.word = op.word ∧ ∀ c ∈ op.word, isWhitespace c = false := by
  have hknown : ∀ w ∈ knownOperators, toLowercase w = w ∧
      (w.all fun c => decide (isWhitespace c = false)) = true := by
    decide
  rcases h.word_mem with hmem | ⟨heq, -⟩
  · obtain ⟨hlower, hall⟩ := hknown _ hmem
    exact ⟨hlower, forall_mem_of_all hall⟩
  · rw [heq] at h
    exact ⟨h.1, h.2.1⟩

/-- Word and argument are read as they are written. -/
theorem Operator.IsPlain.operatorName_eq (h : op.IsPlain) :
    operatorName op.writePlain = (op.word, op.argument) := by
  have hword : ∀ c ∈ op.word, isAsciiWhitespace c = false := fun c hc =>
    eq_false_of_ne_true fun hblank => by
      simpa [h.parsed.word.2 c hc] using isWhitespace_of_isAsciiWhitespace hblank
  rw [writePlain]
  split
  · next hnil =>
    have hdrop : op.word.dropWhile (fun c => !isAsciiWhitespace c) = [] :=
      List.dropWhile_eq_nil_iff.mpr fun c hc => by rw [hword c hc]; rfl
    rw [List.append_nil, operatorName, hdrop, hnil]
  · rw [operatorName_at hword (by decide), show trim op.argument = op.argument from
      trimMatches_of_cleanEnds h.clean]

/-- An operator that is not negated is read as it is written. -/
theorem parseOperator_plain (h : op.IsPlain) : parseOperator op.writePlain = (op, false) := by
  have hnegated : (op.writePlain.head? == some '!') = false := rfl
  have hnumber : ∀ n : Int64, numberOrZero (signedDecimal n.toInt) = n := fun n => by
    rw [numberOrZero_of_literal (intLiteral_signedDecimal n.toInt), argumentValue,
      if_pos ⟨n.le_toInt, n.toInt_lt⟩, Int64.ofInt_toInt]
  have hparsed := h.parsed
  rw [parseOperator, hnegated, if_neg Bool.false_ne_true, h.operatorName_eq]
  dsimp only
  rw [hparsed.word.1]
  rcases hparsed.word_mem with hmem | ⟨heq, hknown⟩
  swap
  · have hne : ∀ w ∈ knownOperators, ¬ op.word = w := fun w hw h => hknown (h ▸ hw)
    simp only [knownOperators, List.forall_mem_cons] at hne
    obtain ⟨h₁, h₂, h₃, h₄, h₅, h₆, h₇, h₈, h₉, h₁₀, h₁₁, h₁₂, h₁₃, h₁₄, h₁₅, -⟩ := hne
    rw [if_neg h₁, if_neg h₂, if_neg h₃, if_neg h₄, if_neg h₅, if_neg h₆, if_neg h₇, if_neg h₈,
      if_neg h₉, if_neg h₁₀, if_neg h₁₁, if_neg h₁₂, if_neg h₁₃, if_neg h₁₄, if_neg h₁₅, ← heq]
  cases op with
  | negated | pass => exact absurd hparsed id
  | unsupported name => exact absurd hmem hparsed.2.2
  | pm words =>
    have hwords : (splitWhitespace (unwords words)).map toLowercase = words := by
      rw [splitWhitespace_unwords fun w hw => (hparsed w hw).1]
      exact (List.map_congr_left fun w hw => (hparsed w hw).2).trans (List.map_id words)
    exact congrArg (Operator.pm ·, false) hwords
  | within words =>
    exact congrArg (Operator.within ·, false) (splitWhitespace_unwords hparsed)
  | lt n => exact congrArg (Operator.lt ·, false) (hnumber n)
  | le n => exact congrArg (Operator.le ·, false) (hnumber n)
  | ge n => exact congrArg (Operator.ge ·, false) (hnumber n)
  | gt n => exact congrArg (Operator.gt ·, false) (hnumber n)
  | _ => rfl

/-- The exclamation mark in front negates. -/
theorem parseOperator_negated (s : Str) :
    parseOperator ('!' :: '@' :: s) = ((parseOperator ('@' :: s)).1, true) := rfl

/-- The operator that is read, with its negation. -/
def readOperator (s : Str) : Operator :=
  if (parseOperator s).2 then .negated (parseOperator s).1 else (parseOperator s).1

theorem Operator.Writable.cases (h : op.Writable) :
    (∃ plain : Operator, op = .negated plain ∧ plain.IsPlain) ∨
      (op.write = op.writePlain ∧ op.IsPlain) := by
  cases op with
  | negated plain => exact Or.inl ⟨plain, rfl, h⟩
  | _ => exact Or.inr ⟨rfl, h⟩

/-- **An operator is read as it is written.** -/
theorem readOperator_write (h : op.Writable) : readOperator op.write = op := by
  rcases h.cases with ⟨plain, rfl, hplain⟩ | ⟨hwrite, hplain⟩
  · have hread := parseOperator_plain hplain
    rw [Operator.writePlain] at hread
    rw [readOperator, Operator.write, Operator.writePlain, parseOperator_negated, hread]
    rfl
  · rw [hwrite, readOperator, parseOperator_plain hplain]
    rfl

/-- The text does not end with a blank or a quote. -/
theorem Operator.IsPlain.getLast (h : op.IsPlain) :
    ∀ c ∈ op.writePlain.getLast?, isWhitespace c = false ∧ (c == '"') = false := by
  intro c hc
  have hquote : c ≠ '"' := fun heq => h.last (heq ▸ hc)
  refine ⟨?_, beq_eq_false_iff_ne.mpr hquote⟩
  rw [writePlain] at hc
  split at hc
  · rw [List.append_nil] at hc
    rcases List.mem_cons.mp (List.mem_of_getLast? hc) with rfl | hmem
    · decide
    · exact h.parsed.word.2 c hmem
  · next hne =>
    have hsplit : '@' :: (op.word ++ ' ' :: op.argument) =
        ('@' :: (op.word ++ [' '])) ++ op.argument := by simp
    rw [hsplit, List.getLast?_append_of_ne_nil _ hne] at hc
    exact h.clean.last c hc

/-- The text of an operator has clean ends. -/
theorem Operator.Writable.cleanEnds (h : op.Writable) :
    CleanEnds isWhitespace op.write ∧ CleanEnds (· == '"') op.write := by
  have hends : ∀ {first : Char} {rest : Str}, isWhitespace first = false → (first == '"') = false →
      (∀ c ∈ (first :: rest).getLast?, isWhitespace c = false ∧ (c == '"') = false) →
      CleanEnds isWhitespace (first :: rest) ∧ CleanEnds (· == '"') (first :: rest) := by
    intro first rest hblank hquote hlast
    exact ⟨⟨fun c hc => Option.some.inj hc ▸ hblank, fun c hc => (hlast c hc).1⟩,
      ⟨fun c hc => Option.some.inj hc ▸ hquote, fun c hc => (hlast c hc).2⟩⟩
  rcases h.cases with ⟨plain, rfl, hplain⟩ | ⟨hwrite, hplain⟩
  · exact hends (by decide) (by decide) fun c hc => hplain.getLast c hc
  · rw [hwrite]
    exact hends (by decide) (by decide) hplain.getLast

/-- The text of an operator is on one line. -/
theorem Operator.Writable.newline_notMem (h : op.Writable) : '\n' ∉ op.write := by
  have hplain : ∀ {op : Operator}, op.IsPlain → '\n' ∉ op.writePlain := by
    intro op h hmem
    rw [writePlain] at hmem
    rcases List.mem_cons.mp hmem with heq | hmem
    · exact absurd heq (by decide)
    rcases List.mem_append.mp hmem with hword | hargument
    · exact absurd (h.parsed.word.2 _ hword) (by decide)
    · split at hargument
      · exact absurd hargument List.not_mem_nil
      · exact h.line ((List.mem_cons.mp hargument).resolve_left (by decide))
  rcases h.cases with ⟨plain, rfl, h⟩ | ⟨hwrite, h⟩
  · exact fun hmem => hplain h ((List.mem_cons.mp hmem).resolve_left (by decide))
  · rw [hwrite]
    exact hplain h

/-- The text in its quotes is read as the text. -/
theorem trim_quotedField {s : Str} (hblank : CleanEnds isWhitespace s)
    (hquote : CleanEnds (· == '"') s) :
    trim (trimMatches (· == '"') (trim ('"' :: (s ++ ['"'])))) = s := by
  have houter : trim ('"' :: (s ++ ['"'])) = '"' :: (s ++ ['"']) :=
    trimMatches_of_cleanEnds (cleanEnds_quoted (by decide) s)
  have hfront : trimMatches (· == '"') ('"' :: (s ++ ['"'])) =
      trimMatches (· == '"') (s ++ ['"']) := by
    rw [trimMatches, trimMatches, List.dropWhile_cons_of_pos (by decide)]
  have hback : trimMatches (· == '"') (s ++ ['"']) = trimMatches (· == '"') s :=
    trimMatches_append_blank fun c hc => by rw [List.mem_singleton.mp hc]; decide
  rw [houter, hfront, hback, trimMatches_of_cleanEnds hquote]
  exact trimMatches_of_cleanEnds hblank

end Operators

end Crs

end Fywaf
