import Fywaf.Crs.Build

/-!
# Files of phrases

The matcher takes the argument of `@pmFromFile` for the contents of the file, and documents that
the build has put them there. The build does not: the argument is the name of the file all the way
from the parser to the matcher, and the name is what is searched for.

## Main definitions

* `Crs.phrasesOf`, `Crs.MatchesFile` — what the contents of a file match
* `Crs.SamePhrases` — the name of a file matches what its contents match

## Main results

* `Crs.pmMatchPhrases_iff` — the matcher, phrase by phrase
* `Crs.phraseFile_iff` — exactly when the contents are what is searched for
-/

namespace Fywaf

namespace Crs

/-! ### Phrases -/

/-- The phrases of a text: its lines, trimmed, without blank lines and comments. -/
def phrasesOf (text : Str) : List Str :=
  ((lines text).map trim).filter fun phrase => !(phrase == [] || phrase.head? == some '#')

/-- Some phrase occurs in the value, whatever the case. -/
def MatchesFile (content value : Str) : Prop :=
  ∃ phrase ∈ phrasesOf content, toLowercase phrase <:+: toLowercase value

/-- **The matcher, phrase by phrase.** -/
theorem pmMatchPhrases_iff {phrases value : Str} :
    pmMatchPhrases phrases value = true ↔ MatchesFile phrases value := by
  simp only [pmMatchPhrases, MatchesFile, phrasesOf, List.any_eq_true, Bool.and_eq_true,
    List.mem_filter, List.mem_map, Fywaf.contains, decide_eq_true_eq]
  constructor
  · rintro ⟨line, hline, hphrase, hinfix⟩
    exact ⟨trim line, ⟨⟨line, hline, rfl⟩, hphrase⟩, hinfix⟩
  · rintro ⟨phrase, ⟨⟨line, hline, rfl⟩, hphrase⟩, hinfix⟩
    exact ⟨line, hline, hphrase, hinfix⟩

/-- Every phrase of one text contains one of the other, whatever the case. -/
def SamePhrases (name content : Str) : Prop :=
  (∀ phrase ∈ phrasesOf content, MatchesFile name phrase) ∧
    ∀ phrase ∈ phrasesOf name, MatchesFile content phrase

/-- Two texts match the same values when their phrases contain each other. -/
theorem matchesFile_iff_samePhrases {name content : Str} :
    (∀ value, MatchesFile name value ↔ MatchesFile content value) ↔ SamePhrases name content := by
  have hself : ∀ text, ∀ phrase ∈ phrasesOf text, MatchesFile text phrase :=
    fun text phrase hphrase => ⟨phrase, hphrase, List.infix_refl _⟩
  constructor
  · intro h
    exact ⟨fun phrase hphrase => (h phrase).mpr (hself content phrase hphrase),
      fun phrase hphrase => (h phrase).mp (hself name phrase hphrase)⟩
  · rintro ⟨hcontent, hname⟩ value
    constructor
    · rintro ⟨phrase, hphrase, hinfix⟩
      obtain ⟨phrase', hphrase', hinfix'⟩ := hname phrase hphrase
      exact ⟨phrase', hphrase', hinfix'.trans hinfix⟩
    · rintro ⟨phrase, hphrase, hinfix⟩
      obtain ⟨phrase', hphrase', hinfix'⟩ := hcontent phrase hphrase
      exact ⟨phrase', hphrase', hinfix'.trans hinfix⟩

/-! ### The operator of a line -/

/-- The operator of a line, as text: without quotes and blanks around it. -/
def operatorText (opStr : Str) : Str := trim (trimMatches (· == '"') (trim opStr))

/-- The operator of the line is `@pmFromFile`, with the name behind blanks. -/
def NamesFile (line name : Str) : Prop :=
  ∃ varsStr opStr actionsRaw sep blank, lineFields line = .ok (some (varsStr, opStr, actionsRaw)) ∧
    isAsciiWhitespace sep = true ∧ (∀ c ∈ blank, isWhitespace c = true) ∧
    CleanEnds isWhitespace name ∧
    operatorText opStr = '@' :: ("pmFromFile".toList ++ (sep :: (blank ++ name)))

/-- The parser keeps the name of the file. -/
theorem parseOperator_pmFromFile {sep : Char} {blank name : Str}
    (hsep : isAsciiWhitespace sep = true) (hblank : ∀ c ∈ blank, isWhitespace c = true)
    (hname : CleanEnds isWhitespace name) :
    parseOperator ('@' :: ("pmFromFile".toList ++ (sep :: (blank ++ name)))) =
      (.pmFromFile name, false) := by
  have hsplit := operatorName_at (forall_mem_of_all (by decide) :
    ∀ c ∈ "pmFromFile".toList, isAsciiWhitespace c = false) hsep (blank ++ name)
  have htrim : trim (blank ++ name) = name := by
    rw [trim, trimMatches, List.dropWhile_append_of_pos hblank]
    exact trimMatches_of_cleanEnds hname
  have hfold : toLowercase "pmFromFile".toList = "pmfromfile".toList := by decide
  rw [htrim] at hsplit
  have hnegated : (('@' :: ("pmFromFile".toList ++ (sep :: (blank ++ name)))).head? == some '!') =
      false := rfl
  rw [parseOperator, hnegated, if_neg Bool.false_ne_true, hsplit]
  dsimp only
  rw [hfold, if_neg (by decide), if_neg (by decide), if_pos rfl]

/-- The condition that a rule line says. -/
def SaysCondition (line : Str) (cond : ChainedRule) : Prop :=
  ∃ varsStr opStr actionsRaw vars, lineFields line = .ok (some (varsStr, opStr, actionsRaw)) ∧
    parseVariables varsStr = .ok vars ∧ cond = (buildRule vars opStr actionsRaw).1.link

/-- The operator of such a line is the name of the file. -/
theorem operator_of_namesFile {line name : Str} (hname : NamesFile line name) {cond : ChainedRule}
    (hcond : SaysCondition line cond) : cond.operator = .pmFromFile name := by
  obtain ⟨varsStr, opStr, actionsRaw, sep, blank, hfields, hsep, hblank, hclean, hop⟩ := hname
  obtain ⟨varsStr', opStr', actionsRaw', vars, hfields', hvars, rfl⟩ := hcond
  cases hfields.symm.trans hfields'
  have hparse : parseOperator (operatorText opStr) = (.pmFromFile name, false) := by
    rw [hop]
    exact parseOperator_pmFromFile hsep hblank hclean
  rw [buildRule, ← operatorText, hparse]
  rfl

/-! ### From the file to the matcher -/

variable (regex : RegexNew)

/-- The guest matches, for the line, what the contents of the file match: the condition of the line
is one of its rules', and its operator accepts exactly the values that the contents match. -/
def MatchesContent (rules : List Rule) (line content : Str) : Prop :=
  ∃ cond ∈ rules.flatMap Rule.conditions, SaysCondition line cond ∧
    ∀ value, operatorMatches regex cond.operator value = true ↔ MatchesFile content value

/-- The rules that the guest has: those that it reads from the text it was compiled with. -/
def loadedRules (codec : RulesCodec) (fs : FileSystem) : Except Panic (Option (List Rule)) :=
  (crsRulesJson codec fs).map (getRules codec)

variable {regex}

/-- A rule line of a file that is built in, with the name of a file with these contents. -/
structure PhraseRule (fs : FileSystem) (line name content : Str) : Prop where
  dir : fs.isDir rulesDir = true
  built : ∃ conf ∈ confFiles, ∃ text, fs.file (rulesPath conf) = some text ∧
    line ∈ joinContinuations text
  operator : NamesFile line name
  file : fs.file (rulesPath name) = some content

/-- **Exactly when the contents are what is searched for**: when the name of the file matches the
same, since the name is what the matcher gets. -/
theorem phraseFile_iff {codec : RulesCodec} {fs : FileSystem} {rules : List Rule}
    {line name content : Str} (hrule : PhraseRule fs line name content)
    (hlossless : ∀ built, builtRules fs = .ok built → codec.read (codec.write built) = some built)
    (hload : loadedRules codec fs = .ok (some rules)) :
    MatchesContent regex rules line content ↔ SamePhrases name content := by
  -- the condition of the line is among those of the guest
  obtain ⟨cond, hcond, hsilent⟩ : ∃ cond ∈ rules.flatMap Rule.conditions,
      SaysCondition line cond := by
    obtain ⟨json, hjson, hread⟩ := map_eq_ok_iff.mp hload
    obtain ⟨built, hbuilt, rfl⟩ := map_eq_ok_iff.mp hjson
    obtain rfl : built = rules := Option.some.inj ((hlossless built hbuilt).symm.trans hread)
    obtain ⟨conf, hconf, text, htext, hline⟩ := hrule.built
    obtain ⟨varsStr, opStr, actionsRaw, _, _, hfields, -⟩ := hrule.operator
    obtain ⟨vars, hvars, hmem⟩ :=
      mem_conditions_of_line hbuilt hrule.dir hconf htext hline hfields
    exact ⟨_, hmem, varsStr, opStr, actionsRaw, vars, hfields, hvars, rfl⟩
  have hmatches : ∀ cond, SaysCondition line cond → ∀ value,
      (operatorMatches regex cond.operator value = true ↔ MatchesFile name value) := by
    intro cond hcond value
    rw [operator_of_namesFile hrule.operator hcond, operatorMatches]
    exact pmMatchPhrases_iff
  rw [← matchesFile_iff_samePhrases]
  constructor
  · rintro ⟨cond', -, hsilent', hcontent⟩ value
    rw [← hcontent value, hmatches cond' hsilent' value]
  · intro h
    exact ⟨cond, hcond, hsilent, fun value => (hmatches cond hsilent value).trans (h value)⟩

/-! ### A file of phrases -/

/-- A rule line that names a file. -/
def phraseLine (name : Str) : Str :=
  "SecRule ARGS \"@pmFromFile ".toList ++ (name ++ "\" \"id:1,phase:2,deny\"".toList)

/-- The rule set is that line and that file. -/
def phraseFs (name content : Str) : FileSystem where
  file path :=
    if path = rulesPath "REQUEST-942-APPLICATION-ATTACK-SQLI.conf".toList then
      some (phraseLine name)
    else if path = rulesPath name then some content
    else none
  isDir path := decide (path = rulesDir)

/-- The rule of the line. -/
def phraseRule (name : Str) : Rule where
  id := 1
  phase := .two
  vars := [.args]
  operator := .pmFromFile name
  transforms := []
  action := .block
  msg := none
  tags := []
  severity := none
  chained := []
  skipAfter := none
  anomalyScore := none
  paranoiaLevel := 0

/-- Its JSON. -/
def phraseJson (name : Str) : Str :=
  "[\x7b\"id\":1,\"phase\":\"Two\",\"variables\":[\"Args\"],".toList ++
    "\"operator\":\x7b\"PmFromFile\":\"".toList ++ name ++ "\"\x7d,\"transforms\":[],".toList ++
    "\"action\":\"Block\",\"msg\":null,\"tags\":[],\"severity\":null,\"chained\":[],".toList ++
    "\"skip_after\":null,\"anomaly_score\":null,\"paranoia_level\":0\x7d]".toList

/-- A codec that knows that rule. -/
def phraseCodec (name : Str) : RulesCodec where
  write rules := if rules = [phraseRule name] then phraseJson name else []
  read text := if text = phraseJson name then some [phraseRule name] else none

section Example

variable {name content : Str} (hbuilt : builtRules (phraseFs name content) = .ok [phraseRule name])

include hbuilt

theorem phraseCodec_lossless (built : List Rule)
    (h : builtRules (phraseFs name content) = .ok built) :
    (phraseCodec name).read ((phraseCodec name).write built) = some built := by
  obtain rfl := Except.ok.inj (hbuilt.symm.trans h)
  rw [phraseCodec]
  dsimp only
  rw [if_pos rfl, if_pos rfl]

theorem loadedRules_phraseFs :
    loadedRules (phraseCodec name) (phraseFs name content) = .ok (some [phraseRule name]) := by
  rw [loadedRules, crsRulesJson, hbuilt]
  exact congrArg Except.ok (phraseCodec_lossless hbuilt _ hbuilt)

end Example

/-- The line is a rule line of `phraseFs`. -/
theorem phraseRule_phraseFs {name content : Str}
    (hfields : lineFields (phraseLine name) =
      .ok (some ("ARGS".toList, '"' :: ("@pmFromFile ".toList ++ (name ++ ['"'])),
        "id:1,phase:2,deny".toList)))
    (hop : operatorText ('"' :: ("@pmFromFile ".toList ++ (name ++ ['"']))) =
      '@' :: ("pmFromFile".toList ++ (' ' :: name)))
    (hclean : CleanEnds isWhitespace name)
    (hjoin : joinContinuations (phraseLine name) = [phraseLine name])
    (hfile : (phraseFs name content).file (rulesPath name) = some content) :
    PhraseRule (phraseFs name content) (phraseLine name) name content where
  dir := by
    dsimp only [phraseFs]
    exact decide_eq_true rfl
  built := by
    refine ⟨_, List.mem_cons_self, phraseLine name, ?_, ?_⟩
    · dsimp only [phraseFs]
      exact if_pos rfl
    · rw [hjoin]
      exact List.mem_cons_self
  operator := ⟨_, _, _, ' ', [], hfields, by decide, fun c hc => (by cases hc), hclean, hop⟩
  file := hfile

/-- The rule searches for the name of its file. -/
theorem name_searched : ¬ ∀ (regex : RegexNew) codec fs rules line name content,
    PhraseRule fs line name content →
    (∀ built, builtRules fs = .ok built → codec.read (codec.write built) = some built) →
    loadedRules codec fs = .ok (some rules) → MatchesContent regex rules line content := by
  intro h
  have hbuilt : builtRules (phraseFs "sql.data".toList "union".toList) =
      .ok [phraseRule "sql.data".toList] := toOption_eq_some_iff.mp (by decide +kernel)
  have hrule : PhraseRule (phraseFs "sql.data".toList "union".toList)
      (phraseLine "sql.data".toList) "sql.data".toList "union".toList :=
    phraseRule_phraseFs (toOption_eq_some_iff.mp (by decide)) (by decide)
      (cleanEnds_of_forall (forall_mem_of_all (by decide))) (by decide)
      (by decide)
  obtain ⟨cond, -, hsilent, hmatches⟩ := h (fun _ => none) _ _ _ _ _ _ hrule
    (phraseCodec_lossless hbuilt) (loadedRules_phraseFs hbuilt)
  have hunion : MatchesFile "union".toList "union".toList :=
    ⟨"union".toList, by decide, List.infix_refl _⟩
  have hfound := (hmatches "union".toList).mpr hunion
  rw [operator_of_namesFile hrule.operator hsilent] at hfound
  exact absurd hfound (by decide)

/-- A file that is named like its one phrase is found. -/
theorem union_searched : MatchesContent (fun _ => none) [phraseRule "union".toList]
    (phraseLine "union".toList) "# words\nUNION\n".toList := by
  have hbuilt : builtRules (phraseFs "union".toList "# words\nUNION\n".toList) =
      .ok [phraseRule "union".toList] := toOption_eq_some_iff.mp (by decide +kernel)
  have hrule : PhraseRule (phraseFs "union".toList "# words\nUNION\n".toList)
      (phraseLine "union".toList) "union".toList "# words\nUNION\n".toList :=
    phraseRule_phraseFs (toOption_eq_some_iff.mp (by decide)) (by decide)
      (cleanEnds_of_forall (forall_mem_of_all (by decide))) (by decide)
      (by decide)
  refine (phraseFile_iff hrule (phraseCodec_lossless hbuilt) (loadedRules_phraseFs hbuilt)).mpr ?_
  have hphrases : phrasesOf "# words\nUNION\n".toList = ["UNION".toList] := by decide
  have hname : phrasesOf "union".toList = ["union".toList] := by decide
  have hfold : toLowercase "UNION".toList = toLowercase "union".toList := by decide
  constructor
  · rw [hphrases]
    intro phrase hphrase
    rw [List.mem_singleton.mp hphrase, MatchesFile, hname]
    exact ⟨_, List.mem_cons_self, by rw [hfold]⟩
  · rw [hname]
    intro phrase hphrase
    rw [List.mem_singleton.mp hphrase, MatchesFile, hphrases]
    exact ⟨_, List.mem_cons_self, by rw [hfold]⟩

end Crs

end Fywaf
