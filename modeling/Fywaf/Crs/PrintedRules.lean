import Fywaf.Crs.Layout
import Fywaf.Crs.PrintedActions
import Fywaf.Crs.PrintedFields

/-!
# Rules in print

Rules, written as the text of a configuration file: a line for each condition of a chain, and a line
for each marker. The parser gives back the rules that were written. So there is a text for every
rule set whose names and arguments can stand in a line, and parsing says all that the text says.

## Main definitions

* `Crs.writeLine`, `Crs.Rule.write`, `Crs.writeRules` — a line, the lines of a rule, a file
* `Crs.Rule.Writable` — what can be written

## Main results

* `Crs.classify_writeLine` — a line is read as it is written
* `Crs.parseStr_writeRules` — **the parser gives back the rules that were written**
-/

namespace Fywaf

namespace Crs

/-! ### Lines -/

/-- A `SecRule` line. -/
def writeLine (vars : List Variable) (op : Operator) (es : List Effect) : Str :=
  ("SecRule".toList ++ ' ' :: writeVariables vars) ++ ' ' :: ('"' :: (op.write ++ ['"']) ++
    ' ' :: '"' :: (writeActions es ++ ['"']))

/-- A `SecMarker` line. -/
def writeMarker (name : Str) : Str := "SecMarker ".toList ++ '"' :: (name ++ ['"'])

/-- The name of a marker has neither blanks nor quotes at its ends, and is on one line. -/
structure IsMarkerText (name : Str) : Prop where
  blank : CleanEnds isWhitespace name
  quote : CleanEnds (· == '"') name
  line : '\n' ∉ name

/-- The rule that variables, an operator and actions make. -/
def ruleOf (vars : List Variable) (op : Operator) (acts : Actions) : Rule where
  id := acts.id
  phase := acts.phase
  vars := vars
  operator := op
  transforms := acts.transforms
  action := acts.action
  msg := acts.msg
  tags := acts.tags
  severity := acts.severity
  chained := []
  skipAfter := acts.skipAfter
  anomalyScore := acts.anomalyScore
  paranoiaLevel := paranoiaLevelOf acts.tags

section Lines

variable {vars : List Variable} {op : Operator} {es : List Effect}

theorem buildRule_write (hop : op.Writable) (vars : List Variable) (actionsRaw : Str) :
    buildRule vars ('"' :: (op.write ++ ['"'])) actionsRaw =
      (ruleOf vars op (parseActions actionsRaw), (parseActions actionsRaw).isChain) := by
  have hread := readOperator_write hop
  rw [readOperator] at hread
  rw [buildRule, trim_quotedField hop.cleanEnds.1 hop.cleanEnds.2]
  dsimp only
  rw [hread]
  rfl

/-- Variables in print are one word. -/
theorem writeVariables_word (h : ∀ var ∈ vars, var.Writable) :
    ∀ c ∈ writeVariables vars, isWhitespace c = false :=
  forall_mem_intercalate (forall_mem_of_all (by decide))
    (List.forall_mem_map.mpr fun var hvar c hc => ((h var hvar).write c hc).1)

theorem writeVariables_ne_nil (hne : vars ≠ []) : writeVariables vars ≠ [] := by
  obtain ⟨var, vars, rfl⟩ := List.exists_cons_of_ne_nil hne
  cases vars with
  | nil =>
    rw [writeVariables, List.map_singleton, List.intercalate_singleton]
    exact var.write_ne_nil
  | cons var' vars =>
    rw [writeVariables, List.map_cons, List.map_cons, List.intercalate_cons_cons, List.append_assoc]
    exact List.append_ne_nil_of_left_ne_nil var.write_ne_nil _

theorem writeVariables_asciiWord (h : ∀ var ∈ vars, var.Writable) :
    ∀ c ∈ writeVariables vars, isAsciiWhitespace c = false := fun c hc =>
  eq_false_of_ne_true fun hblank => Bool.false_ne_true <|
    (writeVariables_word h c hc).symm.trans (isWhitespace_of_isAsciiWhitespace hblank)

theorem head_space : ∃ c ∈ [' '].head?, isAsciiWhitespace c = true := ⟨' ', rfl, by decide⟩

/-- The line by its fields. -/
def printedLine (hne : vars ≠ []) (hvars : ∀ var ∈ vars, var.Writable) (op : Operator)
    (hes : ∀ e ∈ es, e.Writable) : RuleLine where
  indent := []
  skip := [' ']
  vars := writeVariables vars
  gap := [' ']
  op := op.write
  gap' := [' ']
  actions := writeActions es
  back := []
  blank_indent := isBlank_nil
  blank_skip := isBlank_space
  vars_ne_nil := writeVariables_ne_nil hne
  head_vars c hc := writeVariables_word hvars c (List.mem_of_mem_head? hc)
  word_vars := writeVariables_asciiWord hvars
  blank_gap := isBlank_space
  head_gap := head_space
  blank_gap' := isBlank_space
  actions_quoted := actionsText_writeActions hes
  blank_back := isBlank_nil

/-- **A line is read as it is written.** -/
theorem classify_writeLine (hne : vars ≠ []) (hvars : ∀ var ∈ vars, var.Writable)
    (hop : op.Writable) (hes : ∀ e ∈ es, e.Writable) : classify (writeLine vars op es) =
      .ok (some (.rule (ruleOf vars op (Effects.actions es)) (Effects.actions es).isChain)) := by
  have htext : (printedLine hne hvars op hes).text = writeLine vars op es := rfl
  have hread := (printedLine hne hvars op hes).classify_eq
  have hbuild : buildRule vars (printedLine hne hvars op hes).opStr (writeActions es) =
      (ruleOf vars op (Effects.actions es), (Effects.actions es).isChain) := by
    rw [← parseActions_write hes]
    exact buildRule_write hop vars (writeActions es)
  rw [htext, show (printedLine hne hvars op hes).vars = writeVariables vars from rfl,
    show (printedLine hne hvars op hes).actions = writeActions es from rfl,
    parseVariables_write hne hvars] at hread
  simp only [Except.map, hbuild] at hread
  exact hread

theorem classify_writeMarker {name : Str} (h : IsMarkerText name) :
    classify (writeMarker name) = .ok (some (.marker name)) := by
  have hclean : CleanEnds isWhitespace (writeMarker name) := by
    refine cleanEnds_append (by decide) (by simp) (fun c hc => ?_) fun c hc => ?_
    · obtain rfl : 'S' = c := Option.some.inj hc
      decide
    · exact (cleanEnds_quoted (by decide) name).last c hc
  have htrim : trim (writeMarker name) = writeMarker name := trimMatches_of_cleanEnds hclean
  have hstrip : stripPrefix "SecMarker".toList (writeMarker name) =
      some (' ' :: '"' :: (name ++ ['"'])) := stripPrefix_eq_some_iff.mpr rfl
  have hname : markerName (' ' :: '"' :: (name ++ ['"'])) = name := by
    rw [markerName, trim_cons_blank (by decide)]
    exact trim_quotedField h.blank h.quote
  have hsilent : ¬ (writeMarker name = [] ∨ (writeMarker name).head? = some '#') := by
    rintro (hnil | hhash)
    · cases hnil
    · exact absurd (Option.some.inj hhash) (by decide)
  rw [classify, htrim, if_neg hsilent, hstrip]
  dsimp only
  rw [hname]

end Lines

/-! ### Rules -/

/-- The action `chain`, if there are links to come. -/
def chainEffects (links : List ChainedRule) : List Effect := if links = [] then [] else [.chain]

/-- What the actions of a rule have to do. -/
def Rule.effects (rule : Rule) : List Effect :=
  [.id rule.id, .phase rule.phase, .action rule.action] ++ rule.transforms.map .transform ++
    rule.msg.toList.map .msg ++ rule.tags.map .tag ++
    rule.severity.toList.map (fun s => .severity (some s)) ++
    rule.skipAfter.toList.map .skipAfter ++
    rule.anomalyScore.toList.map (fun n => .score (some n)) ++ chainEffects rule.chained

/-- The lines of the conditions that are chained on. -/
def writeLinks : List ChainedRule → List Str
  | [] => []
  | link :: links =>
    writeLine link.vars link.operator (link.transforms.map .transform ++ chainEffects links) ::
      writeLinks links

/-- The lines of a rule. An entry without variables is a marker. -/
def Rule.write (rule : Rule) : List Str :=
  if rule.vars = [] then [writeMarker (rule.skipAfter.getD [])]
  else writeLine rule.vars rule.operator rule.effects :: writeLinks rule.chained

/-- The text of rules, line by line. -/
def writeRules (rules : List Rule) : Str :=
  (rules.flatMap Rule.write).flatMap fun line => line ++ ['\n']

/-- The condition can be written. -/
structure ChainedRule.Writable (link : ChainedRule) : Prop where
  vars_ne_nil : link.vars ≠ []
  vars : ∀ var ∈ link.vars, var.Writable
  operator : link.operator.Writable
  transforms : ∀ t ∈ link.transforms, t.Writable

/-- The rule can be written. -/
structure Rule.IsWritable (rule : Rule) : Prop where
  vars_ne_nil : rule.vars ≠ []
  vars : ∀ var ∈ rule.vars, var.Writable
  operator : rule.operator.Writable
  effects : ∀ e ∈ rule.effects, e.Writable
  chained : ∀ link ∈ rule.chained, link.Writable
  /-- The paranoia level is read off the tags. -/
  level : rule.paranoiaLevel = paranoiaLevelOf rule.tags

/-- The entry is a rule that can be written, or a marker. -/
def Rule.Writable (rule : Rule) : Prop :=
  rule.IsWritable ∨ ∃ name, IsMarkerText name ∧ rule = markerRule name

section Rules

variable {rule : Rule} {links : List ChainedRule} {vars : List Variable} {op : Operator}
  {es : List Effect}

theorem writable_chainEffects (links : List ChainedRule) :
    ∀ e ∈ chainEffects links, e.Writable := by
  unfold chainEffects
  split
  · exact List.forall_mem_nil _
  · exact List.forall_mem_singleton.mpr trivial

theorem written_chainEffects {α : Type} (read : Effect → Option α) (hread : read .chain = none)
    (links : List ChainedRule) : Effects.written read (chainEffects links) = [] := by
  unfold chainEffects
  split
  · rfl
  · exact List.filterMap_cons_none hread

theorem any_chainEffects (links : List ChainedRule) :
    (chainEffects links).any Effect.isChain = decide (links ≠ []) := by
  cases links <;> rfl

theorem written_map {α β : Type} (read : Effect → Option β) (f : α → Effect) (l : List α) :
    Effects.written read (l.map f) = l.filterMap fun a => read (f a) :=
  List.filterMap_map

/-- **The actions of a rule say what is in its fields.** -/
theorem actions_effects (rule : Rule) : Effects.actions rule.effects =
    ⟨rule.transforms, rule.id, rule.phase, rule.action, rule.msg, rule.tags, rule.severity,
      rule.skipAfter, rule.anomalyScore, decide (rule.chained ≠ [])⟩ := by
  have hlast : ∀ {α : Type} (x : Option α), x.toList.getLast? = x := fun x => by cases x <;> rfl
  have hnil : ∀ {α : Type} (read : Effect → Option α), Effects.written read [] = [] := fun _ => rfl
  have hjoin : ∀ x : Option Severity, (x.map some).getD none = x := fun x => by cases x <;> rfl
  rw [Effects.actions]
  simp only [Rule.effects, Effects.written_append, Effects.written_cons, written_map, hnil,
    written_chainEffects Effect.transform? rfl, written_chainEffects Effect.id? rfl,
    written_chainEffects Effect.phase? rfl, written_chainEffects Effect.action? rfl,
    written_chainEffects Effect.msg? rfl, written_chainEffects Effect.tag? rfl,
    written_chainEffects Effect.severity? rfl, written_chainEffects Effect.skipAfter? rfl,
    written_chainEffects Effect.score? rfl, List.any_append, any_chainEffects]
  simp [hlast, hjoin, Function.comp_def]

theorem ruleOf_effects (h : rule.paranoiaLevel = paranoiaLevelOf rule.tags) :
    ruleOf rule.vars rule.operator (Effects.actions rule.effects) =
      { rule with chained := [] } := by
  rw [actions_effects, ruleOf, ← h]

/-- The link that a line makes. -/
theorem link_ruleOf (link : ChainedRule) (links : List ChainedRule) :
    (ruleOf link.vars link.operator (Effects.actions
      (link.transforms.map .transform ++ chainEffects links))).link = link := by
  have htransforms : (Effects.actions (link.transforms.map .transform ++
      chainEffects links)).transforms = link.transforms := by
    change Effects.written Effect.transform? _ = _
    rw [Effects.written_append, written_map, written_chainEffects Effect.transform? rfl,
      List.append_nil]
    exact List.filterMap_some
  rw [Rule.link, ruleOf, htransforms]

theorem isChain_link (ts : List Transform) (links : List ChainedRule) :
    (Effects.actions (ts.map .transform ++ chainEffects links)).isChain = decide (links ≠ []) := by
  change (ts.map Effect.transform ++ chainEffects links).any Effect.isChain = _
  have hnone : (ts.map Effect.transform).any Effect.isChain = false := by
    rw [List.any_eq_false, List.forall_mem_map]
    exact fun _ _ => Bool.false_ne_true
  rw [List.any_append, hnone, any_chainEffects, Bool.false_or]

/-! ### Chains -/

theorem directives_append {ls ms : List Str} {ds es : List Directive} (hl : directives ls = .ok ds)
    (hm : directives ms = .ok es) : directives (ls ++ ms) = .ok (ds ++ es) := by
  induction ls generalizing ds with
  | nil =>
    cases hl
    exact hm
  | cons line ls ih =>
    rw [directives] at hl
    rw [List.cons_append, directives]
    cases hline : classify line with
    | error e => rw [hline] at hl; cases hl
    | ok d =>
      rw [hline] at hl
      obtain ⟨rest, hrest, rfl⟩ := map_eq_ok_iff.mp hl
      rw [ih hrest, List.append_assoc]
      rfl

theorem directives_cons_of_classify {line : Str} {d : Directive} (h : classify line = .ok (some d))
    {ls : List Str} {ds : List Directive} (hl : directives ls = .ok ds) :
    directives (line :: ls) = .ok (d :: ds) := by
  rw [directives, h]
  dsimp only
  rw [hl]
  rfl

/-- **The lines of the links** are chained onto the rule in front of them. -/
theorem exists_directives_writeLinks (hne : links ≠ []) (h : ∀ link ∈ links, link.Writable) :
    ∃ ds, directives (writeLinks links) = .ok ds ∧ ∀ head rest, emitted (some head) (ds ++ rest) =
      { head with chained := head.chained ++ links } :: emitted none rest := by
  induction links with
  | nil => exact absurd rfl hne
  | cons link links ih =>
    obtain ⟨hlink, hlinks⟩ := List.forall_mem_cons.mp h
    have heffects : ∀ e ∈ link.transforms.map Effect.transform ++ chainEffects links, e.Writable :=
      List.forall_mem_append.mpr
        ⟨List.forall_mem_map.mpr hlink.transforms, writable_chainEffects links⟩
    have hline := classify_writeLine hlink.vars_ne_nil hlink.vars hlink.operator heffects
    rw [isChain_link] at hline
    by_cases hmore : links = []
    · subst hmore
      refine ⟨_, directives_cons_of_classify hline rfl, fun head rest => ?_⟩
      have hadvance : emitted (some head) (.rule (ruleOf link.vars link.operator (Effects.actions
          (link.transforms.map .transform ++ chainEffects []))) false :: rest) =
          head.addLink link :: emitted none rest := by
        rw [emitted, advance, if_neg Bool.false_ne_true, link_ruleOf]
        rfl
      exact hadvance
    · obtain ⟨ds, hds, hemitted⟩ := ih hmore hlinks
      rw [decide_eq_true hmore] at hline
      refine ⟨_, directives_cons_of_classify hline hds, fun head rest => ?_⟩
      have hadvance : ∀ tail, emitted (some head) (.rule (ruleOf link.vars link.operator
          (Effects.actions (link.transforms.map .transform ++ chainEffects links))) true :: tail) =
          emitted (some (head.addLink link)) tail := fun tail => by
        rw [emitted, advance, if_pos rfl, link_ruleOf]
        rfl
      rw [List.cons_append, hadvance, hemitted, Rule.addLink]
      simp

/-- **The lines of a rule** are read as the rule, whatever stands behind them. -/
theorem exists_directives_write (h : rule.Writable) : ∃ ds, directives rule.write = .ok ds ∧
    ∀ rest, emitted none (ds ++ rest) = rule :: emitted none rest := by
  rcases h with h | ⟨name, hname, rfl⟩
  · have hline := classify_writeLine h.vars_ne_nil h.vars h.operator h.effects
    have hchain : (Effects.actions rule.effects).isChain = decide (rule.chained ≠ []) := by
      rw [actions_effects]
    rw [ruleOf_effects h.level, hchain] at hline
    rw [Rule.write, if_neg h.vars_ne_nil]
    by_cases hmore : rule.chained = []
    · rw [hmore]
      rw [decide_eq_false (not_not_intro hmore)] at hline
      refine ⟨_, directives_cons_of_classify hline rfl, fun rest => ?_⟩
      rw [List.singleton_append, emitted, advance, if_neg Bool.false_ne_true, List.singleton_append,
        ← hmore]
    · obtain ⟨ds, hds, hemitted⟩ := exists_directives_writeLinks hmore h.chained
      rw [decide_eq_true hmore] at hline
      refine ⟨_, directives_cons_of_classify hline hds, fun rest => ?_⟩
      rw [List.cons_append, emitted, advance, if_pos rfl, List.nil_append, hemitted,
        List.nil_append]
  · exact ⟨_, directives_cons_of_classify (classify_writeMarker hname) rfl, fun rest => rfl⟩

/-! ### Files -/

/-- A line that is not continued: it ends with a quote, and nowhere else. -/
def IsWholeLine (line : Str) : Prop := '\n' ∉ line ∧ line.getLast? = some '"'

theorem isWholeLine_writeLine (hvars : ∀ var ∈ vars, var.Writable) (hop : op.Writable)
    (hes : ∀ e ∈ es, e.Writable) : IsWholeLine (writeLine vars op es) := by
  have hvars' : '\n' ∉ writeVariables vars := fun hmem =>
    absurd (writeVariables_word hvars _ hmem) (by decide)
  have hes' : '\n' ∉ writeActions es := fun hmem =>
    inside_writeActions hes _ hmem (by decide)
  have hword : '\n' ∉ "SecRule".toList := by decide
  have hop' := hop.newline_notMem
  unfold writeLine
  generalize "SecRule".toList = word at hword
  constructor
  · simp [hword, hvars', hop', hes']
  · simp [List.getLast?_append, List.getLast?_cons]

theorem isWholeLine_writeMarker {name : Str} (h : IsMarkerText name) :
    IsWholeLine (writeMarker name) := by
  have hword : '\n' ∉ "SecMarker ".toList := by decide
  unfold writeMarker
  generalize "SecMarker ".toList = word at hword
  constructor
  · simp [hword, h.line]
  · simp [List.getLast?_append, List.getLast?_cons]

theorem isWholeLine_write (h : rule.Writable) : ∀ line ∈ rule.write, IsWholeLine line := by
  have hlinks : ∀ links : List ChainedRule, (∀ link ∈ links, link.Writable) →
      ∀ line ∈ writeLinks links, IsWholeLine line := by
    intro links h
    induction links with
    | nil => exact List.forall_mem_nil _
    | cons link links ih =>
      obtain ⟨hlink, hlinks⟩ := List.forall_mem_cons.mp h
      refine List.forall_mem_cons.mpr
        ⟨isWholeLine_writeLine hlink.vars hlink.operator ?_, ih hlinks⟩
      exact List.forall_mem_append.mpr
        ⟨List.forall_mem_map.mpr hlink.transforms, writable_chainEffects links⟩
  rcases h with h | ⟨name, hname, rfl⟩
  · rw [Rule.write, if_neg h.vars_ne_nil]
    exact List.forall_mem_cons.mpr
      ⟨isWholeLine_writeLine h.vars h.operator h.effects, hlinks _ h.chained⟩
  · exact List.forall_mem_singleton.mpr (isWholeLine_writeMarker hname)

/-- Whole lines are the logical lines of their text. -/
theorem joinContinuations_wholeLines {ls : List Str} (h : ∀ line ∈ ls, IsWholeLine line) :
    joinContinuations (ls.flatMap fun line => line ++ ['\n']) = ls := by
  have hlines : lines (ls.flatMap fun line => line ++ ['\n']) = ls := by
    induction ls with
    | nil => rfl
    | cons line ls ih =>
      obtain ⟨⟨hnewline, hlast⟩, hrest⟩ := List.forall_mem_cons.mp h
      have hchomp : chomp '\r' line = line := if_neg (by rw [hlast]; decide)
      rw [List.flatMap_cons, List.append_assoc, List.singleton_append, lines_append_newline,
        List.splitOn_eq_singleton hnewline, ih hrest, List.map_singleton, hchomp]
      rfl
  have hjoin : joinLines [] ls = ls := by
    clear hlines
    induction ls with
    | nil => rfl
    | cons line ls ih =>
      obtain ⟨⟨-, hlast⟩, hrest⟩ := List.forall_mem_cons.mp h
      rw [joinLines_cons, if_neg (by rw [hlast]; decide), ih hrest, List.nil_append]
  rw [joinContinuations, hlines, hjoin]

/-- **The parser gives back the rules that were written.** -/
theorem parseStr_writeRules {rules : List Rule} (h : ∀ rule ∈ rules, rule.Writable) :
    parseStr (writeRules rules) = .ok rules := by
  have hdirectives : ∃ ds, directives (rules.flatMap Rule.write) = .ok ds ∧
      emitted none ds = rules := by
    induction rules with
    | nil => exact ⟨[], rfl, rfl⟩
    | cons rule rules ih =>
      obtain ⟨hrule, hrules⟩ := List.forall_mem_cons.mp h
      obtain ⟨ds, hds, hemitted⟩ := exists_directives_write hrule
      obtain ⟨rest, hrest, hrules⟩ := ih hrules
      refine ⟨ds ++ rest, ?_, by rw [hemitted, hrules]⟩
      rw [List.flatMap_cons]
      exact directives_append hds hrest
  have hwhole : ∀ line ∈ rules.flatMap Rule.write, IsWholeLine line := by
    intro line hline
    obtain ⟨rule, hrule, hmem⟩ := List.mem_flatMap.mp hline
    exact isWholeLine_write (h rule hrule) line hmem
  obtain ⟨ds, hds, hemitted⟩ := hdirectives
  rw [parseStr_eq, writeRules, joinContinuations_wholeLines hwhole, hds]
  exact congrArg Except.ok hemitted

/-- A rule with an excluded header, a negation, a comma in its message and a link. -/
def chainedRule : Rule where
  id := 920100
  phase := .one
  vars := [.requestHeaders, .requestHeaderExclude "User-Agent".toList]
  operator := .negated (.rx "^[a-z]+$".toList)
  transforms := [.lowercase]
  action := .block
  msg := some "bad header, again".toList
  tags := ["paranoia-level/2".toList]
  severity := some .critical
  chained := [⟨[.args], .lt (-5), []⟩]
  skipAfter := none
  anomalyScore := some 5
  paranoiaLevel := 2

theorem writable_chainedRule : chainedRule.Writable := by
  have hpattern : (Operator.rx "^[a-z]+$".toList).IsPlain := by
    refine ⟨trivial, ⟨fun c hc => ?_, fun c hc => ?_⟩, by decide, by decide⟩
    · obtain rfl : '^' = c := Option.some.inj hc
      decide
    · obtain rfl : '$' = c := Option.some.inj hc
      decide
  have hnumber : (Operator.lt (-5)).IsPlain := by
    have hargument : (Operator.lt (-5)).argument = "-5".toList := by decide
    refine ⟨trivial, ?_, by decide, by rw [hargument]; decide⟩
    rw [hargument]
    exact cleanEnds_of_forall (forall_mem_of_all (by decide))
  have heffects : chainedRule.effects =
      [.id 920100, .phase .one, .action .block, .transform .lowercase,
        .msg "bad header, again".toList, .tag "paranoia-level/2".toList,
        .severity (some .critical), .score (some 5), .chain] := rfl
  refine Or.inl ⟨by decide, ?_, hpattern, ?_, ?_, by decide⟩
  · refine List.forall_mem_cons.mpr ⟨List.forall_mem_nil _, List.forall_mem_singleton.mpr ?_⟩
    exact forall_mem_of_all (by decide)
  · rw [heffects]
    simp only [List.forall_mem_cons]
    refine ⟨trivial, trivial, trivial, trivial, forall_mem_of_all (by decide),
      forall_mem_of_all (by decide), trivial, ?_, trivial, List.forall_mem_nil _⟩
    exact fun n hn => Option.some.inj hn ▸ List.mem_cons_self
  · refine List.forall_mem_singleton.mpr ⟨by decide, ?_, hnumber, List.forall_mem_nil _⟩
    exact List.forall_mem_singleton.mpr (List.forall_mem_nil _)

/-- The rule in front of a marker comes back from its text. -/
theorem parseStr_chainedRule :
    parseStr (writeRules [chainedRule, markerRule "END OF CHECKS".toList]) =
      .ok [chainedRule, markerRule "END OF CHECKS".toList] := by
  have hname : IsMarkerText "END OF CHECKS".toList := by
    refine ⟨⟨fun c hc => ?_, fun c hc => ?_⟩,
      cleanEnds_of_forall (forall_mem_of_all (by decide)), by decide⟩
    · obtain rfl : 'E' = c := Option.some.inj hc
      decide
    · obtain rfl : 'S' = c := Option.some.inj hc
      decide
  refine parseStr_writeRules (List.forall_mem_cons.mpr ⟨writable_chainedRule, ?_⟩)
  exact List.forall_mem_singleton.mpr (Or.inr ⟨_, hname, rfl⟩)

end Rules

end Crs

end Fywaf
