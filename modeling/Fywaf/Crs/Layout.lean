import Mathlib.Logic.Relation
import Fywaf.Crs.Build
import Fywaf.Crs.Joined
import Fywaf.Crs.QuotedActions
import Fywaf.Crs.WrittenLine

/-!
# The layout of a rule

A rule may be broken over several physical lines, with a backslash at the end of all but the last.
Joining the lines puts a blank in place of each backslash, and blanks between the fields of a rule
or behind a comma of its actions say nothing. So however a rule is broken there, the text makes
the same rules.

## Main definitions

* `Crs.RuleLine` — a rule line as it is written
* `Crs.FreeGap` — the places of a rule line where blanks say nothing
* `Crs.Relaid` — one line break more

## Main results

* `Crs.RuleLine.classify_eq` — what a rule line says, by its fields
* `Crs.parseActions_layout` — blanks behind a comma of the actions say nothing
* `Crs.parseStr_relaid` — however rules are broken over lines, the text makes the same rules
-/

namespace Fywaf

namespace Crs

/-! ### Blanks in front of an action -/

/-- Spaces and tabs. -/
def IsLayout (s : Str) : Prop := ∀ c ∈ s, c = ' ' ∨ c = '\t'

namespace IsLayout

variable {s t : Str}

theorem append (hs : IsLayout s) (ht : IsLayout t) : IsLayout (s ++ t) :=
  fun c hc => (List.mem_append.mp hc).elim (hs c) (ht c)

theorem cons_space (hs : IsLayout s) : IsLayout (' ' :: s) :=
  List.forall_mem_cons.mpr ⟨Or.inl rfl, hs⟩

theorem isAsciiWhitespace (hs : IsLayout s) : ∀ c ∈ s, isAsciiWhitespace c = true := by
  intro c hc
  rcases hs c hc with rfl | rfl
  · decide
  · decide

theorem isAsciiBlank (hs : IsLayout s) : IsAsciiBlank s := by
  refine ⟨fun c hc => isWhitespace_of_isAsciiWhitespace (hs.isAsciiWhitespace c hc), ?_⟩
  intro c hc
  rcases hs c hc with rfl | rfl
  · decide
  · decide

/-- There is no line break in it. -/
theorem newline_notMem (hs : IsLayout s) : '\n' ∉ s :=
  fun hmem => (hs '\n' hmem).elim (by decide) (by decide)

end IsLayout

section Actions

variable {inSingle inDouble : Bool} {current s m : Str}

/-- What is read of an action so far is put in front of it. -/
theorem actionsFrom_prepend (h : current ≠ [] ∨ s ≠ []) (m : Str) :
    actionsFrom inSingle inDouble (m ++ current) s =
      (actionsFrom inSingle inDouble current s).modifyHead (m ++ ·) := by
  have hnil : ∀ {inSingle inDouble current}, current ≠ [] ∨ ([] : Str) ≠ [] →
      actionsFrom inSingle inDouble (m ++ current) [] =
        (actionsFrom inSingle inDouble current []).modifyHead (m ++ ·) := by
    intro inSingle inDouble current hne
    have hcurrent : current ≠ [] := hne.resolve_right fun h => h rfl
    rw [actionsFrom, actionsFrom, if_neg hcurrent,
      if_neg (List.append_ne_nil_of_right_ne_nil m hcurrent)]
    rfl
  have hplain : ∀ {c : Char} {rest : Str}, c ≠ '\\' →
      (∀ {inSingle inDouble current}, current ≠ [] ∨ rest ≠ [] →
        actionsFrom inSingle inDouble (m ++ current) rest =
          (actionsFrom inSingle inDouble current rest).modifyHead (m ++ ·)) →
      ∀ inSingle inDouble current, actionsFrom inSingle inDouble (m ++ current) (c :: rest) =
        (actionsFrom inSingle inDouble current (c :: rest)).modifyHead (m ++ ·) := by
    intro c rest hc ih inSingle inDouble current
    have hmore : current ++ [c] ≠ [] ∨ rest ≠ [] := Or.inl (by simp)
    rw [actionsFrom_cons hc, actionsFrom_cons hc, List.append_assoc, ih hmore, ih hmore, ih hmore,
      apply_ite (List.modifyHead _), apply_ite (List.modifyHead _), apply_ite (List.modifyHead _),
      List.modifyHead_cons]
  induction s using List.twoStepInduction generalizing inSingle inDouble current with
  | nil => exact hnil h
  | singleton c =>
    by_cases hc : c = '\\'
    · subst hc
      have hlast : ∀ current : Str,
          actionsFrom inSingle inDouble current ['\\'] = [current ++ ['\\']] := fun _ => rfl
      rw [hlast, hlast, List.modifyHead_cons, List.append_assoc]
    · exact hplain hc hnil inSingle inDouble current
  | cons_cons c d s ih ih' =>
    by_cases hc : c = '\\'
    · subst hc
      rw [actionsFrom_escape, actionsFrom_escape, List.append_assoc, ih (Or.inl (by simp))]
    · exact hplain hc (ih' d) inSingle inDouble current

/-- Blanks in front of an action are trimmed away. -/
theorem trim_bytewise_append (hm : IsAsciiBlank m) (s : Str) :
    trim (bytewise (m ++ s)) = trim (bytewise s) := by
  have hblank := @trim_blank m [] hm.1 (List.forall_mem_nil _) (bytewise s)
  rwa [List.append_nil, ← bytewise_of_isAscii hm.2, ← bytewise_append] at hblank

/-- Blanks in front of actions do nothing. -/
theorem actions_blank (hm : IsAsciiBlank m) (es : List Effect) (s : Str) :
    Effects.actions (es ++ Effects.ofActions (actionList (m ++ s))) =
      Effects.actions (es ++ Effects.ofActions (actionList s)) := by
  have hread : actionList (m ++ s) = actionsFrom false false (m ++ []) s := by
    rw [actionList, actionsFrom_plain hm.isPlainChar, List.nil_append, List.append_nil]
  by_cases hs : s = []
  · subst hs
    by_cases hmnil : m = []
    · rw [hmnil, List.nil_append]
    · -- the blanks alone are an action without text
      have hone : Effects.ofActions (actionList (m ++ [])) = [.nothing] := by
        have htrim := trim_bytewise_append hm []
        rw [List.append_nil] at htrim
        rw [hread, List.append_nil, actionsFrom, if_neg hmnil, Effects.ofActions,
          List.map_singleton, htrim]
        rfl
      rw [hone, Effects.actions_concat]
      exact congrArg Effects.actions (List.append_nil es).symm
  · have hsame : Effects.ofActions ((actionList s).modifyHead (m ++ ·)) =
        Effects.ofActions (actionList s) := by
      cases actionList s with
      | nil => rfl
      | cons action rest =>
        rw [List.modifyHead_cons, Effects.ofActions, Effects.ofActions, List.map_cons,
          List.map_cons, trim_bytewise_append hm]
    rw [hread, actionsFrom_prepend (Or.inr hs), ← actionList, hsame]

/-- **Blanks behind a comma of the actions say nothing.** -/
theorem parseActions_layout {front : Str} (hfront : SplitsAfter front) (hm : IsAsciiBlank m)
    (s : Str) : parseActions (front ++ ',' :: (m ++ s)) = parseActions (front ++ ',' :: s) := by
  have hends : EndsAction (front ++ [',']) := Or.inr ⟨front, rfl, hfront⟩
  have hcut : ∀ t, parseActions (front ++ ',' :: t) =
      Effects.actions (Effects.ofActions (actionList (front ++ [','])) ++
        Effects.ofActions (actionList t)) := by
    intro t
    rw [List.append_cons, parseActions_eq, actionList_append hends, Effects.ofActions,
      List.map_append]
    rfl
  rw [hcut, hcut, actions_blank hm]

end Actions

/-! ### Rule lines -/

/-- The blanks around what is behind `SecRule` are trimmed again. -/
theorem secruleFields_trim (input : Str) : secruleFields (trim input) = secruleFields input := by
  have htrim : trim (trim input) = trim input :=
    trimMatches_of_cleanEnds (cleanEnds_trimMatches isWhitespace input)
  rw [secruleFields, secruleFields, htrim]

/-- A rule line `SecRule V "OP" "A"` with blanks around its fields. -/
structure RuleLine where
  indent : Str
  skip : Str
  vars : Str
  gap : Str
  op : Str
  gap' : Str
  actions : Str
  back : Str
  blank_indent : IsBlank indent
  blank_skip : IsBlank skip
  vars_ne_nil : vars ≠ []
  /-- The variables start behind the blanks. -/
  head_vars : ∀ c ∈ vars.head?, isWhitespace c = false
  /-- The variables are one word. -/
  word_vars : ∀ c ∈ vars, isAsciiWhitespace c = false
  blank_gap : IsBlank gap
  /-- The first blank behind the variables ends them. -/
  head_gap : ∃ c ∈ gap.head?, isAsciiWhitespace c = true
  blank_gap' : IsBlank gap'
  /-- No quote ends the actions early. -/
  actions_quoted : ActionsText actions
  blank_back : IsBlank back

namespace RuleLine

variable (line : RuleLine)

/-- The operator with its quotes. -/
def opStr : Str := '"' :: (line.op ++ ['"'])

/-- The line up to its variables. -/
def front : Str := line.indent ++ ("SecRule".toList ++ (line.skip ++ line.vars))

/-- The actions with their quotes, and what is behind them. -/
def quotedActions : Str := '"' :: (line.actions ++ '"' :: line.back)

/-- The line. -/
def text : Str := line.front ++ (line.gap ++ (line.opStr ++ (line.gap' ++ line.quotedActions)))

/-- The line with other blanks in front of its operator. -/
def withGap (gap : Str) (hblank : IsBlank gap)
    (hhead : ∃ c ∈ gap.head?, isAsciiWhitespace c = true) : RuleLine :=
  { line with gap := gap, blank_gap := hblank, head_gap := hhead }

theorem text_withGap {gap : Str} (hblank : IsBlank gap)
    (hhead : ∃ c ∈ gap.head?, isAsciiWhitespace c = true) : (line.withGap gap hblank hhead).text =
      line.front ++ (gap ++ (line.opStr ++ (line.gap' ++ line.quotedActions))) := rfl

/-- The line with other blanks in front of its actions. -/
def withGap' (gap' : Str) (hblank : IsBlank gap') : RuleLine :=
  { line with gap' := gap', blank_gap' := hblank }

theorem text_withGap' {gap' : Str} (hblank : IsBlank gap') : (line.withGap' gap' hblank).text =
    line.front ++ (line.gap ++ (line.opStr ++ (gap' ++ line.quotedActions))) := rfl

/-- The line with other actions. -/
def withActions (actions : Str) (hquoted : ActionsText actions) : RuleLine :=
  { line with actions := actions, actions_quoted := hquoted }

theorem text_withActions {actions : Str} (hquoted : ActionsText actions) :
    (line.withActions actions hquoted).text = line.front ++ (line.gap ++ (line.opStr ++
      (line.gap' ++ '"' :: (actions ++ '"' :: line.back)))) := rfl

/-- The actions begin behind a quote that is not escaped. -/
theorem not_openEnd : ¬ OpenEnd '\\' (line.opStr ++ line.gap') := by
  have heq : line.opStr ++ line.gap' = ('"' :: line.op) ++ '"' :: (line.gap' ++ []) := by
    simp [opStr]
  rw [heq, openEnd_behind (by decide), openEnd_append_of_notMem line.blank_gap'.escape_notMem]
  exact not_openEnd_nil

/-- The fields are read as they are written. -/
theorem lineFields_eq :
    lineFields line.text = .ok (some (line.vars, line.opStr, line.actions)) := by
  obtain ⟨sep, hsep, hascii⟩ := line.head_gap
  obtain ⟨gap, hgap⟩ := List.head?_eq_some_iff.mp hsep
  have hblank : IsBlank gap :=
    fun c hc => line.blank_gap c (by rw [hgap]; exact List.mem_cons_of_mem sep hc)
  have hne : line.opStr ≠ [] := List.cons_ne_nil _ _
  have hclean : CleanEnds isWhitespace line.opStr := cleanEnds_quoted (by decide) line.op
  have hfields := secruleFields_written line.vars_ne_nil line.head_vars line.word_vars hascii hblank
    hne hclean line.blank_gap' line.not_openEnd line.actions_quoted line.blank_back
  generalize hbody : line.vars ++ sep :: (gap ++ (line.opStr ++ (line.gap' ++ '"' ::
    (line.actions ++ '"' :: line.back)))) = body at hfields
  have htext : line.text = line.indent ++ ("SecRule".toList ++ (line.skip ++ body)) := by
    simp [text, front, quotedActions, ← hbody, hgap]
  have hword : CleanEnds isWhitespace "SecRule".toList :=
    cleanEnds_of_forall (forall_mem_of_all (by decide))
  have hrest : stripPrefix "SecRule".toList (trim line.text) =
      some ((line.skip ++ body).rdropWhile isWhitespace) := by
    rw [stripPrefix_eq_some_iff, htext]
    exact trimMatches_word hword (by decide) line.blank_indent (line.skip ++ body)
  have hinner : trim (line.skip ++ body) = trim body := by
    have hblank := @trim_blank line.skip [] line.blank_skip (List.forall_mem_nil _) body
    rwa [List.append_nil] at hblank
  rw [lineFields, hrest]
  dsimp only
  rw [trim_rdropWhile, hinner, secruleFields_trim, hfields]

/-- **What a rule line says, by its fields.** -/
theorem classify_eq : classify line.text = (parseVariables line.vars).map fun vars =>
    some (.rule (buildRule vars line.opStr line.actions).1
      (buildRule vars line.opStr line.actions).2) :=
  classify_of_fields line.lineFields_eq

/-- Lines that differ in their blanks and in the layout of their actions say the same. -/
theorem classify_congr {line line' : RuleLine} (hvars : line.vars = line'.vars)
    (hop : line.op = line'.op) (hactions : parseActions line.actions = parseActions line'.actions) :
    classify line.text = classify line'.text := by
  have hrule : ∀ vars, buildRule vars line.opStr line.actions =
      buildRule vars line'.opStr line'.actions := by
    intro vars
    rw [opStr, opStr, hop]
    exact buildRule_eq_iff.mpr hactions
  rw [classify_eq, classify_eq, hvars]
  simp only [hrule]

end RuleLine

/-! ### Places for line breaks -/

/-- In the line `p ++ blanks ++ r`, the blanks say nothing: they are between the variables and the
operator, between the operator and the actions, or behind a comma that separates actions. -/
inductive FreeGap : Str → Str → Str → Prop
  | operator (line : RuleLine) {g blanks g' : Str} (hgap : line.gap = g ++ (blanks ++ g')) :
    FreeGap (line.front ++ g) blanks (g' ++ (line.opStr ++ (line.gap' ++ line.quotedActions)))
  | actions (line : RuleLine) {g blanks g' : Str} (hgap : line.gap' = g ++ (blanks ++ g')) :
    FreeGap (line.front ++ (line.gap ++ (line.opStr ++ g))) blanks (g' ++ line.quotedActions)
  | comma (line : RuleLine) {front g blanks after : Str}
    (hactions : line.actions = front ++ ',' :: (g ++ (blanks ++ after)))
    (hfront : SplitsAfter front) (hg : IsLayout g) (hblanks : IsLayout blanks) :
    FreeGap (line.front ++ (line.gap ++ (line.opStr ++ (line.gap' ++ '"' ::
      (front ++ ',' :: g))))) blanks (after ++ '"' :: line.back)

/-- Blanks in a gap can be exchanged. -/
theorem isBlank_replace {gap g blanks g' m : Str} (hblank : IsBlank gap)
    (hgap : gap = g ++ (blanks ++ g')) (hm : IsLayout m) : IsBlank (g ++ (m ++ g')) := by
  subst hgap
  intro c hc
  rcases List.mem_append.mp hc with hc | hc
  · exact hblank c (List.mem_append_left _ hc)
  rcases List.mem_append.mp hc with hc | hc
  · exact hm.isAsciiBlank.1 c hc
  · exact hblank c (List.mem_append_right _ (List.mem_append_right _ hc))

/-- The gap still ends the variables. -/
theorem head_replace {gap g blanks g' m : Str} (hhead : ∃ c ∈ gap.head?, isAsciiWhitespace c = true)
    (hgap : gap = g ++ (blanks ++ g')) (hm : IsLayout m) (hne : m ≠ []) :
    ∃ c ∈ (g ++ (m ++ g')).head?, isAsciiWhitespace c = true := by
  subst hgap
  cases g with
  | cons c g => exact hhead
  | nil =>
    obtain ⟨c, m, rfl⟩ := List.exists_cons_of_ne_nil hne
    exact ⟨c, rfl, hm.isAsciiWhitespace c List.mem_cons_self⟩

/-- Blanks behind a comma of the actions can be exchanged. -/
theorem actions_replace {front g blanks after m : Str}
    (hquoted : ActionsText (front ++ ',' :: (g ++ (blanks ++ after)))) (hfront : SplitsAfter front)
    (hg : IsLayout g) (hblanks : IsLayout blanks) (hm : IsLayout m) :
    ActionsText (front ++ ',' :: (g ++ (m ++ after))) ∧
      parseActions (front ++ ',' :: (g ++ (blanks ++ after))) =
        parseActions (front ++ ',' :: (g ++ (m ++ after))) := by
  have hplain : ∀ {s}, IsLayout s → ∀ c ∈ s, c ≠ '\\' ∧ c ≠ '"' := by
    intro s hs c hc
    rcases hs c hc with rfl | rfl
    · exact ⟨by decide, by decide⟩
    · exact ⟨by decide, by decide⟩
  constructor
  · have hbehind : ActionsText (g ++ (blanks ++ after)) := hquoted.behind (by decide)
    have hafter : ActionsText after :=
      (QuotedBody.append_iff (hplain hblanks)).mp ((QuotedBody.append_iff (hplain hg)).mp hbehind)
    exact hquoted.replace (by decide) (by decide) <|
      (QuotedBody.append_iff (hplain hg)).mpr ((QuotedBody.append_iff (hplain hm)).mpr hafter)
  · rw [← List.append_assoc, ← List.append_assoc,
      parseActions_layout hfront (hg.append hblanks).isAsciiBlank,
      parseActions_layout hfront (hg.append hm).isAsciiBlank]

/-- **Other blanks there, and at least one, say as little.** -/
theorem FreeGap.classify_eq {p blanks r m : Str} (h : FreeGap p blanks r) (hm : IsLayout m)
    (hne : m ≠ []) :
    classify (p ++ (blanks ++ r)) = classify (p ++ (m ++ r)) := by
  cases h with
  | operator line hgap =>
    have hblank := isBlank_replace line.blank_gap hgap hm
    have hhead := head_replace line.head_gap hgap hm hne
    have hsame : classify line.text = classify (line.withGap _ hblank hhead).text :=
      RuleLine.classify_congr rfl rfl rfl
    rw [RuleLine.text_withGap, RuleLine.text, hgap] at hsame
    simpa using hsame
  | actions line hgap =>
    have hblank := isBlank_replace line.blank_gap' hgap hm
    have hsame : classify line.text = classify (line.withGap' _ hblank).text :=
      RuleLine.classify_congr rfl rfl rfl
    rw [RuleLine.text_withGap', RuleLine.text, hgap] at hsame
    simpa using hsame
  | comma line hactions hfront hg hblanks =>
    obtain ⟨hquoted, hparse⟩ :=
      actions_replace (hactions ▸ line.actions_quoted) hfront hg hblanks hm
    rw [← hactions] at hparse
    have hsame : classify line.text = classify (line.withActions _ hquoted).text :=
      RuleLine.classify_congr rfl rfl hparse
    rw [RuleLine.text_withActions, RuleLine.text, RuleLine.quotedActions, hactions] at hsame
    simpa using hsame

/-- One line break more: blanks that say nothing, if there are any, are replaced by a backslash and
a line break, with spaces and tabs around. -/
inductive Relaid : Str → Str → Prop
  | step {a b blanks left newline right : Str} (hgap : FreeGap (lineFront a) blanks (lineBack b))
    (hblanks : '\n' ∉ blanks) (hleft : IsLayout left)
    (hnewline : newline = ['\n'] ∨ newline = ['\r', '\n']) (hright : IsLayout right) :
    Relaid (a ++ (blanks ++ b)) (a ++ (left ++ '\\' :: (newline ++ (right ++ b))))

/-- Lines that say the same can be exchanged. -/
theorem directives_congr {line line' : Str} (h : classify line = classify line')
    (before after : List Str) :
    directives (before ++ line :: after) = directives (before ++ line' :: after) := by
  induction before with
  | nil => rw [List.nil_append, List.nil_append, directives, directives, h]
  | cons first before ih => rw [List.cons_append, List.cons_append, directives, directives, ih]

/-- What is behind the blanks is not empty: it ends with the quote that closes the actions. -/
theorem FreeGap.ne_nil {p blanks r : Str} (h : FreeGap p blanks r) : r ≠ [] := by
  cases h with
  | operator line hgap => exact List.append_ne_nil_of_right_ne_nil _ (List.cons_ne_nil _ _)
  | actions line hgap => exact List.append_ne_nil_of_right_ne_nil _ (List.cons_ne_nil _ _)
  | comma line hactions hfront hg hblanks =>
    exact List.append_ne_nil_of_right_ne_nil _ (List.cons_ne_nil _ _)

/-- One line break more makes no difference. -/
theorem Relaid.parseStr_eq {text text' : Str} (h : Relaid text text') :
    parseStr text = parseStr text' := by
  obtain @⟨a, b, blanks, left, newline, right, hgap, hblanks, hleft, hnewline, hright⟩ := h
  obtain ⟨before, after, hplain, hbreak⟩ := joinContinuations_around a hgap.ne_nil
  have hlayout : IsLayout (left ++ ' ' :: right) := hleft.append hright.cons_space
  have hsame := hgap.classify_eq hlayout (by simp)
  rw [List.append_assoc, List.cons_append] at hsame
  rw [Crs.parseStr_eq, Crs.parseStr_eq, hplain blanks hblanks,
    hbreak left newline right hleft.newline_notMem hnewline hright.newline_notMem,
    directives_congr hsame]

/-- **However rules are broken over lines**, the text makes the same rules. -/
theorem parseStr_relaid {text text' : Str} (h : Relation.ReflTransGen Relaid text text') :
    parseStr text = parseStr text' := by
  induction h with
  | refl => rfl
  | tail _ hstep ih => exact ih.trans hstep.parseStr_eq

/-- The line `SecRule ARGS "@rx test" "A"`. -/
def testLine (actions : Str) (hactions : ActionsText actions) : RuleLine where
  indent := []
  skip := [' ']
  vars := "ARGS".toList
  gap := [' ']
  op := "@rx test".toList
  gap' := [' ']
  actions := actions
  back := []
  blank_indent := List.forall_mem_nil _
  blank_skip := forall_mem_of_all (by decide)
  vars_ne_nil := by decide
  head_vars := by
    intro c hc
    obtain rfl : 'A' = c := Option.some.inj hc
    decide
  word_vars := forall_mem_of_all (by decide)
  blank_gap := forall_mem_of_all (by decide)
  head_gap := ⟨' ', rfl, by decide⟩
  blank_gap' := forall_mem_of_all (by decide)
  actions_quoted := hactions
  blank_back := List.forall_mem_nil _

/-- A rule broken behind a comma of its actions. -/
theorem broken_behind_comma :
    parseStr "SecRule ARGS \"@rx test\" \"id:1,phase:2\"\n".toList =
      parseStr "SecRule ARGS \"@rx test\" \"id:1,\\\r\n  phase:2\"\n".toList := by
  have hactions : ActionsText "id:1,phase:2".toList := (quotedBody_iff (by decide)).mpr (by decide)
  have hcomma : "id:1,phase:2".toList =
      "id:1".toList ++ ',' :: ([] ++ ([] ++ "phase:2".toList)) := by decide
  have hgap := FreeGap.comma (testLine _ hactions) hcomma (by decide) (List.forall_mem_nil _)
    (List.forall_mem_nil _)
  have hfront : lineFront "SecRule ARGS \"@rx test\" \"id:1,".toList =
      [] ++ ("SecRule".toList ++ ([' '] ++ "ARGS".toList)) ++ ([' '] ++
        ('"' :: ("@rx test".toList ++ ['"']) ++ ([' '] ++ '"' :: ("id:1".toList ++ [','])))) := by
    decide
  have hback : lineBack "phase:2\"\n".toList = "phase:2".toList ++ ['"'] := by decide
  have hindent : IsLayout [' ', ' '] := forall_mem_of_all (by decide)
  have hstep : Relaid ("SecRule ARGS \"@rx test\" \"id:1,".toList ++ ([] ++ "phase:2\"\n".toList))
      ("SecRule ARGS \"@rx test\" \"id:1,".toList ++ ([] ++ '\\' :: (['\r', '\n'] ++
        ([' ', ' '] ++ "phase:2\"\n".toList)))) := by
    refine .step ?_ List.not_mem_nil (List.forall_mem_nil _) (Or.inr rfl) hindent
    rw [hfront, hback]
    exact hgap
  have hsame := parseStr_relaid (.single hstep)
  have htext : "SecRule ARGS \"@rx test\" \"id:1,phase:2\"\n".toList =
      "SecRule ARGS \"@rx test\" \"id:1,".toList ++ ([] ++ "phase:2\"\n".toList) := by
    decide
  have hbroken : "SecRule ARGS \"@rx test\" \"id:1,\\\r\n  phase:2\"\n".toList =
      "SecRule ARGS \"@rx test\" \"id:1,".toList ++ ([] ++ '\\' :: (['\r', '\n'] ++
        ([' ', ' '] ++ "phase:2\"\n".toList))) := by
    decide
  rw [htext, hbroken]
  exact hsame

end Crs

end Fywaf
