import Fywaf.Crs.Build
import Fywaf.Crs.Dispatch
import Fywaf.Crs.Joined
import Fywaf.Crs.Shields
import Fywaf.Crs.SkipTargets

/-!
# Rules in several files

The build script parses one file after the other. A file that leaves nothing open, no line and no
chain, is parsed alone as in front of others, so the files might as well be one. And a file that
leaves no jump open acts alone as among others, so the files might come in any order: only what is
reported depends on it.

## Main definitions

* `Crs.IsWhole` — a text that leaves neither a line nor a chain open
* `Crs.fileRules` — the rules of one file

## Main results

* `Crs.parseStr_append` — such a text is parsed by itself
* `Crs.extendRules_eq_parseStr` — **reading the files is reading them as one**
* `Crs.isSome_evaluate_extendRules` — **the order of the files does not decide what is blocked**
-/

namespace Fywaf

namespace Crs

/-! ### Texts -/

/-- The text ends with its last line, that line is not continued, and no chain is open behind it. -/
structure IsWhole (text : Str) : Prop where
  ends : text = [] ∨ text.getLast? = some '\n'
  line : ∀ line ∈ (lines text).getLast?, line.getLast? ≠ some '\\'
  chain : ∀ ds, directives (joinContinuations text) = .ok ds → chainOpen false ds = false

/-- Lines behind one that is not continued are joined by themselves. -/
theorem joinLines_done {ls : List Str} (hne : ls ≠ [])
    (h : ∀ line ∈ ls.getLast?, line.getLast? ≠ some '\\') (ls' : List Str) (current : Str) :
    joinLines current (ls ++ ls') = joinLines current ls ++ joinLines [] ls' := by
  induction ls generalizing current with
  | nil => exact absurd rfl hne
  | cons line ls ih =>
    cases ls with
    | nil =>
      have hline : line.getLast? ≠ some '\\' := h line rfl
      rw [List.cons_append, joinLines_cons, joinLines_cons, if_neg hline, if_neg hline]
      rfl
    | cons line' ls =>
      have hrest : ∀ current, joinLines current (line' :: ls ++ ls') =
          joinLines current (line' :: ls) ++ joinLines [] ls' :=
        ih (List.cons_ne_nil _ _) (by rwa [List.getLast?_cons_cons] at h)
      rw [List.cons_append, joinLines_cons, joinLines_cons, hrest, hrest]
      split
      · rfl
      · rfl

theorem joinContinuations_append {text : Str} (h : IsWhole text) (rest : Str) :
    joinContinuations (text ++ rest) = joinContinuations text ++ joinContinuations rest := by
  rcases h.ends with rfl | hlast
  · rfl
  · obtain ⟨front, rfl⟩ := List.getLast?_eq_some_iff.mp hlast
    have hnil : lines [] = [] := rfl
    have hlines : lines (front ++ ['\n']) = (front.splitOn '\n').map (chomp '\r') := by
      rw [lines_append_newline, hnil, List.append_nil]
    have hne : lines (front ++ ['\n']) ≠ [] := by
      rw [hlines]
      exact mt List.map_eq_nil_iff.mp (List.splitOn_ne_nil _ _)
    have hboth : lines (front ++ ['\n'] ++ rest) = lines (front ++ ['\n']) ++ lines rest := by
      rw [hlines, List.append_assoc, List.singleton_append, lines_append_newline]
    rw [joinContinuations, hboth, joinLines_done hne h.line]
    rfl

/-- What lines say, and then others. -/
theorem directives_append_eq (ls ms : List Str) : directives (ls ++ ms) =
    (directives ls).bind fun ds => (directives ms).map (ds ++ ·) := by
  induction ls with
  | nil =>
    rw [List.nil_append, directives]
    cases directives ms <;> rfl
  | cons line ls ih =>
    rw [List.cons_append, directives, directives]
    cases classify line with
    | error e => rfl
    | ok d =>
      dsimp only
      rw [ih]
      cases directives ls with
      | error e => rfl
      | ok ds =>
        cases directives ms with
        | error e => rfl
        | ok es => exact congrArg Except.ok (List.append_assoc _ _ _).symm

/-- With no chain open, what follows is emitted by itself. -/
theorem emitted_append {pending : Option Rule} {ds : List Directive}
    (h : chainOpen pending.isSome ds = false) (es : List Directive) :
    emitted pending (ds ++ es) = emitted pending ds ++ emitted none es := by
  induction ds generalizing pending with
  | nil =>
    obtain rfl : pending = none := Option.isNone_iff_eq_none.mp (Option.isSome_eq_false_iff.mp h)
    rfl
  | cons d ds ih =>
    rw [List.cons_append, emitted, emitted, ih (chainOpen_cons pending d ds ▸ h),
      List.append_assoc]

/-- **A text that leaves nothing open is parsed by itself.** -/
theorem parseStr_append {text : Str} (h : IsWhole text) (rest : Str) :
    parseStr (text ++ rest) =
      (parseStr text).bind fun rules => (parseStr rest).map (rules ++ ·) := by
  rw [parseStr_eq, parseStr_eq, parseStr_eq, joinContinuations_append h, directives_append_eq]
  cases hds : directives (joinContinuations text) with
  | error e => rfl
  | ok ds =>
    cases directives (joinContinuations rest) with
    | error e => rfl
    | ok es =>
      exact congrArg Except.ok (@emitted_append none ds (h.chain ds hds) es)

section Files

variable {fs : FileSystem} {names names' : List Str}

/-- **Reading the files is reading them as one**, if each of them leaves nothing open. -/
theorem extendRules_eq_parseStr (h : ∀ name ∈ names, ∀ text ∈ fs.file (rulesPath name),
    IsWhole text) : extendRules fs names =
      parseStr (names.flatMap fun name => (fs.file (rulesPath name)).getD []) := by
  induction names with
  | nil => rfl
  | cons name names ih =>
    obtain ⟨hfile, hrest⟩ := List.forall_mem_cons.mp h
    rw [extendRules, ih hrest, List.flatMap_cons, parseConf]
    cases htext : fs.file (rulesPath name) with
    | none =>
      dsimp only [Option.getD_none]
      rw [List.nil_append]
      cases parseStr (names.flatMap fun name => (fs.file (rulesPath name)).getD []) <;> rfl
    | some text =>
      dsimp only [Option.getD_some]
      rw [parseStr_append (hfile text htext)]
      cases parseStr text with
      | error e => rfl
      | ok rules =>
        cases parseStr (names.flatMap fun name => (fs.file (rulesPath name)).getD []) <;> rfl

end Files

/-- A file that jumps to its end, and one that is a marker. -/
def twoFiles : FileSystem where
  file path :=
    if path = rulesPath "REQUEST-942-APPLICATION-ATTACK-SQLI.conf".toList then
      some (jumpText "END".toList ++ ['\n'])
    else some (endLine ++ ['\n'])
  isDir _ := true

theorem isWhole_jumpText : IsWhole (jumpText "END".toList ++ ['\n']) where
  ends := Or.inr List.getLast?_concat
  line := by decide
  chain ds hds := by
    have hclosed : (directives (joinContinuations (jumpText "END".toList ++ ['\n']))).toOption.map
        (chainOpen false) = some false := by
      decide
    rw [hds] at hclosed
    exact Option.some.inj hclosed

theorem isWhole_endLine : IsWhole (endLine ++ ['\n']) where
  ends := Or.inr List.getLast?_concat
  line := by decide
  chain ds hds := by
    have hclosed : (directives (joinContinuations (endLine ++ ['\n']))).toOption.map
        (chainOpen false) = some false := by
      decide
    rw [hds] at hclosed
    exact Option.some.inj hclosed

/-- They are read as one. -/
theorem extendRules_twoFiles : extendRules twoFiles confFiles =
    parseStr (jumpText "END".toList ++ ['\n'] ++ (endLine ++ ['\n'])) := by
  refine (extendRules_eq_parseStr fun name _ text htext => ?_).trans ?_
  · rw [Option.mem_def] at htext
    unfold twoFiles at htext
    dsimp only at htext
    split at htext
    · exact Option.some.inj htext ▸ isWhole_jumpText
    · exact Option.some.inj htext ▸ isWhole_endLine
  · exact congrArg parseStr (by decide)

/-! ### Rules -/

section Files

variable {fs : FileSystem} {names names' : List Str}

/-- The rules of a file, none when it cannot be read. -/
def fileRules (fs : FileSystem) (name : Str) : List Rule :=
  (((parseConf fs (rulesPath name)).toOption.getD none).getD [])

/-- The rules of the files, one after the other. -/
theorem extendRules_eq_ok_iff {rules : List Rule} : extendRules fs names = .ok rules ↔
    (∀ name ∈ names, ∃ file, parseConf fs (rulesPath name) = .ok file) ∧
      rules = names.flatMap (fileRules fs) := by
  induction names generalizing rules with
  | nil => exact ⟨fun h => ⟨List.forall_mem_nil _, (Except.ok.inj h).symm⟩, fun h => h.2 ▸ rfl⟩
  | cons name names ih =>
    rw [extendRules, List.forall_mem_cons, List.flatMap_cons, fileRules]
    cases parseConf fs (rulesPath name) with
    | error e => exact ⟨fun h => (by cases h), fun ⟨⟨⟨_, h⟩, _⟩, _⟩ => by cases h⟩
    | ok file =>
      rw [ok_bind, bind_eq_ok_iff]
      constructor
      · rintro ⟨rest, hrest, hrules⟩
        obtain ⟨hfiles, rfl⟩ := ih.mp hrest
        exact ⟨⟨⟨file, rfl⟩, hfiles⟩, (Except.ok.inj hrules).symm⟩
      · rintro ⟨⟨-, hfiles⟩, rfl⟩
        exact ⟨_, ih.mpr ⟨hfiles, rfl⟩, rfl⟩

variable {regex : RegexNew} {ctx : RequestContext} {paranoiaLevel : UInt8}

variable (regex ctx paranoiaLevel) in
/-- Each file acts by itself. -/
theorem acting_flatMap {files : Str → List Rule} (h : ∀ name ∈ names, JumpsEnd (files name)) :
    (ruleSkips regex ctx paranoiaLevel).acting none (names.flatMap files) =
      names.flatMap fun name => (ruleSkips regex ctx paranoiaLevel).acting none (files name) := by
  induction names with
  | nil => rfl
  | cons name names ih =>
    obtain ⟨hfile, hrest⟩ := List.forall_mem_cons.mp h
    rw [List.flatMap_cons, List.flatMap_cons, Skips.acting_append,
      stateAfter_of_jumpsEnd regex ctx paranoiaLevel hfile, ih hrest]

/-- **The order of the files does not decide what is blocked**, for any request, level and
threshold. -/
theorem isSome_evaluate_extendRules {rules : List Rule} (hperm : names.Perm names')
    (hrules : extendRules fs names = .ok rules)
    (hends : ∀ name ∈ names, JumpsEnd (fileRules fs name)) :
    ∃ rules', extendRules fs names' = .ok rules' ∧
      ∀ regex ctx paranoiaLevel anomalyThreshold,
        (evaluate regex ctx paranoiaLevel anomalyThreshold rules).isSome =
          (evaluate regex ctx paranoiaLevel anomalyThreshold rules').isSome := by
  obtain ⟨hfiles, rfl⟩ := extendRules_eq_ok_iff.mp hrules
  refine ⟨names'.flatMap (fileRules fs), extendRules_eq_ok_iff.mpr
    ⟨fun name hname => hfiles name (hperm.mem_iff.mpr hname), rfl⟩,
    fun regex ctx paranoiaLevel anomalyThreshold => isSome_evaluate_of_perm ?_⟩
  rw [acting_flatMap regex ctx paranoiaLevel hends, acting_flatMap regex ctx paranoiaLevel
    fun name hname => hends name (hperm.mem_iff.mpr hname)]
  exact hperm.flatMap_right _

end Files

/-- The two files can change places. -/
theorem isSome_evaluate_twoFiles : ∃ rules rules', extendRules twoFiles confFiles = .ok rules ∧
    extendRules twoFiles confFiles.reverse = .ok rules' ∧
      ∀ regex ctx paranoiaLevel anomalyThreshold,
        (evaluate regex ctx paranoiaLevel anomalyThreshold rules).isSome =
          (evaluate regex ctx paranoiaLevel anomalyThreshold rules').isSome := by
  have hread : (extendRules twoFiles confFiles).toOption.isSome = true := by decide
  obtain ⟨rules, hrules⟩ := Option.isSome_iff_exists.mp hread
  have hends : (confFiles.all fun name => decide (JumpsEnd (fileRules twoFiles name))) = true := by
    decide +kernel
  obtain ⟨rules', hrules', hsame⟩ := isSome_evaluate_extendRules
    (List.reverse_perm confFiles).symm (toOption_eq_some_iff.mp hrules)
    fun name hname => of_decide_eq_true (List.all_eq_true.mp hends name hname)
  exact ⟨rules, rules', toOption_eq_some_iff.mp hrules, hrules', hsame⟩

end Crs

end Fywaf
