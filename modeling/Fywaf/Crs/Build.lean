import Fywaf.Crs.Entries
import Fywaf.Crs.Unevaluable

/-!
# Building the rule set

The build script parses the configuration files of the rule set and writes the rules as JSON, which
the guest is compiled with and reads back when it is first asked. The file system is a map from
paths to contents, and the JSON of rules is a codec.

## Main definitions

* `Crs.FileSystem`, `Crs.parseConf`
* `Crs.RulesCodec`, `Crs.builtRules`, `Crs.crsRulesJson`, `Crs.getRules`

## Main results

* `Crs.flatMap_conditions_emitted` — every condition of a file is emitted once, in its order
* `Crs.mem_conditions_of_line` — the condition of a line reaches the guest
-/

namespace Fywaf

namespace Crs

/-! ### The build script -/

/-- The file system: what reading a file gives, if it can be read as text, and which directories
there are. -/
structure FileSystem where
  file : Str → Option Str
  isDir : Str → Bool

/-- The directory of the rule set. -/
def rulesDir : Str := "../vendor/coreruleset/rules".toList

/-- A file of the rule set. -/
def rulesPath (name : Str) : Str := rulesDir ++ '/' :: name

/-- The files that are built in. -/
def confFiles : List Str :=
  ["REQUEST-942-APPLICATION-ATTACK-SQLI.conf".toList,
    "REQUEST-941-APPLICATION-ATTACK-XSS.conf".toList]

/-- `parse_conf`: nothing when the file cannot be read. -/
def parseConf (fs : FileSystem) (path : Str) : Except Panic (Option (List Rule)) :=
  match fs.file path with
  | none => .ok none
  | some content => (parseStr content).map some

/-- The loop over the files: one that cannot be read is passed over with a warning. -/
def extendRules (fs : FileSystem) : List Str → Except Panic (List Rule)
  | [] => .ok []
  | name :: names => do
    let rules ← parseConf fs (rulesPath name)
    let rest ← extendRules fs names
    return rules.getD [] ++ rest

/-- The rules that the build script collects: none when the directory is missing. -/
def builtRules (fs : FileSystem) : Except Panic (List Rule) :=
  if fs.isDir rulesDir then extendRules fs confFiles else .ok []

/-- `serde_json` on lists of rules. -/
structure RulesCodec where
  write : List Rule → Str
  read : Str → Option (List Rule)

/-- The text that the guest is compiled with. -/
def crsRulesJson (codec : RulesCodec) (fs : FileSystem) : Except Panic Str :=
  (builtRules fs).map codec.write

/-- `get_rules`: nothing when the text is malformed. -/
def getRules (codec : RulesCodec) (text : Str) : Option (List Rule) := codec.read text

/-! ### Conditions -/

/-- The conditions that a directive says. A marker has one that is never looked at. -/
def Directive.conditions : Directive → List ChainedRule
  | .marker name => (markerRule name).conditions
  | .rule r _ => [r.link]
  | .unparseable => []
  | .other => []

/-- A directive emits the conditions that are pending and its own, or they are pending then. -/
theorem conditions_advance (pending : Option Rule) {d : Directive} (hfresh : Fresh [d]) :
    (advance pending d).1.flatMap Rule.conditions ++
      (advance pending d).2.toList.flatMap Rule.conditions =
    pending.toList.flatMap Rule.conditions ++ d.conditions := by
  cases d with
  | marker name => cases pending <;> simp [advance, Directive.conditions]
  | unparseable => cases pending <;> simp [advance, Directive.conditions]
  | other => cases pending <;> simp [advance, Directive.conditions]
  | rule rule isChain =>
    have hlink : ∀ head : Rule, (head.addLink rule.link).conditions =
        head.conditions ++ [rule.link] := fun head => rfl
    have hown : rule.conditions = [rule.link] := by
      rw [Rule.conditions, hfresh rule isChain List.mem_cons_self]
      rfl
    cases pending <;> cases isChain <;> simp [advance, Directive.conditions, hlink, hown]

/-- **Every condition of a file is emitted once, in its order.** -/
theorem flatMap_conditions_emitted (pending : Option Rule) {ds : List Directive}
    (hfresh : Fresh ds) : (emitted pending ds).flatMap Rule.conditions =
      pending.toList.flatMap Rule.conditions ++ ds.flatMap Directive.conditions := by
  induction ds generalizing pending with
  | nil => simp [emitted]
  | cons d ds ih =>
    have hhead : Fresh [d] := fun rule isChain hmem =>
      hfresh rule isChain (List.mem_cons.mpr (Or.inl (List.mem_singleton.mp hmem)))
    have hrest : Fresh ds := fun rule isChain hmem =>
      hfresh rule isChain (List.mem_cons_of_mem d hmem)
    rw [emitted, List.flatMap_append, ih _ hrest, ← List.append_assoc,
      conditions_advance pending hhead, List.append_assoc, List.flatMap_cons]

/-! ### From a line to the guest -/

/-- What a line says is among what the lines say. -/
theorem mem_directives {lines : List Str} {ds : List Directive} (h : directives lines = .ok ds)
    {line : Str} (hline : line ∈ lines) :
    ∃ said, classify line = .ok said ∧ ∀ d ∈ said, d ∈ ds := by
  induction lines generalizing ds with
  | nil => cases hline
  | cons first lines ih =>
    rw [directives] at h
    split at h
    · cases h
    · next said hsaid =>
      obtain ⟨rest, hrest, rfl⟩ := map_eq_ok_iff.mp h
      rcases List.mem_cons.mp hline with rfl | hline
      · exact ⟨said, hsaid, fun d hd => List.mem_append_left _ (Option.mem_toList.mpr hd)⟩
      · obtain ⟨said', hsaid', hmem⟩ := ih hrest hline
        exact ⟨said', hsaid', fun d hd => List.mem_append_right _ (hmem d hd)⟩

/-- A line with fields says the rule that they make. -/
theorem classify_of_fields {line varsStr opStr actionsRaw : Str}
    (h : lineFields line = .ok (some (varsStr, opStr, actionsRaw))) :
    classify line = (parseVariables varsStr).map fun vars =>
      some (.rule (buildRule vars opStr actionsRaw).1 (buildRule vars opStr actionsRaw).2) := by
  have hmarker : stripPrefix "SecMarker".toList (trim line) = none := by
    by_contra hsome
    obtain ⟨rest, hrest⟩ := Option.ne_none_iff_exists'.mp hsome
    exact not_isMarkerLine (isRuleLine_of_lineFields h)
      ⟨rest, (stripPrefix_eq_some_iff.mp hrest).symm⟩
  rw [lineFields] at h
  cases hrest : stripPrefix "SecRule".toList (trim line) with
  | none => rw [hrest] at h; cases h
  | some rest =>
    rw [hrest] at h
    have htrim := stripPrefix_eq_some_iff.mp hrest
    have hsilent : ¬ (trim line = [] ∨ (trim line).head? = some '#') := by
      rw [htrim]
      rintro (hnil | hhash)
      · cases hnil
      · exact absurd (Option.some.inj hhash) (by decide)
    dsimp only at h
    have hrule : parseSecrule (trim rest) = (parseVariables varsStr).map fun vars =>
        some (buildRule vars opStr actionsRaw) := by
      rw [parseSecrule_eq, h]
      rfl
    rw [classify, if_neg hsilent, hmarker, hrest]
    dsimp only
    rw [hrule]
    cases parseVariables varsStr with
    | error e => rfl
    | ok vars => rfl

/-- The rules of every file that can be read are among the rules. -/
theorem mem_extendRules {fs : FileSystem} {names : List Str} {built : List Rule}
    (h : extendRules fs names = .ok built) {name text : Str} (hname : name ∈ names)
    (htext : fs.file (rulesPath name) = some text) :
    ∃ rules, parseStr text = .ok rules ∧ rules ⊆ built := by
  induction names generalizing built with
  | nil => cases hname
  | cons first names ih =>
    obtain ⟨parsed, hparsed, h⟩ := bind_eq_ok_iff.mp h
    obtain ⟨rest, hrest, h⟩ := bind_eq_ok_iff.mp h
    obtain rfl : parsed.getD [] ++ rest = built := Except.ok.inj h
    rcases List.mem_cons.mp hname with rfl | hname
    · rw [parseConf, htext] at hparsed
      obtain ⟨rules, hrules, rfl⟩ := map_eq_ok_iff.mp hparsed
      exact ⟨rules, hrules, List.subset_append_left _ _⟩
    · obtain ⟨rules, hrules, hsub⟩ := ih hrest hname
      exact ⟨rules, hrules, List.Subset.trans hsub (List.subset_append_right _ _)⟩

/-- **The condition of a rule line is built in.** -/
theorem mem_conditions_of_line {fs : FileSystem} {built : List Rule}
    {name text line varsStr opStr actionsRaw : Str} (hbuilt : builtRules fs = .ok built)
    (hdir : fs.isDir rulesDir = true) (hname : name ∈ confFiles)
    (htext : fs.file (rulesPath name) = some text) (hline : line ∈ joinContinuations text)
    (hfields : lineFields line = .ok (some (varsStr, opStr, actionsRaw))) :
    ∃ vars, parseVariables varsStr = .ok vars ∧
      (buildRule vars opStr actionsRaw).1.link ∈ built.flatMap Rule.conditions := by
  rw [builtRules, if_pos hdir] at hbuilt
  obtain ⟨rules, hrules, hsub⟩ := mem_extendRules hbuilt hname htext
  rw [parseStr_eq] at hrules
  obtain ⟨ds, hds, rfl⟩ := map_eq_ok_iff.mp hrules
  obtain ⟨said, hsaid, hmem⟩ := mem_directives hds hline
  rw [classify_of_fields hfields] at hsaid
  obtain ⟨vars, hvars, rfl⟩ := map_eq_ok_iff.mp hsaid
  refine ⟨vars, hvars, ?_⟩
  have hcond : (buildRule vars opStr actionsRaw).1.link ∈ ds.flatMap Directive.conditions :=
    List.mem_flatMap.mpr ⟨_, hmem _ rfl, List.mem_singleton.mpr rfl⟩
  have hall := flatMap_conditions_emitted none (fresh_directives hds)
  rw [Option.toList_none, List.flatMap_nil, List.nil_append] at hall
  rw [← hall] at hcond
  obtain ⟨rule, hrule, hmem⟩ := List.mem_flatMap.mp hcond
  exact List.mem_flatMap.mpr ⟨rule, hsub hrule, hmem⟩

end Crs

end Fywaf
