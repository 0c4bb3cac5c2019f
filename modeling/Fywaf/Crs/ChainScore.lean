import Fywaf.Crs.Engine
import Fywaf.Crs.Markers

/-!
# The score of a chain

The lines of a chain make one rule, and each of them may declare by how much the anomaly score
grows. Each line is read for its score, but what is kept of a line that is chained onto another has
no place for one: a score that only such a line declares is lost, and the engine adds the default.

## Main definitions

* `Crs.Chain`, `Crs.Group`, `Crs.groups` — the entries of a file with all the lines they are made of
* `Crs.declaredScore`, `Crs.Chain.declaredScore` — the score that a line and a chain declare
* `Crs.KeepsScore` — the entry of a chain has the score that the chain declares

## Main results

* `Crs.parseStr_eq_groups` — the groups are the entries of the parser
* `Crs.keepsScore_iff` — exactly when a chain keeps its score
-/

namespace Fywaf

namespace Crs

/-! ### Entries with all their lines -/

/-- The lines of one entry, each with its rule: the one that opens it and those chained onto it. -/
structure Chain where
  head : Str × Rule
  links : List (Str × Rule)

/-- The lines, in order. -/
def Chain.lines (chain : Chain) : List Str := chain.head.1 :: chain.links.map Prod.fst

/-- The entry that the lines make. -/
def Chain.rule (chain : Chain) : Rule :=
  { chain.head.2 with
    chained := chain.head.2.chained ++ chain.links.map fun link => link.2.link }

/-- One more line. -/
def Chain.add (chain : Chain) (link : Str × Rule) : Chain := ⟨chain.head, chain.links ++ [link]⟩

/-- An entry by what it is made of. -/
inductive Group
  | marker (name : Str)
  | chain (c : Chain)

def Group.entry : Group → Rule
  | .marker name => markerRule name
  | .chain c => c.rule

/-- What the parser emits for a directive and which chain is pending then. -/
def advanceGrouped : Option Chain → Str × Directive → List Group × Option Chain
  | pending, (_, .marker name) => (pending.toList.map .chain ++ [.marker name], none)
  | none, (line, .rule rule isChain) =>
    if isChain then ([], some ⟨(line, rule), []⟩) else ([.chain ⟨(line, rule), []⟩], none)
  | some chain, (line, .rule rule isChain) =>
    if isChain then ([], some (chain.add (line, rule)))
    else ([.chain (chain.add (line, rule))], none)
  | pending, (_, .unparseable) => ([], pending)
  | pending, (_, .other) => (pending.toList.map .chain, none)

/-- The entries, given the chain that is pending. -/
def grouped : Option Chain → List (Str × Directive) → List Group
  | pending, [] => pending.toList.map .chain
  | pending, d :: ds => (advanceGrouped pending d).1 ++ grouped (advanceGrouped pending d).2 ds

/-- The entries of a file by what they are made of. -/
def groups (text : Str) : Except Panic (List Group) :=
  (classified (joinContinuations text)).map (grouped none)

theorem Chain.rule_add (chain : Chain) (link : Str × Rule) :
    (chain.add link).rule = chain.rule.addLink link.2.link := by
  simp only [Chain.rule, Chain.add, Rule.addLink, List.map_append, List.map_singleton,
    List.append_assoc]

theorem Chain.rule_single (line : Str) (rule : Rule) : Chain.rule ⟨(line, rule), []⟩ = rule := by
  simp only [Chain.rule, List.map_nil, List.append_nil]

theorem advance_eq_grouped (pending : Option Chain) (d : Str × Directive) :
    advance (pending.map Chain.rule) d.2 = ((advanceGrouped pending d).1.map Group.entry,
      (advanceGrouped pending d).2.map Chain.rule) := by
  obtain ⟨line, d⟩ := d
  cases d with
  | marker name => cases pending <;> rfl
  | unparseable => cases pending <;> rfl
  | other => cases pending <;> rfl
  | rule rule isChain =>
    cases pending with
    | none =>
      have hsingle := Chain.rule_single line rule
      cases isChain <;> simp [advance, advanceGrouped, Group.entry, hsingle]
    | some chain =>
      have hadd := chain.rule_add (line, rule)
      cases isChain <;> simp [advance, advanceGrouped, Group.entry, hadd]

theorem emitted_eq_grouped (ds : List (Str × Directive)) (pending : Option Chain) :
    emitted (pending.map Chain.rule) (ds.map Prod.snd) =
      (grouped pending ds).map Group.entry := by
  induction ds generalizing pending with
  | nil => cases pending <;> rfl
  | cons d ds ih =>
    rw [List.map_cons, emitted, grouped, advance_eq_grouped, ih, List.map_append]

/-- **The groups are the entries of the parser.** -/
theorem parseStr_eq_groups (text : Str) :
    parseStr text = (groups text).map (List.map Group.entry) := by
  rw [parseStr_eq, directives_eq, groups]
  cases classified (joinContinuations text) with
  | error e => rfl
  | ok ds => exact congrArg Except.ok (emitted_eq_grouped ds none)

/-! ### What is declared -/

/-- The increment that a line declares: the first that is found in its `setvar` actions. -/
def declaredScore (line : Str) : Option UInt32 :=
  match lineFields line with
  | .ok (some (_, _, actionsRaw)) =>
    (actionValues (openValue "setvar".toList) actionsRaw).findSome? extractAnomalyScore
  | _ => none

/-- The increment that a chain declares: the first that is found in its lines. -/
def Chain.declaredScore (chain : Chain) : Option UInt32 := chain.lines.findSome? Crs.declaredScore

theorem openValue_eq_some {key token val : Str} (h : openValue key token = some val) :
    token = key ++ [':', '\''] ++ val ∨ token = key ++ [':', '"'] ++ val := by
  rcases Option.or_eq_some_iff.mp h with h | ⟨-, h⟩
  · exact Or.inl (stripPrefix_eq_some_iff.mp h)
  · exact Or.inr (stripPrefix_eq_some_iff.mp h)

/-- Only a `setvar` action declares an increment, and the first that does counts. -/
theorem anomalyScore_applyAction (acc : Actions) (token : Str) :
    (applyAction acc token).anomalyScore = acc.anomalyScore.or
      ((openValue "setvar".toList (trim token)).bind extractAnomalyScore) := by
  rw [applyAction]
  generalize trim token = token
  cases hval : openValue "setvar".toList token with
  | some val =>
    rcases openValue_eq_some hval with rfl | rfl
    · rfl
    · rfl
  | none =>
    simp only [Option.bind_none, Option.or_none]
    repeat' split
    all_goals rfl

theorem anomalyScore_foldl (tokens : List Str) (acc : Actions) :
    (tokens.foldl applyAction acc).anomalyScore = acc.anomalyScore.or
      (((tokens.map trim).filterMap (openValue "setvar".toList)).findSome?
        extractAnomalyScore) := by
  induction tokens generalizing acc with
  | nil => rw [List.foldl_nil, List.map_nil, List.filterMap_nil, List.findSome?_nil, Option.or_none]
  | cons token tokens ih =>
    rw [List.foldl_cons, ih, anomalyScore_applyAction, Option.or_assoc, List.map_cons,
      List.filterMap_cons]
    cases openValue "setvar".toList (trim token) with
    | none => rfl
    | some val =>
      dsimp only [Option.bind_some]
      rw [List.findSome?_cons]
      cases extractAnomalyScore val <;> rfl

theorem anomalyScore_parseActions (actionsRaw : Str) : (parseActions actionsRaw).anomalyScore =
    (actionValues (openValue "setvar".toList) actionsRaw).findSome? extractAnomalyScore := by
  rw [parseActions, anomalyScore_foldl]
  rfl

/-- The score of a line's rule is the one that the line declares. -/
theorem anomalyScore_of_classify {line : Str} {rule : Rule} {isChain : Bool}
    (h : classify line = .ok (some (.rule rule isChain))) :
    rule.anomalyScore = declaredScore line := by
  obtain ⟨varsStr, opStr, actionsRaw, vars, hfields, -, hrule⟩ := fields_of_classify h
  obtain rfl : rule = (buildRule vars opStr actionsRaw).1 := congrArg Prod.fst hrule
  rw [declaredScore, hfields]
  exact anomalyScore_parseActions actionsRaw

/-! ### Chains -/

/-- The entry of the chain has the score that the chain declares, so that the default stands in
only where no line declares one. -/
structure KeepsScore (c : Chain) : Prop where
  kept : c.rule.anomalyScore = c.declaredScore
  default : c.rule.anomalyScore = none → ∀ line ∈ c.lines, declaredScore line = none

/-- Every line of the chain is a rule line, with the rule that it makes. -/
def Chain.Read (c : Chain) : Prop :=
  ∀ l ∈ c.head :: c.links, ∃ isChain, classify l.1 = .ok (some (.rule l.2 isChain))

theorem Chain.Read.add {c : Chain} (h : c.Read) {link : Str × Rule} {isChain : Bool}
    (hlink : classify link.1 = .ok (some (.rule link.2 isChain))) : (c.add link).Read := by
  intro l hl
  rw [Chain.add, ← List.cons_append] at hl
  rcases List.mem_append.mp hl with hl | hl
  · exact h l hl
  · exact List.mem_singleton.mp hl ▸ ⟨isChain, hlink⟩

/-- One directive keeps the pending chain read and emits chains that are. -/
theorem advanceGrouped_read {pending : Option Chain} (hpending : ∀ c ∈ pending, c.Read)
    {d : Str × Directive} (hd : classify d.1 = .ok (some d.2)) :
    (∀ c, .chain c ∈ (advanceGrouped pending d).1 → c.Read) ∧
      ∀ c ∈ (advanceGrouped pending d).2, c.Read := by
  have hflush : ∀ c, Group.chain c ∈ pending.toList.map Group.chain → c.Read := by
    intro c hc
    obtain ⟨c', hc', heq⟩ := List.mem_map.mp hc
    obtain rfl := Group.chain.inj heq
    exact hpending c' (Option.mem_toList.mp hc')
  obtain ⟨line, d⟩ := d
  cases d with
  | unparseable => cases pending <;> exact ⟨fun c hc => (by cases hc), hpending⟩
  | other => cases pending <;> exact ⟨hflush, fun c hc => by cases hc⟩
  | marker name =>
    have heq : advanceGrouped pending (line, .marker name) =
        (pending.toList.map .chain ++ [.marker name], none) := by cases pending <;> rfl
    rw [heq]
    refine ⟨fun c hc => ?_, fun c hc => by cases hc⟩
    rcases List.mem_append.mp hc with hc | hc
    · exact hflush c hc
    · cases List.mem_singleton.mp hc
  | rule rule isChain =>
    have hopened : ∃ c : Chain, c.Read ∧ advanceGrouped pending (line, .rule rule isChain) =
        if isChain then ([], some c) else ([.chain c], none) := by
      cases pending with
      | none =>
        refine ⟨⟨(line, rule), []⟩, fun l hl => ?_, rfl⟩
        exact List.mem_singleton.mp hl ▸ ⟨isChain, hd⟩
      | some c => exact ⟨c.add (line, rule), (hpending c rfl).add hd, rfl⟩
    obtain ⟨c, hread, heq⟩ := hopened
    rw [heq]
    cases isChain with
    | true =>
      refine ⟨fun c' hc' => (by cases hc'), fun c' hc' => ?_⟩
      exact Option.some.inj hc' ▸ hread
    | false =>
      refine ⟨fun c' hc' => ?_, fun c' hc' => by cases hc'⟩
      exact Group.chain.inj (List.mem_singleton.mp hc') ▸ hread

theorem grouped_read {ds : List (Str × Directive)}
    (hds : ∀ d ∈ ds, classify d.1 = .ok (some d.2)) :
    ∀ {pending : Option Chain}, (∀ c ∈ pending, c.Read) →
      ∀ c, .chain c ∈ grouped pending ds → c.Read := by
  induction ds with
  | nil =>
    intro pending hpending c hc
    obtain ⟨c', hc', heq⟩ := List.mem_map.mp hc
    exact Group.chain.inj heq ▸ hpending c' (Option.mem_toList.mp hc')
  | cons d ds ih =>
    intro pending hpending c hc
    obtain ⟨hemit, hnext⟩ := advanceGrouped_read hpending (hds d List.mem_cons_self)
    rcases List.mem_append.mp hc with hc | hc
    · exact hemit c hc
    · exact ih (fun d hd => hds d (List.mem_cons_of_mem _ hd)) hnext c hc

/-- **Every line of a chain is a rule line**, with the rule that it makes. -/
theorem groups_read {text : Str} {gs : List Group} (h : groups text = .ok gs) {c : Chain}
    (hc : .chain c ∈ gs) : c.Read := by
  obtain ⟨ds, hds, rfl⟩ := map_eq_ok_iff.mp h
  exact grouped_read (fun d hd => mem_classified hds hd) (fun c hc => by cases hc) c hc

theorem keepsScore_iff_of_read {c : Chain} (h : c.Read) :
    KeepsScore c ↔ (declaredScore c.head.1).isSome ∨
      ∀ link ∈ c.links, declaredScore link.1 = none := by
  obtain ⟨isChain, hhead⟩ := h c.head List.mem_cons_self
  have hscore : c.rule.anomalyScore = declaredScore c.head.1 := by
    rw [← anomalyScore_of_classify hhead]
    rfl
  have hdeclared : c.declaredScore =
      (declaredScore c.head.1).or ((c.links.map Prod.fst).findSome? declaredScore) := by
    rw [Chain.declaredScore, Chain.lines, List.findSome?_cons]
    cases declaredScore c.head.1 <;> rfl
  have hnone : (c.links.map Prod.fst).findSome? declaredScore = none ↔
      ∀ link ∈ c.links, declaredScore link.1 = none := by
    rw [List.findSome?_eq_none_iff, List.forall_mem_map]
  constructor
  · rintro ⟨hkept, -⟩
    rw [hscore, hdeclared] at hkept
    cases hd : declaredScore c.head.1 with
    | some n => exact Or.inl rfl
    | none =>
      rw [hd, Option.none_or] at hkept
      exact Or.inr (hnone.mp hkept.symm)
  · intro hcond
    have hkept : c.rule.anomalyScore = c.declaredScore := by
      rw [hscore, hdeclared]
      rcases hcond with hsome | hlinks
      · obtain ⟨n, hn⟩ := Option.isSome_iff_exists.mp hsome
        rw [hn]
        rfl
      · rw [hnone.mpr hlinks, Option.or_none]
    refine ⟨hkept, fun hdefault => ?_⟩
    rw [hkept] at hdefault
    exact List.findSome?_eq_none_iff.mp hdefault

/-- **Exactly when a chain keeps its score**: when the line that opens it declares one, or none of
the lines chained onto it does. -/
theorem keepsScore_iff {text : Str} {gs : List Group} {c : Chain} (hgroups : groups text = .ok gs)
    (hc : .chain c ∈ gs) :
    (∃ rules, parseStr text = .ok rules ∧ c.rule ∈ rules) ∧
      (KeepsScore c ↔ (declaredScore c.head.1).isSome ∨
        ∀ link ∈ c.links, declaredScore link.1 = none) := by
  refine ⟨⟨gs.map Group.entry, ?_, List.mem_map.mpr ⟨_, hc, rfl⟩⟩, ?_⟩
  · rw [parseStr_eq_groups, hgroups]
    rfl
  · exact keepsScore_iff_of_read (groups_read hgroups hc)

/-- A chain whose second line declares the increment of a notice. -/
def noticeText : Str :=
  "SecRule ARGS \"@rx a\" \"id:1,phase:2,block,chain\"\n".toList ++
    "SecRule ARGS \"@rx b\" \"setvar:'tx.score=+%{tx.notice_anomaly_score}'\"\n".toList

/-- The chain of an entry that is one. -/
def Group.chain? : Group → Option Chain
  | .marker _ => none
  | .chain c => some c

theorem mem_of_mem_chains {gs : List Group} {c : Chain} (h : c ∈ gs.filterMap Group.chain?) :
    .chain c ∈ gs := by
  obtain ⟨g, hg, heq⟩ := List.mem_filterMap.mp h
  cases g with
  | marker name => cases heq
  | chain c' => exact Option.some.inj heq ▸ hg

/-- Its entry has none, and counts as critical. -/
theorem notice_lost : ¬ ∀ text gs c, groups text = .ok gs → .chain c ∈ gs → KeepsScore c := by
  intro h
  have hrun : (groups noticeText).toOption.map (fun gs => (gs.filterMap Group.chain?).map fun c =>
      (c.rule.anomalyScore, c.declaredScore)) = some [(none, some 2)] := by decide +kernel
  obtain ⟨gs, hgs, hrun⟩ := map_toOption_eq_some_iff.mp hrun
  obtain ⟨c, hc, hscores⟩ := List.mem_map.mp (hrun ▸ List.mem_singleton_self (none, some 2))
  have hkept := (h noticeText gs c hgs (mem_of_mem_chains hc)).kept
  obtain ⟨hnone, hsome⟩ := Prod.mk.inj hscores
  rw [hnone, hsome] at hkept
  cases hkept

/-- The same increment, declared by the first line. -/
def headNoticeText : Str :=
  ("SecRule ARGS \"@rx a\" \"id:1,phase:2,block,".toList ++
    "setvar:'tx.score=+%{tx.notice_anomaly_score}',chain\"\n".toList) ++
    "SecRule ARGS \"@rx b\" \"t:none\"\n".toList

theorem headNotice_kept : ∃ gs c, groups headNoticeText = .ok gs ∧ .chain c ∈ gs ∧
    KeepsScore c ∧ c.rule.anomalyScore = some 2 := by
  have hrun : (groups headNoticeText).toOption.map (fun gs => (gs.filterMap Group.chain?).map
      fun c => (c.rule.anomalyScore, declaredScore c.head.1)) = some [(some 2, some 2)] := by
    decide +kernel
  obtain ⟨gs, hgs, hrun⟩ := map_toOption_eq_some_iff.mp hrun
  obtain ⟨c, hc, hscores⟩ := List.mem_map.mp (hrun ▸ List.mem_singleton_self (some 2, some 2))
  obtain ⟨hscore, hhead⟩ := Prod.mk.inj hscores
  have hmem := mem_of_mem_chains hc
  refine ⟨gs, c, hgs, hmem, ?_, hscore⟩
  exact (keepsScore_iff hgs hmem).2.mpr (Or.inl (hhead ▸ rfl))

end Crs

end Fywaf
