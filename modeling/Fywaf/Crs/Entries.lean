import Fywaf.Crs.Chains

/-!
# Where the entries come from

Each entry of a parsed file was opened by a line: a marker by a `SecMarker` line, a rule by a
`SecRule` line, with whatever was chained onto it later. Here the parser carries that line along,
and each entry turns out to be what its line says.

## Main definitions

* `Crs.secruleFields`, `Crs.lineFields` — variables, operator and actions of a line, as text
* `Crs.entries` — the entries of a file, each with its line
* `Crs.Produces` — an entry is what its line says

## Main results

* `Crs.parseSecrule_eq_some_iff` — a rule in terms of its fields
* `Crs.parseStr_eq_entries` — the entries are those of the parser
* `Crs.entries_spec` — every entry is what its line says
-/

namespace Fywaf

namespace Crs

/-! ### The fields of a line -/

/-- Variables, operator and actions of the body of a `SecRule` line, before they are parsed. -/
def secruleFields (input : Str) : Except Panic (Option (Str × Str × Str)) := do
  let input := trim input
  match findLastQuotedBlockStart input with
  | none => return none
  | some actionsOpen =>
    let beforeActions := trim (← sliceTo input actionsOpen)
    let actionsStr ← sliceFrom input (actionsOpen + 1)
    match findClosingQuote actionsStr with
    | none => return none
    | some actionsEnd =>
      let actionsRaw ← sliceTo actionsStr actionsEnd
      match splitFirstWs beforeActions with
      | none => return none
      | some (varsStr, opStr) => return some (varsStr, opStr, actionsRaw)

/-- The rule that the fields of a line make. -/
def fieldsRule : Option (Str × Str × Str) → Except Panic (Option (Rule × Bool))
  | none => .ok none
  | some (varsStr, opStr, actionsRaw) =>
    (parseVariables varsStr).map fun vars => some (buildRule vars opStr actionsRaw)

theorem parseSecrule_eq (input : Str) :
    parseSecrule input = secruleFields input >>= fieldsRule := by
  rw [parseSecrule, secruleFields]
  dsimp only
  cases findLastQuotedBlockStart (trim input) with
  | none => rfl
  | some actionsOpen =>
    dsimp only
    cases sliceTo (trim input) actionsOpen with
    | error e => rfl
    | ok before =>
      cases sliceFrom (trim input) (actionsOpen + 1) with
      | error e => rfl
      | ok actionsStr =>
        simp only [bind, Except.bind]
        cases findClosingQuote actionsStr with
        | none => rfl
        | some actionsEnd =>
          dsimp only
          cases sliceTo actionsStr actionsEnd with
          | error e => rfl
          | ok actionsRaw =>
            dsimp only
            cases splitFirstWs (trim before) with
            | none => rfl
            | some parts =>
              obtain ⟨varsStr, opStr⟩ := parts
              change _ = fieldsRule (some (varsStr, opStr, actionsRaw))
              rw [fieldsRule]
              dsimp only
              cases parseVariables varsStr with
              | error e => rfl
              | ok vars => rfl

/-- **A rule in terms of its fields.** -/
theorem parseSecrule_eq_some_iff {input : Str} {r : Rule × Bool} :
    parseSecrule input = .ok (some r) ↔ ∃ varsStr opStr actionsRaw vars,
      secruleFields input = .ok (some (varsStr, opStr, actionsRaw)) ∧
        parseVariables varsStr = .ok vars ∧ r = buildRule vars opStr actionsRaw := by
  rw [parseSecrule_eq, bind_eq_ok_iff]
  constructor
  · rintro ⟨_ | ⟨varsStr, opStr, actionsRaw⟩, hfields, hrule⟩
    · cases hrule
    · rw [fieldsRule] at hrule
      cases hvars : parseVariables varsStr with
      | error e => rw [hvars] at hrule; cases hrule
      | ok vars =>
        rw [hvars] at hrule
        cases hrule
        exact ⟨varsStr, opStr, actionsRaw, vars, hfields, hvars, rfl⟩
  · rintro ⟨varsStr, opStr, actionsRaw, vars, hfields, hvars, rfl⟩
    exact ⟨_, hfields, by rw [fieldsRule, hvars]; rfl⟩

/-! ### Lines of rules and of markers -/

/-- The line is a `SecMarker` line. -/
def IsMarkerLine (line : Str) : Prop := "SecMarker".toList <+: trim line

/-- The line is a `SecRule` line. -/
def IsRuleLine (line : Str) : Prop := "SecRule".toList <+: trim line

/-- Variables, operator and actions of a `SecRule` line, before they are parsed. -/
def lineFields (line : Str) : Except Panic (Option (Str × Str × Str)) :=
  match stripPrefix "SecRule".toList (trim line) with
  | none => .ok none
  | some rest => secruleFields (trim rest)

/-- What an entry is by the line it comes from: a marker of that name, or the rule that the fields
of the line make, with whatever was chained onto it. -/
inductive Produces : Str → Rule → Prop
  | marker {line rest : Str} (hline : stripPrefix "SecMarker".toList (trim line) = some rest) :
    Produces line (markerRule (markerName rest))
  | rule {line varsStr opStr actionsRaw : Str} {vars : List Variable}
    (hfields : lineFields line = .ok (some (varsStr, opStr, actionsRaw)))
    (hvars : parseVariables varsStr = .ok vars) (chained : List ChainedRule) :
    Produces line { (buildRule vars opStr actionsRaw).1 with chained := chained }

/-- No line is both. -/
theorem not_isMarkerLine {line : Str} (h : IsRuleLine line) : ¬ IsMarkerLine line := by
  intro hmarker
  have hpre := List.prefix_of_prefix_length_le h hmarker (by decide)
  exact absurd hpre (by decide)

/-- Only a rule line has fields. -/
theorem isRuleLine_of_lineFields {line : Str} {fields : Str × Str × Str}
    (h : lineFields line = .ok (some fields)) : IsRuleLine line := by
  rw [lineFields] at h
  cases hrest : stripPrefix "SecRule".toList (trim line) with
  | none => rw [hrest] at h; cases h
  | some rest => exact ⟨rest, (stripPrefix_eq_some_iff.mp hrest).symm⟩

/-- An entry comes from a marker line or from a rule line. -/
theorem Produces.isRuleLine {line : Str} {entry : Rule} (h : Produces line entry)
    (hmarker : ¬ IsMarkerLine line) : IsRuleLine line := by
  cases h with
  | marker hline => exact absurd ⟨_, (stripPrefix_eq_some_iff.mp hline).symm⟩ hmarker
  | rule hfields hvars chained => exact isRuleLine_of_lineFields hfields

/-! ### The entries with their lines -/

/-- The lines that say something, each with what it says. -/
def classified : List Str → Except Panic (List (Str × Directive))
  | [] => .ok []
  | line :: lines =>
    match classify line with
    | .error e => .error e
    | .ok d => (classified lines).map ((d.map (line, ·)).toList ++ ·)

/-- What the parser emits for a directive and which rule is pending then, each entry with the line
that opened it. -/
def advanceTraced : Option (Str × Rule) → Str × Directive →
    List (Str × Rule) × Option (Str × Rule)
  | pending, (line, .marker name) => (pending.toList ++ [(line, markerRule name)], none)
  | none, (line, .rule rule isChain) =>
    if isChain then ([], some (line, rule)) else ([(line, rule)], none)
  | some (opened, head), (_, .rule rule isChain) =>
    if isChain then ([], some (opened, head.addLink rule.link))
    else ([(opened, head.addLink rule.link)], none)
  | pending, (_, .unparseable) => ([], pending)
  | pending, (_, .other) => (pending.toList, none)

/-- The entries with their lines, given the one that is pending. -/
def traced : Option (Str × Rule) → List (Str × Directive) → List (Str × Rule)
  | pending, [] => pending.toList
  | pending, d :: ds => (advanceTraced pending d).1 ++ traced (advanceTraced pending d).2 ds

/-- The entries of a file, each with the line that opened it. -/
def entries (text : Str) : Except Panic (List (Str × Rule)) :=
  (classified (joinContinuations text)).map (traced none)

section Traced

theorem directives_eq (lines : List Str) :
    directives lines = (classified lines).map (List.map Prod.snd) := by
  induction lines with
  | nil => rfl
  | cons line lines ih =>
    rw [directives, classified]
    rcases classify line with e | _ | d
    · rfl
    · dsimp only
      rw [ih]
      cases classified lines <;> rfl
    · dsimp only
      rw [ih]
      cases classified lines <;> rfl

variable (pending : Option (Str × Rule))

theorem advance_eq_traced (d : Str × Directive) : advance (pending.map Prod.snd) d.2 =
    ((advanceTraced pending d).1.map Prod.snd, (advanceTraced pending d).2.map Prod.snd) := by
  obtain ⟨line, d⟩ := d
  cases d with
  | marker name => cases pending <;> rfl
  | unparseable => cases pending <;> rfl
  | other => cases pending <;> rfl
  | rule rule isChain => cases pending <;> cases isChain <;> rfl

theorem emitted_eq_traced (ds : List (Str × Directive)) :
    emitted (pending.map Prod.snd) (ds.map Prod.snd) = (traced pending ds).map Prod.snd := by
  induction ds generalizing pending with
  | nil => cases pending <;> rfl
  | cons d ds ih =>
    rw [List.map_cons, emitted, traced, advance_eq_traced, ih, List.map_append]

/-- **The entries are those of the parser.** -/
theorem parseStr_eq_entries (text : Str) :
    parseStr text = (entries text).map (List.map Prod.snd) := by
  rw [parseStr_eq, directives_eq, entries]
  cases classified (joinContinuations text) with
  | error e => rfl
  | ok ds => exact congrArg Except.ok (emitted_eq_traced none ds)

end Traced

/-! ### Every entry is what its line says -/

/-- What a line says is what classifying it gives. -/
theorem mem_classified {lines : List Str} {ds : List (Str × Directive)}
    (h : classified lines = .ok ds) {d : Str × Directive} (hd : d ∈ ds) :
    classify d.1 = .ok (some d.2) := by
  induction lines generalizing ds with
  | nil =>
    obtain rfl := Except.ok.inj h
    cases hd
  | cons line lines ih =>
    rw [classified] at h
    split at h
    · cases h
    · next said hsaid =>
      obtain ⟨rest, hrest, rfl⟩ := map_eq_ok_iff.mp h
      rcases List.mem_append.mp hd with hd | hd
      · obtain ⟨d', rfl, rfl⟩ := Option.map_eq_some_iff.mp (Option.mem_toList.mp hd)
        exact hsaid
      · exact ih hrest hd

/-- A pending rule is what its line says, whatever is chained onto it. -/
def Opens (e : Str × Rule) : Prop :=
  ∀ chained, Produces e.1 { e.2 with chained := chained }

theorem opens_mk_iff {line : Str} {rule : Rule} : Opens (line, rule) ↔
    ∀ chained, Produces line { rule with chained := chained } := Iff.rfl

theorem Opens.produces {e : Str × Rule} (h : Opens e) : Produces e.1 e.2 := h e.2.chained

theorem produces_of_marker {line name : Str} (h : classify line = .ok (some (.marker name))) :
    Produces line (markerRule name) := by
  obtain ⟨_, hrest, heq⟩ | ⟨_, _, _, _, _, heq⟩ | heq | heq := classify_spec h <;> cases heq
  exact Produces.marker hrest

/-- A rule that a line says is the one that its fields make. -/
theorem fields_of_classify {line : Str} {rule : Rule} {isChain : Bool}
    (h : classify line = .ok (some (.rule rule isChain))) :
    ∃ varsStr opStr actionsRaw vars,
      lineFields line = .ok (some (varsStr, opStr, actionsRaw)) ∧
        parseVariables varsStr = .ok vars ∧ (rule, isChain) = buildRule vars opStr actionsRaw := by
  obtain ⟨_, _, heq⟩ | ⟨_, _, _, hrest, hparse, heq⟩ | heq | heq := classify_spec h <;> cases heq
  obtain ⟨varsStr, opStr, actionsRaw, vars, hfields, hvars, hbuild⟩ :=
    parseSecrule_eq_some_iff.mp hparse
  refine ⟨varsStr, opStr, actionsRaw, vars, ?_, hvars, hbuild⟩
  rw [lineFields, hrest]
  exact hfields

theorem opens_of_rule {line : Str} {rule : Rule} {isChain : Bool}
    (h : classify line = .ok (some (.rule rule isChain))) : Opens (line, rule) := by
  obtain ⟨varsStr, opStr, actionsRaw, vars, hline, hvars, hbuild⟩ := fields_of_classify h
  obtain rfl : rule = (buildRule vars opStr actionsRaw).1 := congrArg Prod.fst hbuild
  exact opens_mk_iff.mpr (Produces.rule hline hvars)

/-- One directive keeps what is pending open and emits what its lines say. -/
theorem advanceTraced_spec {pending : Option (Str × Rule)} (hpending : ∀ p ∈ pending, Opens p)
    {d : Str × Directive} (hd : classify d.1 = .ok (some d.2)) :
    (∀ e ∈ (advanceTraced pending d).1, Produces e.1 e.2) ∧
      ∀ p ∈ (advanceTraced pending d).2, Opens p := by
  have hflush : ∀ e ∈ pending.toList, Produces e.1 e.2 := fun e he =>
    (hpending e (Option.mem_toList.mp he)).produces
  obtain ⟨line, d⟩ := d
  cases d with
  | unparseable => cases pending <;> exact ⟨fun e he => (by cases he), hpending⟩
  | other => cases pending <;> exact ⟨hflush, fun p hp => by cases hp⟩
  | marker name =>
    have hmarker := produces_of_marker hd
    constructor
    · intro e he
      have he : e ∈ pending.toList ++ [(line, markerRule name)] := by cases pending <;> exact he
      rcases List.mem_append.mp he with he | he
      · exact hflush e he
      · rw [List.mem_singleton.mp he]
        exact hmarker
    · intro p hp
      cases pending <;> cases hp
  | rule rule isChain =>
    have hopened : ∃ top, Opens top ∧ advanceTraced pending (line, .rule rule isChain) =
        if isChain then ([], some top) else ([top], none) := by
      cases pending with
      | none => exact ⟨(line, rule), opens_of_rule hd, rfl⟩
      | some head =>
        have hhead : Opens head := hpending head rfl
        exact ⟨(head.1, head.2.addLink rule.link), fun chained => hhead chained, rfl⟩
    obtain ⟨top, htop, heq⟩ := hopened
    rw [heq]
    cases isChain with
    | true =>
      constructor
      · intro e he
        cases he
      · intro p hp
        obtain rfl : top = p := Option.some.inj hp
        exact htop
    | false =>
      constructor
      · intro e he
        rw [List.mem_singleton.mp he]
        exact htop.produces
      · intro p hp
        cases hp

theorem traced_spec {ds : List (Str × Directive)}
    (hds : ∀ d ∈ ds, classify d.1 = .ok (some d.2)) :
    ∀ {pending : Option (Str × Rule)}, (∀ p ∈ pending, Opens p) →
      ∀ e ∈ traced pending ds, Produces e.1 e.2 := by
  induction ds with
  | nil => exact fun hpending e he => (hpending e (Option.mem_toList.mp he)).produces
  | cons d ds ih =>
    intro pending hpending e he
    obtain ⟨hemit, hnext⟩ := advanceTraced_spec hpending (hds d List.mem_cons_self)
    rcases List.mem_append.mp he with he | he
    · exact hemit e he
    · exact ih (fun d hd => hds d (List.mem_cons_of_mem _ hd)) hnext e he

/-- **Every entry is what its line says.** -/
theorem entries_spec {text : Str} {es : List (Str × Rule)} (h : entries text = .ok es)
    {e : Str × Rule} (he : e ∈ es) : Produces e.1 e.2 := by
  obtain ⟨ds, hds, rfl⟩ := map_eq_ok_iff.mp h
  exact traced_spec (fun d hd => mem_classified hds hd) (fun p hp => by cases hp) e he

end Crs

end Fywaf
