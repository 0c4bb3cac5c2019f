import Fywaf.Crs.ParseStr
import Fywaf.Std.Checks

/-!
# Chains

What a configuration file says, directive by directive, against what the parser makes of it. By
the file, a rule belongs to the rule in front of it when that one carries `chain`, and is a rule
of its own otherwise. The parser keeps a chain open over a `SecRule` line that it cannot parse, so
the next rule is chained onto a rule that it does not follow.

## Main definitions

* `Crs.Directive`, `Crs.directives` — a file, directive by directive
* `Crs.ownRules` — the rules by the file
* `Crs.emitted` — the rules by the parser
* `Crs.ChainsLocal`, `Crs.HasOrphan`

## Main results

* `Crs.parseStr_eq` — the parser in terms of the directives
* `Crs.emitted_eq_ownRules`, `Crs.length_emitted_lt` — without an orphan all rules are emitted as
  the file says, with one too few
* `Crs.chainsLocal_iff` — exactly when chains are local
-/

namespace Fywaf

namespace Crs

/-! ### Directives -/

/-- A line that is neither blank nor a comment. -/
inductive Directive
  /-- A `SecMarker` line. -/
  | marker (name : Str)
  /-- A `SecRule` line. -/
  | rule (rule : Rule) (isChain : Bool)
  /-- A line that starts like a rule and is none. -/
  | unparseable
  /-- Any other directive. -/
  | other

/-- What a line says; blank lines and comments say nothing. -/
def classify (line : Str) : Except Panic (Option Directive) :=
  let trimmed := trim line
  if trimmed = [] ∨ trimmed.head? = some '#' then .ok none
  else
    match stripPrefix "SecMarker".toList trimmed with
    | some rest => .ok (some (.marker (markerName rest)))
    | none =>
      match stripPrefix "SecRule".toList trimmed with
      | some rest =>
        match parseSecrule (trim rest) with
        | .error e => .error e
        | .ok (some (rule, isChain)) => .ok (some (.rule rule isChain))
        | .ok none => .ok (some .unparseable)
      | none => .ok (some .other)

/-- What the lines say. -/
def directives : List Str → Except Panic (List Directive)
  | [] => .ok []
  | line :: lines =>
    match classify line with
    | .error e => .error e
    | .ok d => (directives lines).map (d.toList ++ ·)

/-! ### The rules by the file -/

/-- The directive is a rule that carries `chain`. -/
def carriesChain : Option Directive → Bool
  | some (.rule _ isChain) => isChain
  | _ => false

/-- The rules that follow immediately, as long as `chain` goes on. -/
def links : List Directive → List ChainedRule
  | .rule rule isChain :: after => rule.link :: if isChain then links after else []
  | _ => []

/-- What a directive is on its own, between the one before and those after: a marker is a rule, and
so is a rule that the directive before does not chain to itself. -/
def ownRule (before : Option Directive) (d : Directive) (after : List Directive) : List Rule :=
  match d with
  | .marker name => [markerRule name]
  | .rule rule isChain =>
    if carriesChain before then []
    else [{ rule with chained := if isChain then links after else [] }]
  | .unparseable => []
  | .other => []

/-- The rules by the file. -/
def ownRules : Option Directive → List Directive → List Rule
  | _, [] => []
  | before, d :: after => ownRule before d after ++ ownRules (some d) after

/-! ### The rules by the parser -/

/-- What the parser emits for a directive and which rule is pending then. -/
def advance : Option Rule → Directive → List Rule × Option Rule
  | pending, .marker name => (pending.toList ++ [markerRule name], none)
  | none, .rule rule isChain => if isChain then ([], some rule) else ([rule], none)
  | some head, .rule rule isChain =>
    if isChain then ([], some (head.addLink rule.link)) else ([head.addLink rule.link], none)
  | pending, .unparseable => ([], pending)
  | pending, .other => (pending.toList, none)

/-- The rules by the parser, given the one that is pending. -/
def emitted : Option Rule → List Directive → List Rule
  | pending, [] => pending.toList
  | pending, d :: ds => (advance pending d).1 ++ emitted (advance pending d).2 ds

section Parse

variable (rules : List Rule) (pending : Option Rule)

theorem parseRule_eq (rule : Rule) (isChain : Bool) :
    parseRule ⟨rules, pending.toList⟩ rule isChain =
      ⟨rules ++ (advance pending (.rule rule isChain)).1,
        (advance pending (.rule rule isChain)).2.toList⟩ := by
  cases pending <;> cases isChain <;> simp [parseRule, advance, flushChain]

/-- A line does what its directive does. -/
theorem parseLine_eq (line : Str) : parseLine ⟨rules, pending.toList⟩ line =
    match classify line with
    | .error e => .error e
    | .ok none => .ok ⟨rules, pending.toList⟩
    | .ok (some d) => .ok ⟨rules ++ (advance pending d).1, (advance pending d).2.toList⟩ := by
  rw [parseLine, classify]
  split
  · rfl
  · cases stripPrefix "SecMarker".toList (trim line) with
    | some rest => simp [flushChain, advance]
    | none =>
      cases stripPrefix "SecRule".toList (trim line) with
      | none => simp [flushChain, advance]
      | some rest =>
        dsimp only
        rcases parseSecrule (trim rest) with e | _ | ⟨rule, isChain⟩
        · rfl
        · simp [advance]
        · exact congrArg Except.ok (parseRule_eq rules pending rule isChain)

/-- The lines do what their directives do. -/
theorem parseLines_eq (lines : List Str) :
    (parseLines ⟨rules, pending.toList⟩ lines).map (fun st => (flushChain st).rules) =
      (directives lines).map fun ds => rules ++ emitted pending ds := by
  induction lines generalizing rules pending with
  | nil => rfl
  | cons line lines ih =>
    rw [parseLines, parseLine_eq, directives]
    rcases classify line with e | _ | d
    · rfl
    · dsimp only
      rw [ih]
      cases directives lines with
      | error e => rfl
      | ok ds => rfl
    · dsimp only
      rw [ih]
      cases directives lines with
      | error e => rfl
      | ok ds => simp [Except.map, emitted]

/-- **The parser in terms of the directives.** -/
theorem parseStr_eq (input : Str) :
    parseStr input = (directives (joinContinuations input)).map (emitted none) := by
  have hrun : (parseLines ⟨[], []⟩ (joinContinuations input)).map
      (fun st => (flushChain st).rules) =
      (directives (joinContinuations input)).map fun ds => [] ++ emitted none ds :=
    parseLines_eq [] none (joinContinuations input)
  simp only [List.nil_append] at hrun
  rw [parseStr, ← hrun]
  cases parseLines ⟨[], []⟩ (joinContinuations input) with
  | error e => rfl
  | ok st => rfl

end Parse

/-! ### With an orphan, rules go missing -/

/-- A rule carries `chain`, lines that cannot be parsed come after it, and then a rule. -/
def HasOrphan (ds : List Directive) : Prop :=
  ∃ pre head n orphan isChain post,
    ds = pre ++ .rule head true :: (List.replicate (n + 1) .unparseable ++
      .rule orphan isChain :: post)

section Count

/-- A directive emits no more than it is by the file and what was pending. -/
theorem length_advance_le {pending : Option Rule} {before : Option Directive}
    (h : carriesChain before = true → pending.isSome = true) (d : Directive)
    (after : List Directive) :
    (advance pending d).1.length + (advance pending d).2.toList.length ≤
      pending.toList.length + (ownRule before d after).length := by
  cases d with
  | marker name => cases pending <;> simp [advance, ownRule]
  | unparseable => cases pending <;> simp [advance, ownRule]
  | other => cases pending <;> simp [advance, ownRule]
  | rule rule isChain =>
    cases pending with
    | none =>
      have hbefore : carriesChain before = false := by simpa using h
      cases isChain <;> simp [advance, ownRule, hbefore]
    | some head => cases isChain <;> simp [advance]

/-- Behind a rule that carries `chain` a rule is pending. -/
theorem isSome_advance (pending : Option Rule) (d : Directive)
    (h : carriesChain (some d) = true) : (advance pending d).2.isSome = true := by
  cases d with
  | rule rule isChain =>
    obtain rfl : isChain = true := h
    cases pending <;> rfl
  | marker | unparseable | other => cases h

theorem length_emitted_le (ds : List Directive) : ∀ {pending : Option Rule}
    {before : Option Directive}, (carriesChain before = true → pending.isSome = true) →
    (emitted pending ds).length ≤ pending.toList.length + (ownRules before ds).length := by
  induction ds with
  | nil => exact fun _ => Nat.le_add_right _ _
  | cons d ds ih =>
    intro pending before h
    have hstep := length_advance_le h d ds
    have hrest := ih (isSome_advance pending d)
    rw [emitted, ownRules, List.length_append, List.length_append]
    omega

/-- The orphan itself is chained onto a rule it does not follow. -/
theorem length_emitted_orphan (head orphan : Rule) (isChain : Bool) (post : List Directive) :
    ∀ (n : ℕ) (before : Option Directive), (n = 0 → carriesChain before = false) →
    (emitted (some head) (List.replicate n .unparseable ++ .rule orphan isChain :: post)).length <
      1 + (ownRules before
        (List.replicate n .unparseable ++ .rule orphan isChain :: post)).length
  | 0, before, h => by
    have hrest := length_emitted_le post (isSome_advance (some head) (.rule orphan isChain))
    have hone : (advance (some head) (.rule orphan isChain)).1.length +
        (advance (some head) (.rule orphan isChain)).2.toList.length = 1 := by
      cases isChain <;> rfl
    rw [List.replicate_zero, List.nil_append, emitted, ownRules, ownRule, h rfl,
      List.length_append, if_neg Bool.false_ne_true, List.length_append, List.length_singleton]
    omega
  | n + 1, before, _ => by
    rw [List.replicate_succ, List.cons_append, emitted, ownRules, ownRule, List.nil_append]
    exact length_emitted_orphan head orphan isChain post n _ fun _ => rfl

/-- **With an orphan too few rules are emitted.** -/
theorem length_emitted_lt {ds : List Directive} (h : HasOrphan ds) :
    ∀ {pending : Option Rule} {before : Option Directive},
    (carriesChain before = true → pending.isSome = true) →
    (emitted pending ds).length < pending.toList.length + (ownRules before ds).length := by
  obtain ⟨pre, head, n, orphan, isChain, post, rfl⟩ := h
  induction pre with
  | nil =>
    intro pending before h
    obtain ⟨top, htop⟩ : ∃ top, advance pending (.rule head true) = ([], some top) := by
      cases pending <;> exact ⟨_, rfl⟩
    have horphan := length_emitted_orphan top orphan isChain post (n + 1)
      (some (.rule head true)) (by omega)
    generalize List.replicate (n + 1) Directive.unparseable ++ .rule orphan isChain :: post = after
      at horphan ⊢
    have hstep := length_advance_le h (.rule head true) after
    rw [htop] at hstep
    rw [List.nil_append, emitted, htop, ownRules]
    simp only [List.length_nil, Option.toList_some, List.length_singleton, List.nil_append,
      List.length_append] at hstep ⊢
    omega
  | cons d pre ih =>
    intro pending before h
    have hrest := ih (isSome_advance pending d)
    have hstep := length_advance_le h d (pre ++ .rule head true ::
      (List.replicate (n + 1) .unparseable ++ .rule orphan isChain :: post))
    rw [List.cons_append, emitted, ownRules, List.length_append, List.length_append]
    omega

end Count

/-! ### Without an orphan, all rules are as the file says -/

/-- Rules as they come from their lines, with nothing chained to them. -/
def Fresh (ds : List Directive) : Prop :=
  ∀ rule isChain, .rule rule isChain ∈ ds → rule.chained = []

theorem HasOrphan.cons {d : Directive} {ds : List Directive} (h : HasOrphan ds) :
    HasOrphan (d :: ds) := by
  obtain ⟨pre, head, n, orphan, isChain, post, rfl⟩ := h
  exact ⟨d :: pre, head, n, orphan, isChain, post, rfl⟩

/-- A chain that is not taken up again is emitted as it stands. -/
theorem emitted_pending (head : Rule) {ds : List Directive}
    (h : ∀ n orphan isChain post,
      ds ≠ List.replicate n .unparseable ++ .rule orphan isChain :: post) :
    emitted (some head) ds = head :: emitted none ds := by
  induction ds with
  | nil => rfl
  | cons d ds ih =>
    cases d with
    | marker name => rfl
    | other => rfl
    | rule orphan isChain => exact absurd rfl (h 0 orphan isChain ds)
    | unparseable =>
      refine ih fun n orphan isChain post hds => h (n + 1) orphan isChain post ?_
      rw [hds, List.replicate_succ, List.cons_append]

/-- Nothing is chained on when no rule follows. -/
theorem chained_of_links_nil (head : Rule) {ds : List Directive} (h : links ds = []) :
    { head with chained := head.chained ++ links ds } = head := by
  rw [h, List.append_nil]

section Filed

variable {d : Directive} {ds : List Directive}

/-- With no chain open a directive is emitted as the file says, if those after it are. -/
theorem emitted_none_cons {before : Option Directive} (hbefore : carriesChain before = false)
    (hfresh : Fresh (d :: ds))
    (hclosed : carriesChain (some d) = false → emitted none ds = ownRules (some d) ds)
    (hopen : ∀ rule, d = .rule rule true → emitted (some rule) ds =
      { rule with chained := rule.chained ++ links ds } :: ownRules (some d) ds) :
    emitted none (d :: ds) = ownRules before (d :: ds) := by
  cases d with
  | marker name => exact congrArg (_ :: ·) (hclosed rfl)
  | unparseable => exact hclosed rfl
  | other => exact hclosed rfl
  | rule rule isChain =>
    have hchained := hfresh rule isChain List.mem_cons_self
    rw [ownRules, ownRule, hbefore, if_neg Bool.false_ne_true, emitted]
    cases isChain with
    | true =>
      have hrest := hopen rule rfl
      rw [hchained, List.nil_append] at hrest
      exact hrest
    | false =>
      rw [← hclosed rfl]
      refine congrArg (· :: emitted none ds) ?_
      rw [if_neg Bool.false_ne_true, ← hchained]

/-- With a chain open a directive takes it up or closes it as the file says, if those after it
do. -/
theorem emitted_some_cons {head last : Rule} (hno : ¬ HasOrphan (.rule last true :: d :: ds))
    (hclosed : carriesChain (some d) = false → emitted none ds = ownRules (some d) ds)
    (hopen : ∀ top rule, d = .rule rule true → emitted (some top) ds =
      { top with chained := top.chained ++ links ds } :: ownRules (some d) ds) :
    emitted (some head) (d :: ds) = { head with chained := head.chained ++ links (d :: ds) } ::
      ownRules (some (.rule last true)) (d :: ds) := by
  cases d with
  | marker name =>
    rw [chained_of_links_nil head rfl]
    exact congrArg (head :: markerRule name :: ·) (hclosed rfl)
  | other =>
    rw [chained_of_links_nil head rfl]
    exact congrArg (head :: ·) (hclosed rfl)
  | unparseable =>
    -- a rule behind this line would be an orphan
    have hpending : emitted (some head) ds = head :: emitted none ds :=
      emitted_pending head fun n orphan isChain post hds =>
        hno ⟨[], last, n, orphan, isChain, post, by
          rw [hds, List.replicate_succ, List.cons_append, List.nil_append]⟩
    rw [chained_of_links_nil head rfl]
    exact hpending.trans (congrArg (head :: ·) (hclosed rfl))
  | rule rule isChain =>
    rw [ownRules, ownRule, carriesChain, if_pos rfl, List.nil_append, links, emitted]
    cases isChain with
    | true => simpa [Rule.addLink, advance] using hopen (head.addLink rule.link) rule rfl
    | false =>
      rw [← hclosed rfl]
      rfl

end Filed

/-- **Without an orphan all rules are emitted as the file says**, whether a chain is open or
not. -/
theorem emitted_eq_ownRules {ds : List Directive} (hfresh : Fresh ds) :
    (¬ HasOrphan ds → ∀ before, carriesChain before = false →
      emitted none ds = ownRules before ds) ∧
    ∀ head last, ¬ HasOrphan (.rule last true :: ds) →
      emitted (some head) ds = { head with chained := head.chained ++ links ds } ::
        ownRules (some (.rule last true)) ds := by
  induction ds with
  | nil =>
    refine ⟨fun _ _ _ => rfl, fun head last _ => ?_⟩
    rw [chained_of_links_nil head rfl]
    rfl
  | cons d ds ih =>
    obtain ⟨ihnone, ihsome⟩ := ih fun rule isChain hmem =>
      hfresh rule isChain (List.mem_cons_of_mem _ hmem)
    constructor
    · intro hno before hbefore
      refine emitted_none_cons hbefore hfresh (ihnone (fun h => hno h.cons) (some d)) ?_
      rintro rule rfl
      exact ihsome rule rule hno
    · intro head last hno
      have hno' : ¬ HasOrphan (d :: ds) := fun h => hno h.cons
      refine emitted_some_cons hno (ihnone (fun h => hno' h.cons) (some d)) ?_
      rintro top rule rfl
      exact ihsome top rule hno'

/-! ### Files -/

/-- A rule is parsed with nothing chained to it. -/
theorem chained_of_parseSecrule {input : Str} {rule : Rule} {isChain : Bool}
    (h : parseSecrule input = .ok (some (rule, isChain))) : rule.chained = [] := by
  rw [parseSecrule] at h
  dsimp only at h
  split at h
  · cases h
  · obtain ⟨_, -, h⟩ := bind_eq_ok_iff.mp h
    obtain ⟨_, -, h⟩ := bind_eq_ok_iff.mp h
    split at h
    · cases h
    · obtain ⟨_, -, h⟩ := bind_eq_ok_iff.mp h
      split at h
      · cases h
      · obtain ⟨_, -, h⟩ := bind_eq_ok_iff.mp h
        cases h
        rfl

/-- **What a line can say**: a marker behind `SecMarker`, the rule that is parsed behind `SecRule`,
or nothing that makes an entry. -/
theorem classify_spec {line : Str} {d : Directive} (h : classify line = .ok (some d)) :
    (∃ rest, stripPrefix "SecMarker".toList (trim line) = some rest ∧
      d = .marker (markerName rest)) ∨
    (∃ rest rule isChain, stripPrefix "SecRule".toList (trim line) = some rest ∧
      parseSecrule (trim rest) = .ok (some (rule, isChain)) ∧ d = .rule rule isChain) ∨
    d = .unparseable ∨ d = .other := by
  unfold classify at h
  dsimp only at h
  split at h
  · cases h
  · split at h
    · next rest hrest =>
      cases h
      exact Or.inl ⟨rest, hrest, rfl⟩
    · split at h
      · next rest hrest =>
        split at h
        · cases h
        · next rule isChain hparse =>
          cases h
          exact Or.inr (Or.inl ⟨rest, rule, isChain, hrest, hparse, rfl⟩)
        · cases h
          exact Or.inr (Or.inr (Or.inl rfl))
      · cases h
        exact Or.inr (Or.inr (Or.inr rfl))

theorem chained_of_classify {line : Str} {rule : Rule} {isChain : Bool}
    (h : classify line = .ok (some (.rule rule isChain))) : rule.chained = [] := by
  obtain ⟨_, _, heq⟩ | ⟨_, _, _, _, hparse, heq⟩ | heq | heq := classify_spec h <;> cases heq
  exact chained_of_parseSecrule hparse

theorem fresh_directives {lines : List Str} {ds : List Directive} (h : directives lines = .ok ds) :
    Fresh ds := by
  induction lines generalizing ds with
  | nil =>
    obtain rfl := Except.ok.inj h
    exact fun rule isChain hmem => by cases hmem
  | cons line lines ih =>
    rw [directives] at h
    split at h
    · cases h
    · next d hd =>
      cases hrest : directives lines with
      | error e => rw [hrest] at h; cases h
      | ok rest =>
        rw [hrest] at h
        obtain rfl := Except.ok.inj h
        intro rule isChain hmem
        rcases List.mem_append.mp hmem with hmem | hmem
        · rw [Option.mem_toList] at hmem
          exact chained_of_classify (hd.trans (congrArg Except.ok hmem))
        · exact ih hrest rule isChain hmem

/-- The parser emits exactly the rules by the file. -/
def ChainsLocal (text : Str) : Prop :=
  ∃ ds, directives (joinContinuations text) = .ok ds ∧ parseStr text = .ok (ownRules none ds)

/-- **Exactly when chains are local**: when no line makes the parser panic and there is no
orphan. -/
theorem chainsLocal_iff (text : Str) :
    ChainsLocal text ↔ ∃ ds, directives (joinContinuations text) = .ok ds ∧ ¬ HasOrphan ds := by
  refine exists_congr fun ds => and_congr_right fun hds => ?_
  rw [parseStr_eq, hds, Except.map, Except.ok.injEq]
  constructor
  · intro heq horphan
    have hlt : (emitted none ds).length < 0 + (ownRules none ds).length :=
      length_emitted_lt horphan fun h => by cases h
    rw [heq, Nat.zero_add] at hlt
    exact absurd hlt (Nat.lt_irrefl _)
  · intro hno
    exact (emitted_eq_ownRules (fresh_directives hds)).1 hno none rfl

/-- A chain, a line that is no rule, and a rule of its own. -/
def orphanText : Str :=
  "SecRule ARGS \"@rx a\" \"id:1,phase:2,pass,chain\"\n".toList ++
    "SecRule ARGS\n".toList ++
    "SecRule ARGS \"@rx b\" \"id:2,phase:2,deny\"\n".toList

/-- Rule 2 is chained onto rule 1, behind which it does not stand. -/
theorem orphanText_not_local : ¬ ∀ text, ChainsLocal text := by
  intro h
  obtain ⟨ds, hds, hparse⟩ := h orphanText
  have hown : (directives (joinContinuations orphanText)).toOption.map
      (fun ds => (ownRules none ds).length) = some 2 := by decide
  have hemitted : (parseStr orphanText).toOption.map List.length = some 1 := by decide +kernel
  rw [hds] at hown
  rw [hparse] at hemitted
  have heq : 2 = 1 := Option.some.inj (hown.symm.trans hemitted)
  cases heq

end Crs

end Fywaf
