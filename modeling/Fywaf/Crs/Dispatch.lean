import Fywaf.Crs.Entries

/-!
# Which lines are directives of the parser

The parser knows `SecRule` and `SecMarker`, and finds them as prefixes of a line. A longer directive
that begins with one of them is read as one of them: its rest is the name of a marker or the body of
a rule, and where the rest is no rule, the line is passed over and does not end a chain.

## Main definitions

* `Crs.firstWord` — the word that names a directive
* `Crs.OnlyDirectives` — every other directive ends a chain and does nothing else
* `Crs.Misread`, `Crs.chainOpen` — a longer directive, and whether a chain is pending

## Main results

* `Crs.parseLines_eq_state` — the state behind some lines
* `Crs.onlyDirectives_iff` — exactly when only real directives make rules
-/

namespace Fywaf

namespace Crs

/-! ### Words -/

/-- The first word of a line. -/
def firstWord (line : Str) : Str := (trim line).takeWhile fun c => !isWhitespace c

/-- The line names a directive of the parser. -/
def IsDirective (line : Str) : Prop :=
  firstWord line = "SecRule".toList ∨ firstWord line = "SecMarker".toList

/-- The line is blank or a comment. -/
def SaysNothing (line : Str) : Prop := trim line = [] ∨ (trim line).head? = some '#'

instance (line : Str) : Decidable (SaysNothing line) := inferInstanceAs (Decidable (_ ∨ _))

/-- The line is read as a directive of the parser and names none. -/
def Misread (line : Str) : Prop :=
  ¬ SaysNothing line ∧ ¬ IsDirective line ∧ (IsRuleLine line ∨ IsMarkerLine line)

/-! ### Lines that are none -/

/-- What such a line should do: a blank line or a comment nothing, any other line end a chain that
is pending and make no entry. -/
def parseOther (st : ParseState) (line : Str) : ParseState :=
  if SaysNothing line then st else flushChain st

/-- In the text, only lines that name a directive of the parser make anything: every other line does
in its place what it should. -/
def OnlyDirectives (text : Str) : Prop :=
  ∀ before line after, joinContinuations text = before ++ line :: after →
    ∀ st, parseLines ⟨[], []⟩ before = .ok st → ¬ IsDirective line →
      parseLine st line = .ok (parseOther st line)

/-- Whether a chain is pending behind the directives, given whether one is before them. -/
def chainOpen : Bool → List Directive → Bool
  | isOpen, [] => isOpen
  | _, .rule _ isChain :: ds => chainOpen isChain ds
  | isOpen, .unparseable :: ds => chainOpen isOpen ds
  | _, .marker _ :: ds => chainOpen false ds
  | _, .other :: ds => chainOpen false ds

section State

variable (rules : List Rule) (pending : Option Rule)

theorem chainOpen_cons (d : Directive) (ds : List Directive) :
    chainOpen pending.isSome (d :: ds) = chainOpen (advance pending d).2.isSome ds := by
  cases d with
  | rule rule isChain => cases pending <;> cases isChain <;> rfl
  | marker | unparseable | other => cases pending <;> rfl

/-- **The state behind some lines**: there is one when none of them panics, and a chain is pending
in it when their directives leave one open. -/
theorem parseLines_eq_state (lines : List Str) :
    match directives lines with
    | .error e => parseLines ⟨rules, pending.toList⟩ lines = .error e
    | .ok ds => ∃ rules' pending', parseLines ⟨rules, pending.toList⟩ lines =
        .ok ⟨rules', Option.toList pending'⟩ ∧
          Option.isSome pending' = chainOpen pending.isSome ds := by
  induction lines generalizing rules pending with
  | nil => exact ⟨rules, pending, rfl, rfl⟩
  | cons line lines ih =>
    rw [parseLines, parseLine_eq, directives]
    rcases classify line with e | _ | d
    · rfl
    · dsimp only
      have hrest := ih rules pending
      cases hds : directives lines with
      | error e => rwa [hds] at hrest
      | ok ds => rwa [hds] at hrest
    · dsimp only
      have hrest := ih (rules ++ (advance pending d).1) (advance pending d).2
      cases hds : directives lines with
      | error e => rwa [hds] at hrest
      | ok ds =>
        rw [hds] at hrest
        obtain ⟨rules', pending', hrun, hopen⟩ := hrest
        exact ⟨rules', pending', hrun, hopen.trans (chainOpen_cons pending d ds).symm⟩

theorem addLink_ne (head : Rule) (link : ChainedRule) : head.addLink link ≠ head := by
  intro h
  have hlen := congrArg (fun rule => rule.chained.length) h
  simp only [Rule.addLink, List.length_append, List.length_singleton] at hlen
  omega

/-- A directive ends a chain and does nothing else exactly when it is another one, or when there
is no chain to end and it cannot be parsed. -/
theorem advance_eq_flush_iff (d : Directive) :
    (⟨rules ++ (advance pending d).1, (advance pending d).2.toList⟩ : ParseState) =
        flushChain ⟨rules, pending.toList⟩ ↔
      d = .other ∨ (d = .unparseable ∧ pending = none) := by
  rw [flushChain, ParseState.mk.injEq, List.append_cancel_left_eq]
  cases d with
  | marker name => cases pending <;> simp [advance]
  | unparseable => cases pending <;> simp [advance]
  | other => cases pending <;> simp [advance]
  | rule rule isChain =>
    cases pending with
    | none => cases isChain <;> simp [advance]
    | some head => cases isChain <;> simp [advance, addLink_ne]

theorem classify_of_saysNothing {line : Str} (h : SaysNothing line) : classify line = .ok none :=
  if_pos h

theorem isMarkerLine_iff {line : Str} :
    IsMarkerLine line ↔ ∃ rest, stripPrefix "SecMarker".toList (trim line) = some rest := by
  simp only [stripPrefix_eq_some_iff]
  exact exists_congr fun rest => eq_comm

theorem isRuleLine_iff {line : Str} :
    IsRuleLine line ↔ ∃ rest, stripPrefix "SecRule".toList (trim line) = some rest := by
  simp only [stripPrefix_eq_some_iff]
  exact exists_congr fun rest => eq_comm

/-- A line that says something is another directive, unless it is read as one of the parser, and
then it is anything but another one. -/
theorem classify_cases {line : Str} (h : ¬ SaysNothing line) :
    (classify line = .ok (some .other) ∧ ¬ (IsRuleLine line ∨ IsMarkerLine line)) ∨
      ((IsRuleLine line ∨ IsMarkerLine line) ∧ classify line ≠ .ok none ∧
        classify line ≠ .ok (some .other)) := by
  have hsilent : ¬ (trim line = [] ∨ (trim line).head? = some '#') := h
  rw [classify, if_neg hsilent, isMarkerLine_iff, isRuleLine_iff]
  cases stripPrefix "SecMarker".toList (trim line) with
  | some rest => exact Or.inr ⟨Or.inr ⟨rest, rfl⟩, by simp, by simp⟩
  | none =>
    cases stripPrefix "SecRule".toList (trim line) with
    | none => exact Or.inl ⟨rfl, by simp⟩
    | some rest =>
      refine Or.inr ⟨Or.inl ⟨rest, rfl⟩, ?_⟩
      dsimp only
      rcases parseSecrule (trim rest) with e | _ | ⟨rule, isChain⟩
      all_goals exact ⟨by simp, by simp⟩

/-- What a line that names no directive does is what it should exactly when it is not misread, or
is passed over while no chain is pending. -/
theorem parseLine_eq_other_iff {line : Str} (h : ¬ IsDirective line) :
    parseLine ⟨rules, pending.toList⟩ line = .ok (parseOther ⟨rules, pending.toList⟩ line) ↔
      (Misread line → classify line = .ok (some .unparseable) ∧ pending = none) := by
  rw [parseLine_eq]
  by_cases hnothing : SaysNothing line
  · rw [classify_of_saysNothing hnothing, parseOther, if_pos hnothing]
    exact iff_of_true rfl fun hmisread => absurd hnothing hmisread.1
  rw [parseOther, if_neg hnothing]
  rcases classify_cases hnothing with ⟨hother, hnot⟩ | ⟨hread, hnone, hother⟩
  · rw [hother]
    refine iff_of_true ?_ fun hmisread => absurd hmisread.2.2 hnot
    exact congrArg Except.ok ((advance_eq_flush_iff rules pending .other).mpr (Or.inl rfl))
  · have hmisread : Misread line := ⟨hnothing, h, hread⟩
    rcases hd : classify line with e | _ | d
    · exact iff_of_false (fun heq => by cases heq) fun himp => by cases (himp hmisread).1
    · exact absurd hd hnone
    · have hd' : d ≠ .other := fun heq => hother (hd.trans (heq ▸ rfl))
      dsimp only
      rw [Except.ok.injEq, advance_eq_flush_iff, Except.ok.injEq, Option.some.injEq]
      exact ⟨fun hcase _ => hcase.resolve_left hd', fun himp => Or.inr (himp hmisread)⟩

end State

/-- **Exactly when only real directives make rules**: when every line that is misread is no rule and
stands where no chain is pending. -/
theorem onlyDirectives_iff (text : Str) : OnlyDirectives text ↔
    ∀ before line after, joinContinuations text = before ++ line :: after → Misread line →
      ∀ ds, directives before = .ok ds →
        classify line = .ok (some .unparseable) ∧ chainOpen false ds = false := by
  refine forall_congr' fun before => forall_congr' fun line => forall_congr' fun after =>
    forall_congr' fun _ => ?_
  have hstate := parseLines_eq_state [] none before
  rw [Option.toList_none, Option.isSome_none] at hstate
  constructor
  · intro h hmisread ds hds
    rw [hds] at hstate
    obtain ⟨rules, pending, hrun, hopen⟩ := hstate
    have hline := (parseLine_eq_other_iff rules pending hmisread.2.1).mp
      (h _ hrun hmisread.2.1) hmisread
    exact ⟨hline.1, by rw [← hopen, hline.2]; rfl⟩
  · intro h st hrun hdirective
    cases hds : directives before with
    | error e =>
      rw [hds] at hstate
      cases hstate.symm.trans hrun
    | ok ds =>
      rw [hds] at hstate
      obtain ⟨rules, pending, hrun', hopen⟩ := hstate
      obtain rfl := Except.ok.inj (hrun'.symm.trans hrun)
      refine (parseLine_eq_other_iff rules pending hdirective).mpr fun hmisread => ?_
      obtain ⟨hline, hclosed⟩ := h hmisread ds hds
      refine ⟨hline, ?_⟩
      rw [hclosed] at hopen
      exact Option.isNone_iff_eq_none.mp (by simpa using hopen)

/-- A directive that changes the targets of a rule. -/
def updateText : Str := "SecRuleUpdateTargetById 942100 \"!ARGS:x\"".toList

/-- It makes a rule of its own. -/
theorem update_makes_rule : ¬ ∀ text, OnlyDirectives text := by
  intro h
  have hlines : joinContinuations updateText = [] ++ updateText :: [] := by decide
  have hword : ¬ IsDirective updateText := by
    rw [IsDirective]
    decide
  have hline := h updateText [] updateText [] hlines ⟨[], []⟩ rfl hword
  have hrun : (parseLine ⟨[], []⟩ updateText).toOption.map (fun st => st.rules.length) =
      some 1 := by decide +kernel
  have hother : (parseOther ⟨[], []⟩ updateText).rules.length = 0 := by decide
  rw [hline] at hrun
  cases hother.symm.trans (Option.some.inj hrun)

end Crs

end Fywaf
