import Fywaf.Crs.Engine
import Fywaf.Crs.Entries

/-!
# Markers

To the engine an entry is a marker when its id is `0`, and the parser gives that id to markers,
but also to every rule whose `id` action is missing or is not a number. Such a rule is passed over
as a marker, and may end a jump.

## Main definitions

* `Crs.Handling`, `Crs.handling` — which branch of the loop body an entry takes
* `Crs.MarkersRecognised` — exactly the marker lines are handled as markers
* `Crs.DeclaresId` — a line declares a number other than `0` as its id

## Main results

* `Crs.step_eq_handling` — the loop body in terms of its branches
* `Crs.foldl_applyAction` — of several actions of a kind the last one counts
* `Crs.markersRecognised_iff` — exactly when the markers are recognised
-/

namespace Fywaf

namespace Crs

/-! ### Branches of the loop body -/

/-- The branches of the loop body. -/
inductive Handling
  /-- The entry ends the jump that waits for it and does nothing else. -/
  | marker
  /-- A jump is under way. -/
  | skipped
  /-- The entry is off at this level. -/
  | filtered
  /-- The conditions of the rule decide. -/
  | evaluated
  deriving DecidableEq

/-- The branch that an entry takes. -/
def handling (paranoiaLevel : UInt8) (st : EvalState) (rule : Rule) : Handling :=
  if rule.id = 0 then .marker
  else if st.skipUntil.isSome then .skipped
  else if rule.filtered paranoiaLevel then .filtered
  else .evaluated

/-- What happens in a branch. -/
def Handling.flow (regex : RegexNew) (ctx : RequestContext) (anomalyThreshold : UInt32)
    (st : EvalState) (rule : Rule) : Handling → Flow
  | .marker =>
    if st.skipUntil.isSome ∧ rule.skipAfter = st.skipUntil then .next { st with skipUntil := none }
    else .next st
  | .skipped => .next st
  | .filtered => .next st
  | .evaluated =>
    if ruleMatches regex rule ctx then onMatch anomalyThreshold st rule else .next st

/-- **The loop body in terms of its branches.** -/
theorem step_eq_handling (regex : RegexNew) (ctx : RequestContext) (paranoiaLevel : UInt8)
    (anomalyThreshold : UInt32) (st : EvalState) (rule : Rule) :
    step regex ctx paranoiaLevel anomalyThreshold st rule =
      (handling paranoiaLevel st rule).flow regex ctx anomalyThreshold st rule := by
  rw [step, handling]
  by_cases hid : rule.id = 0
  · rw [if_pos hid, if_pos hid, Handling.flow]
  rw [if_neg hid, if_neg hid]
  by_cases hskip : st.skipUntil.isSome = true
  · rw [if_pos hskip, if_pos hskip, Handling.flow]
  rw [if_neg hskip, if_neg hskip]
  by_cases hlevel : rule.filtered paranoiaLevel = true
  · rw [if_pos hlevel, if_pos hlevel, Handling.flow]
  rw [if_neg hlevel, if_neg hlevel, Handling.flow]

/-- The entry always takes the branch of the markers: it is never matched, and ends a jump that
waits for it. -/
def HandledAsMarker (rule : Rule) : Prop :=
  ∀ paranoiaLevel st, handling paranoiaLevel st rule = .marker

/-- The entry is evaluated whenever it is not passed over and is on at the level. -/
def EvaluatedAsRule (rule : Rule) : Prop :=
  ∀ paranoiaLevel st, st.skipUntil = none → rule.filtered paranoiaLevel = false →
    handling paranoiaLevel st rule = .evaluated

theorem handledAsMarker_iff {rule : Rule} : HandledAsMarker rule ↔ rule.id = 0 := by
  constructor
  · intro h
    by_contra hid
    have hbranch := h 0 EvalState.init
    rw [handling, if_neg hid, if_neg (by decide)] at hbranch
    split at hbranch <;> cases hbranch
  · intro hid paranoiaLevel st
    rw [handling, if_pos hid]

theorem evaluatedAsRule_of_ne_zero {rule : Rule} (hid : rule.id ≠ 0) : EvaluatedAsRule rule := by
  intro paranoiaLevel st hskip hlevel
  rw [handling, if_neg hid, hskip, hlevel]
  rfl

/-! ### The last action of a kind -/

/-- The values of the actions that `read` reads, in order. -/
def actionValues {α : Type} (read : Str → Option α) (actionsRaw : Str) : List α :=
  ((splitActions actionsRaw).map trim).filterMap read

/-- **Of several actions of a kind the last one counts**, for what each action overwrites. -/
theorem foldl_applyAction {α : Type} {field : Actions → α} {read : Str → Option α}
    (hstep : ∀ acc token,
      field (applyAction acc token) = (read (trim token)).getD (field acc))
    (tokens : List Str) (acc : Actions) :
    field (tokens.foldl applyAction acc) =
      (((tokens.map trim).filterMap read).getLast?).getD (field acc) := by
  induction tokens generalizing acc with
  | nil => rfl
  | cons token tokens ih =>
    rw [List.foldl_cons, ih, hstep, List.map_cons, List.filterMap_cons]
    cases read (trim token) with
    | none => rfl
    | some a => rw [List.getLast?_cons]; cases (List.filterMap read _).getLast? <;> rfl

/-- The number that an `id` action is read as. -/
def idValue (val : Str) : UInt32 := ((parseUnsigned 32 val).map UInt32.ofNat).getD 0

/-- The text behind `id:`. -/
def idText (token : Str) : Option Str := stripPrefix "id:".toList token

/-- Only an `id` action changes the id. -/
theorem id_applyAction (acc : Actions) (token : Str) :
    (applyAction acc token).id = ((idText (trim token)).map idValue).getD acc.id := by
  rw [applyAction, idText]
  generalize trim token = token
  by_cases hempty : token = []
  · subst hempty
    rfl
  rw [if_neg hempty]
  cases stripPrefix "id:".toList token with
  | some val => rfl
  | none =>
    dsimp only
    repeat' split
    all_goals rfl

theorem id_parseActions (actionsRaw : Str) : (parseActions actionsRaw).id =
    ((actionValues idText actionsRaw).getLast?.map idValue).getD 0 := by
  have hlast := @foldl_applyAction _ Actions.id (fun token => (idText token).map idValue)
    id_applyAction (splitActions actionsRaw) .init
  rw [parseActions, hlast, ← List.map_filterMap, List.getLast?_map]
  rfl

/-! ### Rules that declare an id -/

/-- The line has an `id` action, and the last of them is a number other than `0`. -/
def DeclaresId (line : Str) : Prop :=
  ∃ varsStr opStr actionsRaw val n, lineFields line = .ok (some (varsStr, opStr, actionsRaw)) ∧
    (actionValues idText actionsRaw).getLast? = some val ∧ parseUnsigned 32 val = some n ∧ n ≠ 0

theorem idValue_ne_zero_iff {val : Str} :
    idValue val ≠ 0 ↔ ∃ n, parseUnsigned 32 val = some n ∧ n ≠ 0 := by
  rw [idValue]
  cases hval : parseUnsigned 32 val with
  | none => exact iff_of_false (fun h => h rfl) (by rintro ⟨n, hn, -⟩; cases hn)
  | some n =>
    have hzero : UInt32.ofNat n = 0 ↔ n = 0 := by
      rw [← UInt32.toNat_inj, UInt32.toNat_ofNat', Nat.mod_eq_of_lt (lt_of_parseUnsigned hval)]
      rfl
    simp only [Option.map_some, Option.getD_some, ne_eq, hzero, Option.some.injEq,
      exists_eq_left']

/-- Only the entry of a line that declares an id has one. -/
theorem Produces.id_ne_zero_iff {line : Str} {entry : Rule} (h : Produces line entry) :
    entry.id ≠ 0 ↔ ¬ IsMarkerLine line ∧ DeclaresId line := by
  cases h with
  | marker hline =>
    refine iff_of_false (fun h => h rfl) fun h => h.1 ?_
    exact ⟨_, (stripPrefix_eq_some_iff.mp hline).symm⟩
  | @rule varsStr opStr actionsRaw vars hfields hvars chained =>
    change (parseActions actionsRaw).id ≠ 0 ↔ _
    rw [id_parseActions]
    constructor
    · intro hid
      refine ⟨not_isMarkerLine (isRuleLine_of_lineFields hfields), ?_⟩
      cases hval : (actionValues idText actionsRaw).getLast? with
      | none =>
        rw [hval] at hid
        exact absurd rfl hid
      | some val =>
        rw [hval] at hid
        obtain ⟨n, hn, hne⟩ := idValue_ne_zero_iff.mp hid
        exact ⟨varsStr, opStr, actionsRaw, val, n, hfields, hval, hn, hne⟩
    · rintro ⟨-, varsStr', opStr', actionsRaw', val, n, hfields', hval, hn, hne⟩
      cases hfields.symm.trans hfields'
      rw [hval]
      exact idValue_ne_zero_iff.mpr ⟨n, hn, hne⟩

/-- In every output of the parser the markers are recognised: an entry is handled as a marker if
and only if its line is a marker line, and the entry of a rule line is evaluated as a rule. -/
def MarkersRecognised (text : Str) : Prop :=
  ∀ es, entries text = .ok es → ∀ e ∈ es,
    (HandledAsMarker e.2 ↔ IsMarkerLine e.1) ∧ (IsRuleLine e.1 → EvaluatedAsRule e.2)

/-- **Exactly when the markers are recognised**, among the entries of the parser, by the branches
of the loop body: when every entry of a rule line declares an id. -/
theorem markersRecognised_iff (text : Str) :
    (parseStr text = (entries text).map (List.map Prod.snd) ∧
      ∀ regex ctx paranoiaLevel anomalyThreshold st rule,
        step regex ctx paranoiaLevel anomalyThreshold st rule =
          (handling paranoiaLevel st rule).flow regex ctx anomalyThreshold st rule) ∧
      (MarkersRecognised text ↔
        ∀ es, entries text = .ok es → ∀ e ∈ es, IsRuleLine e.1 → DeclaresId e.1) := by
  refine ⟨⟨parseStr_eq_entries text, step_eq_handling⟩, ?_⟩
  refine forall_congr' fun es => forall_congr' fun hes => forall_congr' fun e =>
    forall_congr' fun he => ?_
  have hid := (entries_spec hes he).id_ne_zero_iff
  rw [handledAsMarker_iff]
  constructor
  · rintro ⟨hmarker, -⟩ hline
    exact (hid.mp fun h => not_isMarkerLine hline (hmarker.mp h)).2
  · intro hdeclares
    refine ⟨⟨?_, ?_⟩, ?_⟩
    · intro h
      by_contra hmarker
      have hline := (entries_spec hes he).isRuleLine hmarker
      exact hid.mpr ⟨hmarker, hdeclares hline⟩ h
    · intro h
      by_contra hne
      exact (hid.mp hne).1 h
    · intro hline
      exact evaluatedAsRule_of_ne_zero (hid.mpr ⟨not_isMarkerLine hline, hdeclares hline⟩)

/-- A rule without an id. -/
def anonymousText : Str := "SecRule ARGS \"@rx a\" \"phase:2,deny\"".toList

/-- It is handled as a marker. -/
theorem anonymous_handled_as_marker : ¬ ∀ text, MarkersRecognised text := by
  intro h
  have hrun : (entries anonymousText).toOption.map
      (List.map fun e => (e.2.id, "SecMarker".toList.isPrefixOf (trim e.1))) =
      some [(0, false)] := by decide +kernel
  obtain ⟨es, hes, hrun⟩ := map_toOption_eq_some_iff.mp hrun
  obtain ⟨e, rfl, he⟩ := List.map_eq_singleton_iff.mp hrun
  obtain ⟨hid, hprefix⟩ := Prod.mk.inj he
  have hmarker := (h anonymousText [e] hes e List.mem_cons_self).1.mp (handledAsMarker_iff.mpr hid)
  rw [IsMarkerLine, ← List.isPrefixOf_iff_prefix, hprefix] at hmarker
  cases hmarker

end Crs

end Fywaf
