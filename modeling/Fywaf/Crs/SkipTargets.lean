import Fywaf.Crs.ActionList
import Fywaf.Crs.Markers

/-!
# Targets of jumps

The name of a marker gets into the rules twice: as the target of a `skipAfter` action, and as the
name in a `SecMarker` line. The actions are taken apart byte by byte, and only the marker line
drops quotes; so the two may be different texts, and then the jump never ends.

## Main definitions

* `Crs.Quoting`, `Crs.JumpsTo`, `Crs.NamesMarker` — how a name is written on either side
* `Crs.EndsAt`, `Crs.Meets` — a jump ends at a marker

## Main results

* `Crs.meets_iff` — exactly when a target meets its marker
-/

namespace Fywaf

namespace Crs

/-! ### The target of a rule -/

/-- The text behind `skipAfter:`. -/
def skipText (token : Str) : Option Str := stripPrefix "skipAfter:".toList token

/-- Only a `skipAfter` action changes the target. -/
theorem skipAfter_applyAction (acc : Actions) (token : Str) : (applyAction acc token).skipAfter =
    ((skipText (trim token)).map fun val => some (trim val)).getD acc.skipAfter := by
  rw [applyAction, skipText]
  generalize trim token = token
  cases hskip : stripPrefix "skipAfter:".toList token with
  | some val =>
    rw [stripPrefix_eq_some_iff.mp hskip]
    rfl
  | none =>
    repeat' split
    all_goals try rfl
    next heq => cases heq

theorem skipAfter_parseActions (actionsRaw : Str) : (parseActions actionsRaw).skipAfter =
    (actionValues skipText actionsRaw).getLast?.map trim := by
  have hlast := @foldl_applyAction _ Actions.skipAfter
    (fun token => (skipText token).map fun val => some (trim val))
    skipAfter_applyAction (splitActions actionsRaw) .init
  rw [parseActions, hlast, ← List.map_filterMap, List.getLast?_map, actionValues]
  cases (((splitActions actionsRaw).map trim).filterMap skipText).getLast? <;> rfl

/-! ### Writing a name -/

/-- How a name is written. -/
inductive Quoting
  | bare
  | single
  | double

/-- The name as it is written. -/
def Quoting.write : Quoting → Str → Str
  | .bare, m => m
  | .single, m => '\'' :: (m ++ ['\''])
  | .double, m => '"' :: (m ++ ['"'])

/-- No quote, comma, backslash, hash or white space. -/
def IsMarkerName (m : Str) : Prop :=
  ∀ c ∈ m, c ∉ ['\'', '"', ',', '\\', '#'] ∧ isWhitespace c = false

/-- Blanks. -/
def IsBlank (s : Str) : Prop := ∀ c ∈ s, isWhitespace c = true

theorem isBlank_nil : IsBlank [] := List.forall_mem_nil _

theorem isBlank_space : IsBlank [' '] := List.forall_mem_singleton.mpr (by decide)

/-- The actions of the line jump behind the marker `m`: one of them is `skipAfter`, with the name
as the quoting has it, and no later one is. -/
def JumpsTo (line : Str) (quoting : Quoting) (m : Str) : Prop :=
  ∃ varsStr opStr actionsRaw before left right after,
    lineFields line = .ok (some (varsStr, opStr, actionsRaw)) ∧
      actionList actionsRaw =
        before ++ (left ++ ("skipAfter:".toList ++ (quoting.write m ++ right))) :: after ∧
      (IsBlank left ∧ IsAscii left) ∧ (IsBlank right ∧ IsAscii right) ∧
      ∀ action ∈ after, ¬ "skipAfter:".toList <+: action.dropWhile isWhitespace

/-- The line is a `SecMarker` line with the name, as the quoting has it. -/
def NamesMarker (line : Str) (quoting : Quoting) (m : Str) : Prop :=
  ∃ left blank right, line = left ++ ("SecMarker".toList ++ (blank ++ (quoting.write m ++ right))) ∧
    IsBlank left ∧ IsBlank blank ∧ blank ≠ [] ∧ IsBlank right

section Names

variable {m : Str}

/-- A name in quotes has clean ends. -/
theorem cleanEnds_quoted {p : Char → Bool} {q : Char} (hq : p q = false) (m : Str) :
    CleanEnds p (q :: (m ++ [q])) := by
  constructor
  · intro c hc
    obtain rfl : q = c := Option.some.inj hc
    exact hq
  · intro c hc
    rw [← List.cons_append, List.getLast?_concat] at hc
    obtain rfl : q = c := Option.some.inj hc
    exact hq

theorem IsMarkerName.cleanEnds_write (hm : IsMarkerName m) (quoting : Quoting) :
    CleanEnds isWhitespace (quoting.write m) := by
  cases quoting with
  | bare => exact cleanEnds_of_forall fun c hc => (hm c hc).2
  | single => exact cleanEnds_quoted (by decide) m
  | double => exact cleanEnds_quoted (by decide) m

/-- The name as the marker line has it: without double quotes. -/
def Quoting.readAsMarker : Quoting → Str → Str
  | .bare, m => m
  | .single, m => '\'' :: (m ++ ['\''])
  | .double, m => m

/-- Blanks around a text disappear. -/
theorem trim_blank {left right : Str} (hleft : IsBlank left) (hright : IsBlank right) (s : Str) :
    trim (left ++ (s ++ right)) = trim s := by
  have hfront : trim (left ++ (s ++ right)) = trim (s ++ right) := by
    rw [trim, trim, trimMatches, trimMatches, List.dropWhile_append_of_pos hleft]
  rw [hfront]
  exact trimMatches_append_blank hright

theorem trim_rdropWhile (s : Str) : trim (s.rdropWhile isWhitespace) = trim s :=
  trimMatches_rdropWhile isWhitespace s

/-- Double quotes are dropped from a marker name, and nothing else. -/
theorem markerName_write (hm : IsMarkerName m) {quoting : Quoting} {blank right : Str}
    (hblank : IsBlank blank) (hright : IsBlank right) :
    markerName ((blank ++ (quoting.write m ++ right)).rdropWhile isWhitespace) =
      quoting.readAsMarker m := by
  have hquote : ∀ c ∈ m, (c == '"') = false := by
    intro c hc
    have := (hm c hc).1
    simp only [List.mem_cons, not_or] at this
    simp [this.2.1]
  have hname : trimMatches (· == '"') m = m :=
    trimMatches_of_cleanEnds (cleanEnds_of_forall hquote)
  have hclean : ∀ quoting : Quoting, trim (quoting.write m) = quoting.write m :=
    fun quoting => trimMatches_of_cleanEnds (hm.cleanEnds_write quoting)
  rw [markerName, trim_rdropWhile, trim_blank hblank hright, hclean]
  cases quoting with
  | bare =>
    rw [Quoting.write, hname]
    exact hclean .bare
  | single =>
    have hends : CleanEnds (· == '"') ('\'' :: (m ++ ['\''])) := cleanEnds_quoted (by decide) m
    rw [Quoting.write, trimMatches_of_cleanEnds hends]
    exact hclean .single
  | double =>
    have hdrop : trimMatches (· == '"') ('"' :: (m ++ ['"'])) = trimMatches (· == '"') m := by
      have hfront : trimMatches (· == '"') ('"' :: (m ++ ['"'])) =
          trimMatches (· == '"') (m ++ ['"']) := by
        rw [trimMatches, trimMatches, List.dropWhile_cons_of_pos (by decide)]
      rw [hfront]
      exact trimMatches_append_blank fun c hc => by rw [List.mem_singleton.mp hc]; decide
    rw [Quoting.write, hdrop, hname]
    exact hclean .bare

/-- The target of the rule: the name byte by byte, with its quotes. -/
theorem skipAfter_of_jumpsTo {line : Str} {quoting : Quoting} {entry : Rule}
    (h : JumpsTo line quoting m) (hentry : Produces line entry) :
    entry.skipAfter = some (trim (bytewise (quoting.write m))) := by
  obtain ⟨varsStr, opStr, actionsRaw, before, left, right, after, hfields, hlist, ⟨hleft, hleft'⟩,
    ⟨hright, hright'⟩, hafter⟩ := h
  have hkey : IsAscii "skipAfter:".toList := by decide
  have hclean : CleanEnds isWhitespace "skipAfter:".toList :=
    cleanEnds_of_forall (forall_mem_of_all (by decide))
  -- the action itself
  have haction : skipText (trim (bytewise (left ++ ("skipAfter:".toList ++
      (quoting.write m ++ right))))) =
      some ((bytewise (quoting.write m) ++ right).rdropWhile isWhitespace) := by
    rw [bytewise_append, bytewise_append, bytewise_append, bytewise_of_isAscii hleft',
      bytewise_of_isAscii hkey, bytewise_of_isAscii hright', trim,
      trimMatches_word hclean (by decide) hleft]
    exact stripPrefix_eq_some_iff.mpr rfl
  -- and none behind it
  have hnone : (after.map fun action => trim (bytewise action)).filterMap skipText = [] := by
    rw [List.filterMap_eq_nil_iff]
    intro token htoken
    obtain ⟨action, haction, rfl⟩ := List.mem_map.mp htoken
    by_contra hsome
    obtain ⟨val, hval⟩ := Option.ne_none_iff_exists'.mp hsome
    have hprefix : "skipAfter:".toList <+: (bytewise action).dropWhile isWhitespace :=
      List.IsPrefix.trans ⟨val, (stripPrefix_eq_some_iff.mp hval).symm⟩
        (List.rdropWhile_prefix isWhitespace _)
    exact hafter action haction (prefix_dropWhile_of_bytewise hkey (by decide) hprefix)
  have hlast : (parseActions actionsRaw).skipAfter = some (trim (bytewise (quoting.write m))) := by
    rw [skipAfter_parseActions, actionValues, splitActions_eq, hlist, List.map_map, List.map_append,
      List.map_cons, List.filterMap_append]
    change (List.filterMap skipText _ ++ List.filterMap skipText
      (trim (bytewise _) :: after.map fun action => trim (bytewise action))).getLast?.map trim = _
    rw [List.filterMap_cons_some haction, hnone, List.getLast?_concat, Option.map_some,
      trim_rdropWhile]
    exact congrArg some (trimMatches_append_blank hright)
  cases hentry with
  | marker hline =>
    exact absurd ⟨_, (stripPrefix_eq_some_iff.mp hline).symm⟩
      (not_isMarkerLine (isRuleLine_of_lineFields hfields))
  | rule hfields' hvars chained =>
    cases hfields.symm.trans hfields'
    exact hlast

/-- The entry of a marker line. -/
theorem eq_markerRule_of_namesMarker (hm : IsMarkerName m) {line : Str} {quoting : Quoting}
    {entry : Rule} (h : NamesMarker line quoting m) (hentry : Produces line entry) :
    entry = markerRule (quoting.readAsMarker m) := by
  obtain ⟨left, blank, right, rfl, hleft, hblank, -, hright⟩ := h
  have htrim : trim (left ++ ("SecMarker".toList ++ (blank ++ (quoting.write m ++ right)))) =
      "SecMarker".toList ++ (blank ++ (quoting.write m ++ right)).rdropWhile isWhitespace :=
    trimMatches_word (cleanEnds_of_forall (forall_mem_of_all (by decide))) (by decide) hleft _
  cases hentry with
  | marker hline =>
    rw [htrim, stripPrefix_eq_some_iff, List.append_cancel_left_eq] at hline
    rw [← hline, markerName_write hm hblank hright]
  | rule hfields hvars chained =>
    exact absurd ⟨_, htrim.symm⟩ (not_isMarkerLine (isRuleLine_of_lineFields hfields))

/-! ### When a target is its marker -/

/-- The two ways of writing a name are read alike: only a marker line drops double quotes, and
nothing drops single ones. -/
def Quoting.Agrees (target marker : Quoting) : Prop :=
  (target = .bare ∧ marker ≠ .single) ∨ (target = .single ∧ marker = .single)

/-- A quote of the action stays in the target, and is not in the name. -/
theorem trim_bytewise_quoted {q : Char} (hq : isWhitespace q = false) (hascii : q.toNat < 0x80)
    (m : Str) : trim (bytewise (q :: (m ++ [q]))) = q :: (bytewise m ++ [q]) := by
  rw [bytewise_cons_ascii hascii, bytewise_append, bytewise_cons_ascii hascii, bytewise_nil]
  exact trimMatches_of_cleanEnds (cleanEnds_quoted hq _)

/-- **When a target is its marker**: an ASCII name in ways of writing that agree. -/
theorem trim_bytewise_write_iff (hm : IsMarkerName m) (target marker : Quoting) :
    trim (bytewise (target.write m)) = marker.readAsMarker m ↔
      IsAscii m ∧ target.Agrees marker := by
  have hsingle : '\'' ∉ m := fun h => (hm _ h).1 (by decide)
  have hdouble : '"' ∉ m := fun h => (hm _ h).1 (by decide)
  have hbare : trim (bytewise m) = m ↔ IsAscii m :=
    trim_bytewise_eq_self_iff fun c hc => (hm c hc).2
  cases target with
  | bare =>
    cases marker with
    | bare | double => exact hbare.trans (by simp [Quoting.Agrees])
    | single =>
      refine iff_of_false (fun h => hsingle ?_) (by simp [Quoting.Agrees])
      have hmem : '\'' ∈ trim (bytewise m) := h ▸ List.mem_cons_self
      exact mem_of_mem_bytewise (by decide) ((trim_isInfix _).subset hmem)
  | single =>
    rw [Quoting.write, trim_bytewise_quoted (by decide) (by decide)]
    cases marker with
    | bare | double =>
      refine iff_of_false (fun h => hsingle ?_) (by simp [Quoting.Agrees])
      rw [← show _ = m from h]
      exact List.mem_cons_self
    | single =>
      rw [Quoting.readAsMarker, List.cons.injEq, List.append_left_inj, bytewise_eq_self_iff]
      simp [Quoting.Agrees]
  | double =>
    rw [Quoting.write, trim_bytewise_quoted (by decide) (by decide)]
    refine iff_of_false (fun h => ?_) (by simp [Quoting.Agrees])
    have hmem : '"' ∈ marker.readAsMarker m := h ▸ List.mem_cons_self
    cases marker with
    | bare | double => exact hdouble hmem
    | single => simp [Quoting.readAsMarker, hdouble] at hmem

end Names

/-! ### Jumps that end -/

section Run

variable (regex : RegexNew) (ctx : RequestContext) (paranoiaLevel : UInt8)
  (anomalyThreshold : UInt32)

/-- While a jump is under way, an entry that is not its marker changes nothing. -/
theorem step_of_pending {st : EvalState} {t : Str} (hst : st.skipUntil = some t) {rule : Rule}
    (h : rule.id = 0 → rule.skipAfter ≠ some t) :
    step regex ctx paranoiaLevel anomalyThreshold st rule = .next st := by
  rw [step]
  by_cases hid : rule.id = 0
  · rw [if_pos hid, if_neg fun hmarker => h hid (hmarker.2.trans hst)]
  · rw [if_neg hid, if_pos (by rw [hst]; rfl)]

/-- The jump goes on over entries that are not its marker. -/
theorem evalLoop_of_pending {st : EvalState} {t : Str} (hst : st.skipUntil = some t)
    {mid : List Rule} (hmid : ∀ rule ∈ mid, rule.id = 0 → rule.skipAfter ≠ some t)
    (rules : List Rule) :
    evalLoop regex ctx paranoiaLevel anomalyThreshold st (mid ++ rules) =
      evalLoop regex ctx paranoiaLevel anomalyThreshold st rules := by
  induction mid with
  | nil => rfl
  | cons rule mid ih =>
    rw [List.cons_append, evalLoop, step_of_pending regex ctx paranoiaLevel anomalyThreshold hst
      (hmid rule List.mem_cons_self)]
    exact ih fun rule hrule => hmid rule (List.mem_cons_of_mem _ hrule)

end Run

/-- A jump to the target ends at the entry: from there on the loop goes on as without it, if no
marker in between has ended the jump before. -/
def EndsAt (target : Option Str) (marker : Rule) : Prop :=
  ∀ (regex : RegexNew) ctx paranoiaLevel anomalyThreshold st mid rest, st.skipUntil = target →
    (∀ rule ∈ mid, rule.id = 0 → rule.skipAfter ≠ target) →
    evalLoop regex ctx paranoiaLevel anomalyThreshold st (mid ++ marker :: rest) =
      evalLoop regex ctx paranoiaLevel anomalyThreshold { st with skipUntil := none } rest

/-- The target of the rule is that of the marker, and a jump to it ends there. -/
def Meets (rule marker : Rule) : Prop :=
  rule.skipAfter = marker.skipAfter ∧ EndsAt rule.skipAfter marker

theorem endsAt_markerRule (t : Str) : EndsAt (some t) (markerRule t) := by
  intro regex ctx paranoiaLevel anomalyThreshold st mid rest hst hmid
  have hstep : step regex ctx paranoiaLevel anomalyThreshold st (markerRule t) =
      .next { st with skipUntil := none } := by
    rw [step, if_pos (show (markerRule t).id = 0 from rfl),
      if_pos ⟨by rw [hst]; rfl, hst.symm⟩]
  rw [evalLoop_of_pending regex ctx paranoiaLevel anomalyThreshold hst hmid, evalLoop, hstep]

/-- **Exactly when a target meets its marker**: when the name is ASCII, and the two lines write it
in ways that agree. -/
theorem meets_iff {text m : Str} {es : List (Str × Rule)} {e e' : Str × Rule}
    {target marker : Quoting} (hm : IsMarkerName m) (hes : entries text = .ok es) (he : e ∈ es)
    (he' : e' ∈ es) (htarget : JumpsTo e.1 target m) (hmarker : NamesMarker e'.1 marker m) :
    Meets e.2 e'.2 ↔ IsAscii m ∧ target.Agrees marker := by
  have hskip := skipAfter_of_jumpsTo htarget (entries_spec hes he)
  have hentry := eq_markerRule_of_namesMarker hm hmarker (entries_spec hes he')
  rw [← trim_bytewise_write_iff hm target marker, Meets, hskip, hentry]
  constructor
  · rintro ⟨heq, -⟩
    exact Option.some.inj heq
  · intro heq
    rw [heq]
    exact ⟨rfl, endsAt_markerRule _⟩

/-! ### A jump to `END` -/

/-- A rule that jumps to a marker. -/
def jumpLine (target : Str) : Str :=
  "SecRule ARGS \"@rx a\" \"id:1,phase:2,pass,skipAfter:".toList ++ (target ++ ['"'])

/-- The marker `END`. -/
def endLine : Str := "SecMarker END".toList

/-- A rule that jumps, and the marker `END`. -/
def jumpText (target : Str) : Str := jumpLine target ++ '\n' :: endLine

/-- The two lines have an entry each. -/
theorem exists_entries_jumpText {target : Str}
    (h : (entries (jumpText target)).toOption.map (List.map Prod.fst) =
      some [jumpLine target, endLine]) :
    ∃ e e', entries (jumpText target) = .ok [e, e'] ∧ e.1 = jumpLine target ∧ e'.1 = endLine := by
  obtain ⟨es, hes, hlines⟩ := map_toOption_eq_some_iff.mp h
  obtain ⟨e, es', rfl, he, hlines⟩ := List.map_eq_cons_iff.mp hlines
  obtain ⟨e', rfl, he'⟩ := List.map_eq_singleton_iff.mp hlines
  exact ⟨e, e', hes, he, he'⟩

theorem namesMarker_endLine : NamesMarker endLine .bare "END".toList :=
  ⟨[], [' '], [], rfl, by simp [IsBlank], forall_mem_of_all (by decide), by decide,
    by simp [IsBlank]⟩

theorem isMarkerName_end : IsMarkerName "END".toList := forall_mem_of_all (by decide)

/-- With the name in quotes the jump does not end at the marker. -/
theorem quoted_target_misses : ¬ ∀ text m es e e' target marker, IsMarkerName m →
    entries text = .ok es → e ∈ es → e' ∈ es → JumpsTo e.1 target m →
    NamesMarker e'.1 marker m → Meets e.2 e'.2 := by
  intro h
  obtain ⟨e, e', hes, he, he'⟩ := @exists_entries_jumpText "'END'".toList (by decide +kernel)
  have htarget : JumpsTo e.1 .single "END".toList := by
    rw [he]
    exact ⟨"ARGS".toList, "\"@rx a\"".toList, "id:1,phase:2,pass,skipAfter:'END'".toList,
      ["id:1".toList, "phase:2".toList, "pass".toList], [], [], [],
      toOption_eq_some_iff.mp (by decide +kernel), by decide +kernel, by simp [IsBlank, IsAscii],
      by simp [IsBlank, IsAscii], by simp⟩
  have hmarker : NamesMarker e'.1 .bare "END".toList := he' ▸ namesMarker_endLine
  have hmeets := h _ _ _ _ _ _ _ isMarkerName_end hes (by simp) (by simp) htarget hmarker
  have hskip := hmeets.1
  rw [skipAfter_of_jumpsTo htarget (entries_spec hes (by simp)),
    eq_markerRule_of_namesMarker isMarkerName_end hmarker (entries_spec hes (by simp))] at hskip
  exact absurd hskip (by decide)

/-- Without quotes it does. -/
theorem bare_target_meets : ∃ e e', entries (jumpText "END".toList) = .ok [e, e'] ∧
    (Meets e.2 e'.2 ↔ IsAscii "END".toList ∧ Quoting.bare.Agrees .bare) := by
  obtain ⟨e, e', hes, he, he'⟩ := @exists_entries_jumpText "END".toList (by decide +kernel)
  have htarget : JumpsTo e.1 .bare "END".toList := by
    rw [he]
    exact ⟨"ARGS".toList, "\"@rx a\"".toList, "id:1,phase:2,pass,skipAfter:END".toList,
      ["id:1".toList, "phase:2".toList, "pass".toList], [], [], [],
      toOption_eq_some_iff.mp (by decide +kernel), by decide +kernel, by simp [IsBlank, IsAscii],
      by simp [IsBlank, IsAscii], by simp⟩
  exact ⟨e, e', hes, meets_iff isMarkerName_end hes (by simp) (by simp) htarget
    (he' ▸ namesMarker_endLine)⟩

end Crs

end Fywaf
