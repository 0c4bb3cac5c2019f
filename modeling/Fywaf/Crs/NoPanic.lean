import Fywaf.Crs.Build
import Fywaf.Crs.Sliced
import Fywaf.Crs.Variables
import Fywaf.Std.Uppercase

/-!
# Where the parser panics

The name of a variable is compared in upper case, and the header behind `REQUEST_HEADERS:` is
sliced off the text as it stands, at the length that the word has in upper case. Both `S` of the
word can be spelled outside ASCII, and a spelling of either takes one byte more. With one such
spelling the slice is a byte early; with both it is inside the second, and the parser panics. No
other slice of the parser fails.

## Main definitions

* `Crs.headersKey` — the spellings of `REQUEST_HEADERS:`
* `Crs.CutsHeaderName` — both letters are spelled outside ASCII
* `Crs.HasVariables` — the variables fields of a file

## Main results

* `Crs.prefix_requestHeaders_iff` — the spellings are exactly these
* `Crs.exists_parseVariable_iff` — exactly when a variable panics
* `Crs.exists_secruleFields` — a rule line is taken apart without a panic
* `Crs.exists_parseStrSliced_iff` — exactly when a file panics
-/

namespace Fywaf

namespace Crs

/-! ### Spellings of a word -/

/-- The spellings of `ST`: those of the `S`, and two ligatures. -/
def stSpellings : List Str := ["ST".toList, "ſT".toList, "ﬅ".toList, "ﬆ".toList]

/-- `REQUEST_HEADERS:` with `st` for the first `ST` and `x` for the last `S`. -/
def headersKey (st : Str) (x : Char) : Str :=
  "REQUE".toList ++ st ++ "_HEADER".toList ++ [x, ':']

section Spellings

variable {s st w rest : Str} {x : Char}

theorem mem_of_toUpper_s {c : Char} (h : c.toUpper = 'S' ∨ c = 'ſ') : c.toUpper ∈ ['S', 'ſ'] := by
  rcases h with h | rfl
  · rw [h]
    decide
  · decide

/-- Plain letters, an `S` and a colon are read off the upper case. -/
theorem prefix_toUppercase_s_colon (hw : ∀ u ∈ w, IsPlainLetter u)
    (h : w ++ ['S', ':'] <+: toUppercase s) :
    ∃ x ∈ ['S', 'ſ'], w ++ [x, ':'] <+: s.map Char.toUpper := by
  obtain ⟨a, t, rfl, ha, ht⟩ := prefix_toUppercase_plain hw (by decide) h
  rcases prefix_toUppercase_s (by decide) ht with ⟨c, t, rfl, hc, ht⟩ | ⟨-, -, -, -, hne, -⟩
  · obtain ⟨t, rfl, -⟩ := prefix_toUppercase_colon ht
    refine ⟨c.toUpper, mem_of_toUpper_s hc, t.map Char.toUpper, ?_⟩
    rw [List.map_append, ha, List.map_cons, List.map_cons, List.append_assoc]
    rfl
  · exact absurd hne (by decide)

/-- **The spellings of the word** are these, up to ASCII case. -/
theorem prefix_requestHeaders_iff : "REQUEST_HEADERS:".toList <+: toUppercase s ↔
    ∃ st ∈ stSpellings, ∃ x ∈ ['S', 'ſ'], headersKey st x <+: s.map Char.toUpper := by
  constructor
  · intro h
    obtain ⟨a, t, rfl, ha, ht⟩ := prefix_toUppercase_plain
      (w := "REQUE".toList) (forall_mem_of_all (by decide)) (by decide : 'S'.toNat < 0x80) h
    rcases prefix_toUppercase_s (by decide) ht with ⟨c, t, rfl, hc, ht⟩ | ⟨c, t, rfl, hc, -, ht⟩
    · obtain ⟨x, hx, key⟩ := prefix_toUppercase_s_colon (w := "T_HEADER".toList)
        (forall_mem_of_all (by decide)) ht
      obtain ⟨rest, hrest⟩ := key
      have hst : [c.toUpper, 'T'] ∈ stSpellings := by
        rcases List.mem_pair.mp (mem_of_toUpper_s hc) with h | h <;> rw [h] <;> decide
      refine ⟨_, hst, x, hx, rest, ?_⟩
      rw [List.map_append, List.map_cons, ha, ← hrest]
      rfl
    · obtain ⟨x, hx, key⟩ := prefix_toUppercase_s_colon (w := "_HEADER".toList)
        (forall_mem_of_all (by decide)) ht
      obtain ⟨rest, hrest⟩ := key
      have hst : [c.toUpper] ∈ stSpellings := by
        rcases hc with rfl | rfl <;> decide
      refine ⟨_, hst, x, hx, rest, ?_⟩
      rw [List.map_append, List.map_cons, ha, ← hrest]
      rfl
  · rintro ⟨st, hst, x, hx, rest, hrest⟩
    have hkeys : ∀ st ∈ stSpellings,
        toUppercase (headersKey st 'S') = "REQUEST_HEADERS:".toList ∧
          toUppercase (headersKey st 'ſ') = "REQUEST_HEADERS:".toList := by decide
    have hkey : toUppercase (headersKey st x) = "REQUEST_HEADERS:".toList := by
      rcases List.mem_pair.mp hx with rfl | rfl
      · exact (hkeys st hst).1
      · exact (hkeys st hst).2
    rw [← toUppercase_map_toUpper, ← hrest, toUppercase_append, hkey]
    exact List.prefix_append _ _

/-- **Where the word has a boundary at its length in upper case.** -/
theorem isBoundary_headersKey_iff (hst : st ∈ stSpellings) (hx : x ∈ ['S', 'ſ']) :
    IsBoundary (headersKey st x ++ rest) 16 ↔ st = "ST".toList ∨ x = 'S' := by
  constructor
  · intro h
    by_contra hnot
    rw [not_or] at hnot
    obtain rfl : x = 'ſ' := (List.mem_pair.mp hx).resolve_left hnot.2
    have hlen : ∀ st ∈ stSpellings, st ≠ "ST".toList →
        (asBytes ("REQUE".toList ++ st ++ "_HEADER".toList)).length = 15 := by decide
    have hfront := hlen st hst hnot.1
    have hsize : 'ſ'.utf8Size = 2 := by decide
    unfold headersKey at h
    rw [List.append_assoc] at h
    exact not_isBoundary_inside (by omega) (by omega) (':' :: rest) h
  · intro h
    have hcuts : ∀ st ∈ stSpellings, (splitAtByte (headersKey st 'S') 16).isSome = true := by
      decide
    have hcut : (splitAtByte (headersKey st x) 16).isSome = true := by
      rcases List.mem_pair.mp hx with rfl | rfl
      · exact hcuts st hst
      · obtain rfl := h.resolve_right (by decide)
        decide
    obtain ⟨⟨a, b⟩, hab⟩ := Option.isSome_iff_exists.mp hcut
    obtain ⟨hkey, ha⟩ := splitAtByte_eq_some_iff.mp hab
    exact ⟨a, b ++ rest, by rw [hkey, List.append_assoc], ha⟩

end Spellings

/-! ### Variables -/

/-- Up to ASCII case the text starts with `REQUEST_HEADERS:`, the first `S` spelled with a long s
or as part of a ligature, the second with a long s. -/
def CutsHeaderName (s : Str) : Prop :=
  ∃ st ∈ stSpellings, st ≠ "ST".toList ∧ headersKey st 'ſ' <+: s.map Char.toUpper

section Variables

variable {s part : Str}

theorem isBoundary_map_toUpper {i : ℕ} : IsBoundary (s.map Char.toUpper) i ↔ IsBoundary s i :=
  isBoundary_map utf8Size_toUpper

/-- **The slice behind the word fails** exactly when both letters are spelled outside ASCII. -/
theorem cutsHeaderName_iff : CutsHeaderName s ↔
    "REQUEST_HEADERS:".toList <+: toUppercase s ∧ ¬ IsBoundary s 16 := by
  constructor
  · rintro ⟨st, hst, hne, hkey⟩
    refine ⟨prefix_requestHeaders_iff.mpr ⟨st, hst, 'ſ', by decide, hkey⟩, ?_⟩
    obtain ⟨rest, hrest⟩ := hkey
    rw [← isBoundary_map_toUpper, ← hrest, isBoundary_headersKey_iff hst (by decide), not_or]
    exact ⟨hne, by decide⟩
  · rintro ⟨hword, hcut⟩
    obtain ⟨st, hst, x, hx, hkey⟩ := prefix_requestHeaders_iff.mp hword
    have hfront := hkey
    obtain ⟨rest, hrest⟩ := hkey
    rw [← isBoundary_map_toUpper, ← hrest, isBoundary_headersKey_iff hst hx, not_or] at hcut
    obtain rfl : x = 'ſ' := (List.mem_pair.mp hx).resolve_left hcut.2
    exact ⟨st, hst, hcut.1, hfront⟩

/-- The slice behind `TX:` does not fail. -/
theorem isBoundary_tx (h : "TX:".toList <+: toUppercase s) : IsBoundary s 3 := by
  obtain ⟨a, t, rfl, ha, ht⟩ := prefix_toUppercase_plain
    (w := "TX".toList) (forall_mem_of_all (by decide)) (by decide : ':'.toNat < 0x80) h
  obtain ⟨t, rfl, -⟩ := prefix_toUppercase_colon ht
  rw [← isBoundary_map_toUpper, List.map_append, ha, List.map_cons]
  exact ⟨"TX:".toList, t.map Char.toUpper, rfl, by decide⟩

/-- **Exactly when a variable panics.** -/
theorem exists_parseVariable_iff :
    (∃ var, parseVariable part = .ok var) ↔ ¬ CutsHeaderName (variableName part) := by
  rw [cutsHeaderName_iff, not_and, not_not, ← exists_sliceFrom_iff]
  -- the other words with a colon do not start like this one
  have hother : ∀ w ∈ ["TX:".toList, "XML:".toList], w <+: toUppercase (variableName part) →
      ¬ "REQUEST_HEADERS:".toList <+: toUppercase (variableName part) := by
    have hwords : ∀ w ∈ ["TX:".toList, "XML:".toList],
        ¬ w <+: "REQUEST_HEADERS:".toList ∧ ¬ "REQUEST_HEADERS:".toList <+: w := by decide
    intro w hw hpre hword
    rcases List.prefix_or_prefix_of_prefix hpre hword with h | h
    · exact (hwords w hw).1 h
    · exact (hwords w hw).2 h
  have hcase := variableCase part
  generalize parseVariable part = r at hcase ⊢
  cases hcase with
  | @known var hmem =>
    have htable : ∀ e ∈ knownVariables, ¬ "REQUEST_HEADERS:".toList <+: e.1 := by decide
    exact iff_of_true ⟨var, rfl⟩ fun hword => absurd hword (htable _ hmem)
  | header hword =>
    rw [exists_map_ok_iff]
    exact ⟨fun h _ => h, fun h => h hword⟩
  | tx htx =>
    have hslice := exists_sliceFrom_iff.mpr (isBoundary_tx htx)
    exact iff_of_true (exists_map_ok_iff.mpr hslice) fun hword =>
      absurd hword (hother _ (by simp) htx)
  | xml hxml =>
    exact iff_of_true ⟨_, rfl⟩ fun hword => absurd hword (hother _ (by simp) hxml)
  | unknown _ hheader _ _ => exact iff_of_true ⟨_, rfl⟩ fun hword => absurd hword hheader

theorem exists_parseVariables_iff {varsStr : Str} :
    (∃ vars, parseVariables varsStr = .ok vars) ↔
      ∀ part ∈ varsStr.splitOn '|', ¬ CutsHeaderName (variableName (trim part)) := by
  rw [parseVariables, exists_mapM_ok_iff]
  exact forall₂_congr fun part _ => exists_parseVariable_iff

end Variables

/-! ### Files -/

/-- **A rule line is taken apart without a panic.** -/
theorem exists_secruleFields (input : Str) : ∃ fields, secruleFields input = .ok fields := by
  rw [secruleFields]
  cases hopen : findLastQuotedBlockStart (trim input) with
  | none => exact ⟨none, rfl⟩
  | some actionsOpen =>
    obtain ⟨before, actionsStr, hbefore, hbehind⟩ := sliceTo_quotedBlock hopen
    simp only [hbefore, hbehind, bind, Except.bind]
    cases hclose : findClosingQuote actionsStr with
    | none => exact ⟨none, rfl⟩
    | some actionsEnd =>
      obtain ⟨actionsRaw, hinside⟩ := sliceTo_closingQuote hclose
      simp only [hinside]
      cases splitFirstWs (trim before) with
      | none => exact ⟨none, rfl⟩
      | some parts => exact ⟨some (parts.1, parts.2, actionsRaw), rfl⟩

/-- A line without fields says what it says without a panic. -/
theorem exists_classify_of_none {line : Str} (h : lineFields line = .ok none) :
    ∃ said, classify line = .ok said := by
  rw [classify]
  by_cases hsilent : trim line = [] ∨ (trim line).head? = some '#'
  · exact ⟨none, if_pos hsilent⟩
  · rw [if_neg hsilent]
    cases stripPrefix "SecMarker".toList (trim line) with
    | some rest => exact ⟨_, rfl⟩
    | none =>
      rw [lineFields] at h
      cases hrest : stripPrefix "SecRule".toList (trim line) with
      | none => exact ⟨_, rfl⟩
      | some rest =>
        simp only [hrest] at h
        have hrule : parseSecrule (trim rest) = .ok none := by
          rw [parseSecrule_eq, h]
          rfl
        simp only [hrule]
        exact ⟨_, rfl⟩

/-- A line panics exactly when its variables do. -/
theorem exists_classify_iff {line : Str} : (∃ said, classify line = .ok said) ↔
    ∀ varsStr opStr actionsRaw, lineFields line = .ok (some (varsStr, opStr, actionsRaw)) →
      ∃ vars, parseVariables varsStr = .ok vars := by
  have hfields : ∃ fields, lineFields line = .ok fields := by
    rw [lineFields]
    cases stripPrefix "SecRule".toList (trim line) with
    | none => exact ⟨none, rfl⟩
    | some rest => exact exists_secruleFields (trim rest)
  obtain ⟨_ | ⟨varsStr, opStr, actionsRaw⟩, hfields⟩ := hfields
  · refine iff_of_true (exists_classify_of_none hfields) fun _ _ _ h => ?_
    rw [hfields] at h
    cases h
  · rw [classify_of_fields hfields, exists_map_ok_iff]
    constructor
    · intro hvars varsStr' opStr' actionsRaw' h
      rw [hfields] at h
      cases h
      exact hvars
    · intro h
      exact h _ _ _ hfields

theorem exists_directives_iff {ls : List Str} : (∃ ds, directives ls = .ok ds) ↔
    ∀ line ∈ ls, ∃ said, classify line = .ok said := by
  induction ls with
  | nil => exact iff_of_true ⟨[], rfl⟩ (List.forall_mem_nil _)
  | cons line ls ih =>
    rw [directives, List.forall_mem_cons, ← ih]
    cases classify line with
    | error e => simp
    | ok said => simp [exists_map_ok_iff]

/-- The file has a rule line with these variables. -/
def HasVariables (text varsStr : Str) : Prop :=
  ∃ line ∈ joinContinuations text, ∃ opStr actionsRaw,
    lineFields line = .ok (some (varsStr, opStr, actionsRaw))

/-- **Exactly when a file panics**: when some part of some variables field spells both `S` of
`REQUEST_HEADERS:` outside ASCII. -/
theorem exists_parseStrSliced_iff (text : Str) :
    (∃ rules, parseStrSliced text = .ok rules) ↔
      ∀ varsStr, HasVariables text varsStr → ∀ part ∈ varsStr.splitOn '|',
        ¬ CutsHeaderName (variableName (trim part)) := by
  rw [parseStrSliced_eq, parseStr_eq, exists_map_ok_iff, exists_directives_iff]
  simp only [exists_classify_iff, exists_parseVariables_iff]
  constructor
  · rintro h varsStr ⟨line, hline, opStr, actionsRaw, hfields⟩
    exact h line hline varsStr opStr actionsRaw hfields
  · intro h line hline varsStr opStr actionsRaw hfields
    exact h varsStr ⟨line, hline, opStr, actionsRaw, hfields⟩

/-- A rule for one header, with two long s. -/
def longSText : Str := "SecRule REQUEſT_HEADERſ:x \"@rx a\" \"id:1\"".toList

/-- It makes the parser panic. -/
theorem parse_longSText_panics : ¬ ∀ text, ∃ rules, parseStrSliced text = .ok rules := by
  intro h
  obtain ⟨rules, hrules⟩ := h longSText
  have hfail : (parseStrSliced longSText).isOk = false := by decide
  rw [hrules] at hfail
  cases hfail

end Crs

end Fywaf
