import Fywaf.Crs.QuotedActions
import Fywaf.Crs.WrittenLine

/-!
# Actions in print

A list of effects, written as the actions of a rule. Values that may hold blanks and commas stand in
single quotes, the others stand bare; a value is written so that it ends where it is meant to end.

## Main definitions

* `Crs.Effect.write`, `Crs.writeActions` — the text of an effect, and of a list of them

## Main results

* `Crs.parseActions_write` — actions are read as they are written
-/

namespace Fywaf

namespace Crs

/-! ### Values -/

def Phase.write : Phase → Str
  | .one => ['1']
  | .two => ['2']
  | .three => ['3']
  | .four => ['4']
  | .five => ['5']

def Severity.write : Severity → Str
  | .emergency => "EMERGENCY".toList
  | .alert => "ALERT".toList
  | .critical => "CRITICAL".toList
  | .error => "ERROR".toList
  | .warning => "WARNING".toList
  | .notice => "NOTICE".toList
  | .info => "INFO".toList
  | .debug => "DEBUG".toList

/-- The name of a transform; its case does not matter. -/
def Transform.write : Transform → Str
  | .lowercase => "lowercase".toList
  | .urlDecodeUni => "urldecodeuni".toList
  | .htmlEntityDecode => "htmlentitydecode".toList
  | .jsDecode => "jsdecode".toList
  | .cssDecode => "cssdecode".toList
  | .removeNulls => "removenulls".toList
  | .removeWhitespace => "removewhitespace".toList
  | .compressWhitespace => "compresswhitespace".toList
  | .utf8toUnicode => "utf8tounicode".toList
  | .none => "none".toList
  | .other name => name

/-- The transforms that the parser knows, in lower case. -/
def knownTransforms : List Str :=
  ["lowercase".toList, "urldecodeuni".toList, "htmlentitydecode".toList, "jsdecode".toList,
    "cssdecode".toList, "removenulls".toList, "removewhitespace".toList,
    "compresswhitespace".toList, "utf8tounicode".toList, "none".toList]

/-- The variable that a score is known by. -/
def scoreName (n : UInt32) : Str :=
  if n = 5 then "tx.critical_anomaly_score".toList
  else if n = 4 then "tx.error_anomaly_score".toList
  else if n = 3 then "tx.warning_anomaly_score".toList
  else "tx.notice_anomaly_score".toList

/-! ### Actions -/

/-- An effect as it is written. -/
def Effect.write : Effect → Str
  | .id n => ActionName.id.write .bare (decimal n.toNat)
  | .phase p => ActionName.phase.write .bare p.write
  | .action .block => "block".toList
  | .action .pass => "pass".toList
  | .chain => "chain".toList
  | .msg s => ActionName.msg.write .single s
  | .tag s => ActionName.tag.write .single s
  | .transform t => ActionName.t.write .bare t.write
  | .severity s => ActionName.severity.write .single (s.elim [] Severity.write)
  | .skipAfter s => ActionName.skipAfter.write .bare s
  | .score n => ActionName.setvar.write .single (n.elim [] scoreName)
  | .nothing => "nolog".toList

/-- Actions with commas between. -/
def writeActions (es : List Effect) : Str := [','].intercalate (es.map Effect.write)

/-- A bare value. Actions are read byte by byte, so it is ASCII. -/
def IsBareValue (s : Str) : Prop :=
  ∀ c ∈ s, c.toNat < 0x80 ∧ isWhitespace c = false ∧ c ∉ ['\'', '"', ',', '\\']

/-- A value in single quotes, on one line. -/
def IsQuotedValue (s : Str) : Prop := ∀ c ∈ s, c.toNat < 0x80 ∧ c ∉ ['\'', '"', '\\', '\n']

/-- The transform is known, or its name is in lower case and none of the known ones. -/
def Transform.Writable : Transform → Prop
  | .other name => IsBareValue name ∧ toLowercase name = name ∧ name ∉ knownTransforms
  | _ => True

/-- The texts of the effect are ASCII and end where they should, and scores have names. -/
def Effect.Writable : Effect → Prop
  | .msg s | .tag s => IsQuotedValue s
  | .transform t => t.Writable
  | .skipAfter s => IsBareValue s
  | .score n => ∀ score ∈ n, score ∈ [5, 4, 3, 2]
  | _ => True

/-- A text that is read as one action, wherever it stands. -/
structure IsAction (token : Str) : Prop where
  ne_nil : token ≠ []
  ascii : IsAscii token
  clean : CleanEnds isWhitespace token
  whole : ∀ t, actionList (token ++ t) = actionsFrom false false token t
  /-- It does not end the field or the line. -/
  inside : ∀ c ∈ token, c ∉ ['"', '\\', '\n']

section Tokens

variable {name : ActionName} {v token : Str}

theorem IsBareValue.inside (hv : IsBareValue v) : ∀ c ∈ v, c ∉ ['"', '\\', '\n'] := by
  intro c hc hmem
  obtain ⟨-, hblank, hplain⟩ := hv c hc
  simp only [List.mem_cons, List.not_mem_nil, or_false] at hmem hplain
  rcases hmem with rfl | rfl | rfl
  · exact hplain (by simp)
  · exact hplain (by simp)
  · exact absurd hblank (by decide)

theorem isAction_bare (hne : token ≠ []) (hbare : IsBareValue token) : IsAction token where
  ne_nil := hne
  ascii c hc := (hbare c hc).1
  clean := cleanEnds_of_forall fun c hc => (hbare c hc).2.1
  whole t := actionsFrom_plain (fun c hc => (hbare c hc).2.2) [] t
  inside := hbare.inside

theorem isBareValue_of_all
    (h : (v.all fun c => decide (c.toNat < 0x80 ∧ isWhitespace c = false ∧
      c ∉ ['\'', '"', ',', '\\'])) = true) : IsBareValue v :=
  forall_mem_of_all h

/-- The name with its colon. -/
theorem isBareValue_key (name : ActionName) : IsBareValue (name.key ++ [':']) := by
  cases name <;> exact isBareValue_of_all (by decide)

theorem isAction_write_bare (name : ActionName) (hv : IsBareValue v) :
    IsAction (name.write .bare v) := by
  have hwrite : name.write .bare v = (name.key ++ [':']) ++ v := by
    simp [ActionName.write, Quoting.write]
  rw [hwrite]
  exact isAction_bare (by simp) (List.forall_mem_append.mpr ⟨isBareValue_key name, hv⟩)

/-- Text in single quotes belongs to the action. -/
theorem actionsFrom_inSingle (hv : ∀ c ∈ v, c ≠ '\'' ∧ c ≠ '\\') (current t : Str) :
    actionsFrom true false current (v ++ t) = actionsFrom true false (current ++ v) t := by
  induction v generalizing current with
  | nil => rw [List.nil_append, List.append_nil]
  | cons c v ih =>
    obtain ⟨⟨hquote, hescape⟩, hv⟩ := List.forall_mem_cons.mp hv
    rw [List.cons_append, actionsFrom_cons hescape, if_neg fun h => hquote h.1,
      if_neg fun h => absurd h.2 (by decide), if_neg fun h => absurd h.2.1 (by decide), ih hv,
      List.append_assoc, List.singleton_append]

theorem isAction_write_single (name : ActionName) (hv : IsQuotedValue v) :
    IsAction (name.write .single v) := by
  have hkey := isBareValue_key name
  have hwrite : name.write .single v = (name.key ++ [':']) ++ ('\'' :: (v ++ ['\''])) := by
    simp [ActionName.write, Quoting.write]
  have hinner : ∀ c ∈ v, c ≠ '\'' ∧ c ≠ '\\' := by
    intro c hc
    have hplain := (hv c hc).2
    simp only [List.mem_cons, List.not_mem_nil, or_false, not_or] at hplain
    exact ⟨hplain.1, hplain.2.2.1⟩
  have hquotes : ∀ {p : Char → Prop}, p '\'' → (∀ c ∈ name.key ++ [':'], p c) →
      (∀ c ∈ v, p c) → ∀ c ∈ (name.key ++ [':']) ++ ('\'' :: (v ++ ['\''])), p c := by
    intro p hp hk hv
    refine List.forall_mem_append.mpr ⟨hk, List.forall_mem_cons.mpr ⟨hp, ?_⟩⟩
    exact List.forall_mem_append.mpr ⟨hv, List.forall_mem_singleton.mpr hp⟩
  rw [hwrite]
  constructor
  · simp
  · exact hquotes (by decide) (fun c hc => (hkey c hc).1) fun c hc => (hv c hc).1
  · refine cleanEnds_append (by simp) (by simp)
      (fun c hc => (hkey c (List.mem_of_mem_head? hc)).2.1) fun c hc => ?_
    rw [← List.cons_append, List.getLast?_concat] at hc
    obtain rfl := Option.some.inj hc
    decide
  · intro t
    have hopen : ∀ current s : Str, actionsFrom false false current ('\'' :: s) =
        actionsFrom true false (current ++ ['\'']) s := fun current s => by
      rw [actionsFrom_cons (by decide), if_pos ⟨rfl, rfl⟩]
      rfl
    have hclose : ∀ current s : Str, actionsFrom true false current ('\'' :: s) =
        actionsFrom false false (current ++ ['\'']) s := fun current s => by
      rw [actionsFrom_cons (by decide), if_pos ⟨rfl, rfl⟩]
      rfl
    rw [actionList, List.append_assoc, actionsFrom_plain (fun c hc => (hkey c hc).2.2),
      List.cons_append, hopen, List.append_assoc v, actionsFrom_inSingle hinner,
      List.singleton_append, hclose]
    simp
  · exact hquotes (by decide) hkey.inside fun c hc hmem => (hv c hc).2 (List.mem_cons_of_mem _ hmem)

end Tokens

/-! ### What the actions do -/

/-- A transform is read as it is written. -/
theorem parseTransform_write {t : Transform} (h : t.Writable) : parseTransform t.write = t := by
  cases t with
  | other name =>
    obtain ⟨-, hlower, hknown⟩ := h
    have hne : ∀ w ∈ knownTransforms, ¬ name = w := fun w hw heq => hknown (heq ▸ hw)
    simp only [knownTransforms, List.forall_mem_cons] at hne
    obtain ⟨h₁, h₂, h₃, h₄, h₅, h₆, h₇, h₈, h₉, h₁₀, -⟩ := hne
    rw [parseTransform, show toLowercase (Transform.other name).write = name from hlower,
      if_neg h₁, if_neg h₂, if_neg h₃, if_neg h₄, if_neg h₅, if_neg h₆, if_neg h₇,
      if_neg h₈, if_neg h₉, if_neg h₁₀]
  | _ => decide

/-- The number that an id is read as. -/
theorem idValue_decimal (n : UInt32) : idValue (decimal n.toNat) = n := by
  rw [idValue, parseUnsigned_decimal n.toNat_lt, Option.map_some, Option.getD_some,
    UInt32.ofNat_toNat]

/-- Digits are a bare value. -/
theorem isBareValue_decimal (n : ℕ) : IsBareValue (decimal n) := by
  have hdigit : ∀ {c : Char}, c.isDigit = true →
      c.toNat < 0x80 ∧ isWhitespace c = false ∧ c ∉ ['\'', '"', ',', '\\'] := by
    intro c hc
    have hrange := isDigit_iff.mp hc
    refine ⟨by omega, isWhitespace_of_toDigit (toDigit_ten hc), ?_⟩
    simp only [List.mem_cons, List.not_mem_nil, or_false, not_or]
    refine ⟨?_, ?_, ?_, ?_⟩ <;> rintro rfl <;> exact absurd hc (by decide)
  exact fun c hc => hdigit (decimal_digits hc)

section Effects

variable {e : Effect} {es : List Effect}

/-- **An effect in print is one action.** -/
theorem Effect.Writable.isAction (h : e.Writable) : IsAction e.write := by
  cases e with
  | id n => exact isAction_write_bare .id (isBareValue_decimal n.toNat)
  | phase p =>
    refine isAction_write_bare .phase ?_
    cases p <;> exact isBareValue_of_all (by decide)
  | action a =>
    cases a <;> exact isAction_bare (by decide) (isBareValue_of_all (by decide))
  | chain => exact isAction_bare (by decide) (isBareValue_of_all (by decide))
  | msg s => exact isAction_write_single .msg h
  | tag s => exact isAction_write_single .tag h
  | transform t =>
    refine isAction_write_bare .t ?_
    cases t with
    | other name => exact h.1
    | _ => exact isBareValue_of_all (by decide)
  | severity s =>
    refine isAction_write_single .severity ?_
    rcases s with _ | _ | _ | _ | _ | _ | _ | _ | _ <;> exact forall_mem_of_all (by decide)
  | skipAfter s => exact isAction_write_bare .skipAfter h
  | score n =>
    refine isAction_write_single .setvar ?_
    cases n with
    | none => exact forall_mem_of_all (by decide)
    | some n =>
      have hname : ∀ n : UInt32, IsQuotedValue (scoreName n) := by
        intro n
        unfold scoreName
        split_ifs <;> exact forall_mem_of_all (by decide)
      exact hname n
  | nothing => exact isAction_bare (by decide) (isBareValue_of_all (by decide))

/-- **An effect in print is read as the effect.** -/
theorem effect_write (h : e.Writable) : effect e.write = e := by
  have hquote : ∀ {s : Str}, IsQuotedValue s → ∀ c ∈ s, c ≠ '\'' := by
    rintro s hs _ hc rfl
    exact (hs _ hc).2 (by decide)
  cases e with
  | id n => exact (effect_key _ .id).trans (congrArg Effect.id (idValue_decimal n))
  | phase p => cases p <;> rfl
  | action a => cases a <;> rfl
  | chain => rfl
  | msg s => exact effect_quoted (hquote h) .msg
  | tag s => exact effect_quoted (hquote h) .tag
  | transform t =>
    exact (effect_key _ .t).trans (congrArg Effect.transform (parseTransform_write h))
  | severity s =>
    have hread : parseSeverity (s.elim [] Severity.write) = s := by
      rcases s with _ | _ | _ | _ | _ | _ | _ | _ | _ <;> decide
    have hplain : ∀ c ∈ s.elim [] Severity.write, c ≠ '\'' := by
      rcases s with _ | _ | _ | _ | _ | _ | _ | _ | _ <;> exact forall_mem_of_all (by decide)
    exact (effect_quoted hplain .severity).trans (congrArg Effect.severity hread)
  | skipAfter s =>
    have htrim : trim s = s :=
      trimMatches_of_cleanEnds (cleanEnds_of_forall fun c hc => (h c hc).2.1)
    exact (effect_key _ .skipAfter).trans (congrArg Effect.skipAfter htrim)
  | score n =>
    have hread : extractAnomalyScore (n.elim [] scoreName ++ ['\'']) = n ∧
        ∀ c ∈ n.elim [] scoreName, c ≠ '\'' := by
      cases n with
      | none => exact ⟨by decide, forall_mem_of_all (by decide)⟩
      | some n =>
        have hmem := h n rfl
        simp only [List.mem_cons, List.not_mem_nil, or_false] at hmem
        rcases hmem with rfl | rfl | rfl | rfl <;>
          exact ⟨by decide, forall_mem_of_all (by decide)⟩
    exact (effect_quoted hread.2 .setvar).trans (congrArg Effect.score hread.1)
  | nothing => rfl

/-- Actions are taken apart where they were joined. -/
theorem actionList_join {tokens : List Str} (h : ∀ token ∈ tokens, IsAction token) :
    actionList ([','].intercalate tokens) = tokens := by
  induction tokens with
  | nil => rfl
  | cons token tokens ih =>
    obtain ⟨htoken, hrest⟩ := List.forall_mem_cons.mp h
    cases tokens with
    | nil =>
      have hlast := actionList_cons htoken.ne_nil htoken.whole (Or.inl rfl)
      rw [List.append_nil] at hlast
      rw [List.intercalate_singleton, hlast]
      rfl
    | cons token' tokens =>
      have hfirst := actionList_cons htoken.ne_nil htoken.whole
        (Or.inr ⟨[','].intercalate (token' :: tokens), rfl⟩)
      rw [List.intercalate_cons_cons, List.append_assoc, List.singleton_append, hfirst,
        List.tail_cons, ih hrest]

/-- **Actions are read as they are written.** -/
theorem parseActions_write (h : ∀ e ∈ es, e.Writable) :
    parseActions (writeActions es) = Effects.actions es := by
  have hactions : ∀ token ∈ es.map Effect.write, IsAction token :=
    List.forall_mem_map.mpr fun e he => (h e he).isAction
  have hread : ∀ e ∈ es, effect (trim (bytewise e.write)) = e := by
    intro e he
    have haction := (h e he).isAction
    rw [bytewise_of_isAscii haction.ascii, show trim e.write = e.write from
      trimMatches_of_cleanEnds haction.clean, effect_write (h e he)]
  have hlist : Effects.ofActions (es.map Effect.write) = es := by
    rw [Effects.ofActions, List.map_map]
    exact (List.map_congr_left hread).trans (List.map_id es)
  rw [parseActions_eq, writeActions, actionList_join hactions, hlist]

/-- The actions end neither their field nor their line. -/
theorem inside_writeActions (h : ∀ e ∈ es, e.Writable) :
    ∀ c ∈ writeActions es, c ∉ ['"', '\\', '\n'] :=
  forall_mem_intercalate (forall_mem_of_all (by decide))
    (List.forall_mem_map.mpr fun e he => (h e he).isAction.inside)

/-- They can stand in their quotes. -/
theorem actionsText_writeActions (h : ∀ e ∈ es, e.Writable) : ActionsText (writeActions es) := by
  have hplain : ∀ c ∈ writeActions es, c ≠ '\\' ∧ c ≠ '"' := by
    intro c hc
    have hinside := inside_writeActions h c hc
    simp only [List.mem_cons, List.not_mem_nil, or_false, not_or] at hinside
    exact ⟨hinside.2.1, hinside.1⟩
  have happend := (QuotedBody.append_iff (l := []) hplain).mpr QuotedBody.nil
  rwa [List.append_nil] at happend

end Effects

end Crs

end Fywaf
