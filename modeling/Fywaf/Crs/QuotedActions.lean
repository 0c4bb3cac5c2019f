import Fywaf.Crs.ActionEffects

/-!
# Quoted action values

The value of an action may be written bare or in single quotes, but no action reads both alike.
`id`, `phase`, `t` and `skipAfter` take the quotes as part of the value; `msg`, `tag`, `severity`
and `setvar` are passed over when the value is bare. So the quotes matter, unless another action
of the kind or a default makes up for it.

## Main definitions

* `Crs.ActionName` — the actions with a value
* `Crs.ActionName.bareEffect`, `Crs.ActionName.quotedEffect` — what they do, by how they are written
* `Crs.QuotesHarmless` — something makes up for the quotes

## Main results

* `Crs.sameRule_iff` — exactly when both ways of writing make the same rule
-/

namespace Fywaf

namespace Crs

/-! ### Ways of writing -/

/-- The actions with a value. -/
inductive ActionName
  | id
  | phase
  | msg
  | tag
  | severity
  | setvar
  | skipAfter
  | t

/-- The name as it is written. -/
def ActionName.key : ActionName → Str
  | .id => "id".toList
  | .phase => "phase".toList
  | .msg => "msg".toList
  | .tag => "tag".toList
  | .severity => "severity".toList
  | .setvar => "setvar".toList
  | .skipAfter => "skipAfter".toList
  | .t => "t".toList

/-- The action with its value. -/
def ActionName.write (name : ActionName) (quoting : Quoting) (v : Str) : Str :=
  name.key ++ ':' :: quoting.write v

/-- No quotes, commas or backslashes, and no white space at the ends. -/
structure IsActionValue (v : Str) : Prop where
  plain : ∀ c ∈ v, IsPlainChar c
  clean : CleanEnds isWhitespace v

/-- ASCII blanks. -/
def IsAsciiBlank (s : Str) : Prop := IsBlank s ∧ IsAscii s

/-- The bare value as it is read: byte by byte, and trimmed with the action at its end. -/
def bareValue (v : Str) : Str := trimEndMatches isWhitespace (bytewise v)

/-- What an action does with what is behind its colon. -/
def ActionName.read (x : Str) : ActionName → Effect
  | .id => .id (idValue x)
  | .phase => .phase (parsePhase (trim x))
  | .skipAfter => .skipAfter (trim x)
  | .t => .transform (parseTransform x)
  | .msg => (((quotedValue "msg".toList ("msg".toList ++ ':' :: x)).map Effect.msg).or none).getD
      .nothing
  | .tag => (((quotedValue "tag".toList ("tag".toList ++ ':' :: x)).map Effect.tag).or none).getD
      .nothing
  | .severity => (((quotedValue "severity".toList ("severity".toList ++ ':' :: x)).map fun val =>
      Effect.severity (parseSeverity val)).or none).getD .nothing
  | .setvar => ((openValue "setvar".toList ("setvar".toList ++ ':' :: x)).map fun val =>
      Effect.score (extractAnomalyScore val)).getD .nothing

/-- What the action does with a bare value. -/
def ActionName.bareEffect (w : Str) : ActionName → Effect
  | .id => .id (idValue w)
  | .phase => .phase (parsePhase (trim w))
  | .skipAfter => .skipAfter (trim w)
  | .t => .transform (parseTransform w)
  | .msg | .tag | .severity | .setvar => .nothing

/-- What the action does with a value in single quotes. -/
def ActionName.quotedEffect (w : Str) : ActionName → Effect
  | .id => .id 0
  | .phase => .phase .two
  | .skipAfter => .skipAfter ('\'' :: (w ++ ['\'']))
  | .t => .transform (parseTransform ('\'' :: (w ++ ['\''])))
  | .msg => .msg w
  | .tag => .tag w
  | .severity => .severity (parseSeverity w)
  | .setvar => .score (extractAnomalyScore (w ++ ['\'']))

section Effects

variable {key w : Str}

theorem IsPlainChar.ne_of_mem {c d : Char} (hc : IsPlainChar c) (hd : d ∈ ['\'', '"', ',', '\\']) :
    c ≠ d := by
  rintro rfl
  exact hc hd

theorem IsPlainChar.ne_quote {c : Char} (hc : IsPlainChar c) : c ≠ '\'' :=
  hc.ne_of_mem (by decide)

/-- A value that does not start with the quote is not behind the prefix with the quote. -/
theorem stripPrefix_quote {q : Char} (hw : ∀ c ∈ w.head?, c ≠ q) :
    stripPrefix (key ++ [':', q]) (key ++ ':' :: w) = none := by
  rw [Option.eq_none_iff_forall_ne_some]
  intro val hval
  have heq := stripPrefix_eq_some_iff.mp hval
  rw [List.append_assoc, List.append_cancel_left_eq, List.cons_append, List.cons.injEq] at heq
  exact hw q (by rw [heq.2]; rfl) rfl

theorem quotedValue_bare (hw : ∀ c ∈ w.head?, IsPlainChar c) :
    quotedValue key (key ++ ':' :: w) = none := by
  rw [quotedValue, stripPrefix_quote fun c hc => (hw c hc).ne_quote,
    stripPrefix_quote fun c hc => (hw c hc).ne_of_mem (by decide)]
  rfl

theorem openValue_bare (hw : ∀ c ∈ w.head?, IsPlainChar c) :
    openValue key (key ++ ':' :: w) = none := by
  rw [openValue, stripPrefix_quote fun c hc => (hw c hc).ne_quote,
    stripPrefix_quote fun c hc => (hw c hc).ne_of_mem (by decide)]
  rfl

/-- An action is read by its name. -/
theorem effect_key (x : Str) (name : ActionName) : effect (name.key ++ ':' :: x) = name.read x := by
  cases name with
  | id => exact (rfl : effect ("id".toList ++ ':' :: x) = _)
  | phase => exact (rfl : effect ("phase".toList ++ ':' :: x) = _)
  | msg => exact (rfl : effect ("msg".toList ++ ':' :: x) = _)
  | tag => exact (rfl : effect ("tag".toList ++ ':' :: x) = _)
  | severity => exact (rfl : effect ("severity".toList ++ ':' :: x) = _)
  | setvar => exact (rfl : effect ("setvar".toList ++ ':' :: x) = _)
  | skipAfter => exact (rfl : effect ("skipAfter".toList ++ ':' :: x) = _)
  | t => exact (rfl : effect ("t".toList ++ ':' :: x) = _)

/-- **A bare value** is read by four of the actions, and the others are passed over. -/
theorem effect_bare (hw : ∀ c ∈ w.head?, IsPlainChar c) (name : ActionName) :
    effect (name.key ++ ':' :: w) = name.bareEffect w := by
  rw [effect_key]
  cases name with
  | id | phase | skipAfter | t => rfl
  | msg | tag | severity => rw [ActionName.read, quotedValue_bare hw]; rfl
  | setvar => rw [ActionName.read, openValue_bare hw]; rfl

theorem quotedValue_quoted (hw : ∀ c ∈ w, c ≠ '\'') :
    quotedValue key (key ++ ':' :: '\'' :: (w ++ ['\''])) = some w := by
  have hpre : stripPrefix (key ++ [':', '\'']) (key ++ ':' :: '\'' :: (w ++ ['\''])) =
      some (w ++ ['\'']) := stripPrefix_eq_some_iff.mpr (by simp)
  have hend : trimEndMatches (· == '\'') (w ++ ['\'']) = trimEndMatches (· == '\'') w :=
    trimEndMatches_append_blank fun c hc => by simpa using hc
  simp only [quotedValue, hpre]
  rw [hend, trimEndMatches_of_forall fun c hc => by simpa using hw c hc]

theorem openValue_quoted (w : Str) :
    openValue key (key ++ ':' :: '\'' :: (w ++ ['\''])) = some (w ++ ['\'']) := by
  have hpre : stripPrefix (key ++ [':', '\'']) (key ++ ':' :: '\'' :: (w ++ ['\''])) =
      some (w ++ ['\'']) := stripPrefix_eq_some_iff.mpr (by simp)
  rw [openValue, hpre]
  rfl

/-- A quote does not start a number. -/
theorem idValue_quote (x : Str) : idValue ('\'' :: x) = 0 := rfl

/-- **A value in quotes** is read by four of the actions, and the others take the quotes as part
of it. -/
theorem effect_quoted (hw : ∀ c ∈ w, c ≠ '\'') (name : ActionName) :
    effect (name.key ++ ':' :: '\'' :: (w ++ ['\''])) = name.quotedEffect w := by
  have htrim : trim ('\'' :: (w ++ ['\''])) = '\'' :: (w ++ ['\'']) :=
    trimMatches_of_cleanEnds (cleanEnds_quoted (by decide) w)
  rw [effect_key]
  cases name with
  | id => exact congrArg Effect.id (idValue_quote _)
  | phase => rw [ActionName.read, htrim]; rfl
  | skipAfter => rw [ActionName.read, htrim]; rfl
  | t => rfl
  | msg | tag | severity => rw [ActionName.read, quotedValue_quoted hw]; rfl
  | setvar => rw [ActionName.read, openValue_quoted]; rfl

end Effects

/-! ### The action among others -/

section Tokens

variable {v left right : Str}

/-- The bytes of a plain text are plain. -/
theorem isPlainChar_of_mem_bytewise (hv : ∀ c ∈ v, IsPlainChar c) {c : Char}
    (hc : c ∈ bytewise v) : IsPlainChar c := by
  intro hmem
  have hascii : ∀ d ∈ ['\'', '"', ',', '\\'], d.toNat < 0x80 := forall_mem_of_all (by decide)
  exact hv c (mem_of_mem_bytewise (hascii c hmem) hc) hmem

/-- The keys are ASCII words. -/
theorem key_spec (name : ActionName) : IsAscii name.key ∧ name.key ≠ [] ∧
    (∀ c ∈ name.key, isWhitespace c = false) ∧ ∀ c ∈ name.key, IsPlainChar c := by
  cases name <;>
    exact ⟨by decide, by decide, forall_mem_of_all (by decide), forall_mem_of_all (by decide)⟩

/-- The action as it is read, its value being `w`. -/
theorem trim_write (hleft : IsAsciiBlank left) (hright : IsAsciiBlank right) (name : ActionName)
    (w : Str) : trim (bytewise (left ++ (name.key ++ ':' :: w ++ right))) =
      name.key ++ ':' :: trimEndMatches isWhitespace (bytewise w) := by
  obtain ⟨hascii, hne, hblank, -⟩ := key_spec name
  have hclean : CleanEnds isWhitespace (name.key ++ [':']) := by
    refine cleanEnds_of_forall fun c hc => ?_
    rcases List.mem_append.mp hc with hc | hc
    · exact hblank c hc
    · rw [List.mem_singleton.mp hc]
      decide
  have hbytes : bytewise (left ++ (name.key ++ ':' :: w ++ right)) =
      left ++ ((name.key ++ [':']) ++ (bytewise w ++ right)) := by
    simp only [bytewise_append, bytewise_of_isAscii hleft.2, bytewise_of_isAscii hright.2,
      bytewise_of_isAscii hascii, bytewise_cons_ascii (show ':'.toNat < 0x80 by decide),
      List.append_assoc, List.cons_append, List.nil_append]
  have hback : (bytewise w ++ right).rdropWhile isWhitespace =
      trimEndMatches isWhitespace (bytewise w) := trimEndMatches_append_blank hright.1
  rw [hbytes, trim, trimMatches_word hclean (by simp) hleft.1, hback, List.append_assoc,
    List.singleton_append]

/-- **What the action does, bare.** -/
theorem effect_write_bare (hv : IsActionValue v) (hleft : IsAsciiBlank left)
    (hright : IsAsciiBlank right) (name : ActionName) :
    effect (trim (bytewise (left ++ (name.write .bare v ++ right)))) =
      name.bareEffect (bareValue v) := by
  rw [ActionName.write, Quoting.write, trim_write hleft hright]
  refine effect_bare (fun c hc => ?_) name
  have hmem : c ∈ bytewise v :=
    (List.rdropWhile_prefix isWhitespace (bytewise v)).subset (List.mem_of_mem_head? hc)
  exact isPlainChar_of_mem_bytewise hv.plain hmem

/-- **What the action does, in quotes.** -/
theorem effect_write_single (hv : IsActionValue v) (hleft : IsAsciiBlank left)
    (hright : IsAsciiBlank right) (name : ActionName) :
    effect (trim (bytewise (left ++ (name.write .single v ++ right)))) =
      name.quotedEffect (bytewise v) := by
  have hquote : '\''.toNat < 0x80 := by decide
  have hkeep : trimEndMatches isWhitespace ('\'' :: (bytewise v ++ ['\''])) =
      '\'' :: (bytewise v ++ ['\'']) := by
    rw [trimEndMatches, ← List.cons_append]
    exact List.rdropWhile_concat_neg isWhitespace _ _ (by decide)
  rw [ActionName.write, Quoting.write, trim_write hleft hright, bytewise_cons_ascii hquote,
    bytewise_append, bytewise_cons_ascii hquote, bytewise_nil, hkeep]
  exact effect_quoted (fun c hc => (isPlainChar_of_mem_bytewise hv.plain hc).ne_quote) name

theorem IsAsciiBlank.isPlainChar (h : IsAsciiBlank left) : ∀ c ∈ left, IsPlainChar c := by
  intro c hc hmem
  have hblank : ∀ d ∈ ['\'', '"', ',', '\\'], isWhitespace d = false :=
    forall_mem_of_all (by decide)
  exact absurd (h.1 c hc) (by rw [hblank c hmem]; decide)

/-- The front of the action, up to its value, is plain. -/
theorem isPlainChar_front (hleft : IsAsciiBlank left) (name : ActionName) :
    ∀ c ∈ left ++ (name.key ++ [':']), IsPlainChar c := by
  obtain ⟨-, -, -, hkey⟩ := key_spec name
  intro c hc
  rcases List.mem_append.mp hc with hc | hc
  · exact hleft.isPlainChar c hc
  rcases List.mem_append.mp hc with hc | hc
  · exact hkey c hc
  · rw [List.mem_singleton.mp hc]
    unfold IsPlainChar
    decide

/-- The action is read whole, however its value is written. -/
theorem actionList_write (hv : IsActionValue v) (hleft : IsAsciiBlank left)
    (hright : IsAsciiBlank right) (name : ActionName) {quoting : Quoting}
    (hquoting : quoting ≠ .double) (t : Str) :
    actionList (left ++ (name.write quoting v ++ right) ++ t) =
      actionsFrom false false (left ++ (name.write quoting v ++ right)) t := by
  have hfront := isPlainChar_front hleft name
  have hback := hright.isPlainChar
  cases quoting with
  | bare =>
    have hall : ∀ c ∈ left ++ (name.write .bare v ++ right), IsPlainChar c := by
      intro c hc
      have hassoc : left ++ (name.write .bare v ++ right) =
          left ++ (name.key ++ [':']) ++ (v ++ right) := by
        simp [ActionName.write, Quoting.write]
      rw [hassoc] at hc
      rcases List.mem_append.mp hc with hc | hc
      · exact hfront c hc
      rcases List.mem_append.mp hc with hc | hc
      · exact hv.plain c hc
      · exact hback c hc
    exact actionsFrom_plain hall [] t
  | single =>
    have hassoc : left ++ (name.write .single v ++ right) ++ t =
        left ++ (name.key ++ [':']) ++ '\'' :: (v ++ '\'' :: (right ++ t)) := by
      simp [ActionName.write, Quoting.write]
    have hquote : ∀ (inSingle : Bool) current s,
        actionsFrom inSingle false current ('\'' :: s) =
          actionsFrom (!inSingle) false (current ++ ['\'']) s := by
      intro inSingle current s
      rw [actionsFrom_cons (by decide), if_pos ⟨rfl, rfl⟩]
    rw [hassoc, actionList, actionsFrom_plain hfront, hquote, actionsFrom_plain hv.plain, hquote,
      actionsFrom_plain hback]
    simp [ActionName.write, Quoting.write]
  | double => exact absurd rfl hquoting

/-- What a list of actions does that has the action in it. -/
theorem ofActions_write {p q : Str} (hv : IsActionValue v) (hleft : IsAsciiBlank left)
    (hright : IsAsciiBlank right) (name : ActionName) (quoting : Quoting)
    (hquoting : quoting ≠ .double) (hp : EndsAction p) (hq : q = [] ∨ ∃ u, q = ',' :: u) :
    Effects.ofActions (actionList (p ++ (left ++ (name.write quoting v ++ right)) ++ q)) =
      Effects.ofActions (actionList p) ++
        effect (trim (bytewise (left ++ (name.write quoting v ++ right)))) ::
          Effects.ofActions (actionList q.tail) := by
  have hne : left ++ (name.write quoting v ++ right) ≠ [] := by simp [ActionName.write]
  rw [List.append_assoc, actionList_append hp,
    actionList_cons hne (actionList_write hv hleft hright name hquoting) hq, Effects.ofActions,
    List.map_append, List.map_cons]
  rfl

end Tokens

/-! ### When the quotes do not matter -/

/-- Something makes up for the quotes around the value `v`, given what the actions in front and
behind do: a later action of the kind, a default, or an earlier action that says the same. -/
def QuotesHarmless (v : Str) (before after : List Effect) : ActionName → Prop
  | .id => Effects.written Effect.id? after ≠ [] ∨ idValue (bareValue v) = 0
  | .phase => Effects.written Effect.phase? after ≠ [] ∨ parsePhase (trim (bareValue v)) = .two
  | .skipAfter => Effects.written Effect.skipAfter? after ≠ []
  | .msg => Effects.written Effect.msg? after ≠ [] ∨
      (Effects.written Effect.msg? before).getLast? = some (bytewise v)
  | .severity => Effects.written Effect.severity? after ≠ [] ∨
      (Effects.written Effect.severity? before).getLast?.getD none = parseSeverity (bytewise v)
  | .setvar => Effects.written Effect.score? before ≠ [] ∨
      extractAnomalyScore (bytewise v ++ ['\'']) = none ∨
      extractAnomalyScore (bytewise v ++ ['\'']) = (Effects.written Effect.score? after).head?
  | .tag | .t => False

section Lists

variable {α : Type} {ys : List α} {x y : α}

/-- What stands in for the last element matters only when there is none. -/
theorem getD_getLast?_iff : ys.getLast?.getD x = ys.getLast?.getD y ↔ ys ≠ [] ∨ x = y := by
  cases hlast : ys.getLast? with
  | none => simp [List.getLast?_eq_none_iff.mp hlast]
  | some z =>
    have hne : ys ≠ [] := by
      rintro rfl
      cases hlast
    simp [hne]

end Lists

section Contexts

variable {v : Str} {before after : List Effect}

/-- The quotes stay in the target of a jump. -/
theorem trim_bareValue_ne (hv : IsActionValue v) (w : Str) : trim (bareValue v) ≠ '\'' :: w := by
  intro h
  have hmem : '\'' ∈ trim (bareValue v) := by
    rw [h]
    exact List.mem_cons_self
  have hbytes : '\'' ∈ bytewise v :=
    (List.rdropWhile_prefix isWhitespace _).subset ((trim_isInfix _).subset hmem)
  exact (isPlainChar_of_mem_bytewise hv.plain hbytes).ne_quote rfl

/-- No other byte has a lower case that starts with the quote. -/
theorem head?_charToLowercase {b : UInt8} (hb : byteChar b ≠ '\'') :
    ∃ c, (charToLowercase (byteChar b)).head? = some c ∧ c ≠ '\'' := by
  have hall : ∀ n ∈ List.range 256, Char.ofNat n ≠ '\'' →
      (charToLowercase (Char.ofNat n)).head?.any (· ≠ '\'') = true := by decide +kernel
  have hany := hall b.toNat (List.mem_range.mpr b.toNat_lt) hb
  cases hhead : (charToLowercase (byteChar b)).head? with
  | none =>
    rw [show charToLowercase (Char.ofNat b.toNat) = charToLowercase (byteChar b) from rfl,
      hhead] at hany
    cases hany
  | some c =>
    rw [show charToLowercase (Char.ofNat b.toNat) = charToLowercase (byteChar b) from rfl,
      hhead] at hany
    exact ⟨c, rfl, of_decide_eq_true hany⟩

/-- In lower case a text of bytes without the quote does not start with it. -/
theorem head?_toLowercase_bytes {w : Str} (hw : ∀ c ∈ w, ∃ b, c = byteChar b ∧ c ≠ '\'') :
    (toLowercase w).head? ≠ some '\'' := by
  cases w with
  | nil => exact fun h => Option.some_ne_none _ h.symm
  | cons c w =>
    obtain ⟨b, rfl, hb⟩ := hw c List.mem_cons_self
    obtain ⟨d, hd, hne⟩ := head?_charToLowercase hb
    have hsigma : byteChar b ≠ 'Σ' := by
      intro h
      have hlt := b.toNat_lt
      rw [← toNat_byteChar, h] at hlt
      exact absurd hlt (by decide)
    rw [toLowercase, toLowercaseAfter, if_neg hsigma, List.head?_append, hd]
    exact fun h => hne (Option.some.inj h)

/-- A name with a quote in front is the name of no transform. -/
theorem parseTransform_quote (w : Str) :
    ∃ name, parseTransform ('\'' :: w) = .other ('\'' :: name) :=
  ⟨toLowercaseAfter ['\''] w, rfl⟩

/-- The quotes stay in the name of a transform. -/
theorem parseTransform_quoted_ne (hv : IsActionValue v) (w : Str) :
    parseTransform (bareValue v) ≠ parseTransform ('\'' :: w) := by
  obtain ⟨name, hname⟩ := parseTransform_quote w
  have hbytes : ∀ c ∈ bareValue v, ∃ b, c = byteChar b ∧ c ≠ '\'' := by
    intro c hc
    have hmem : c ∈ bytewise v := (List.rdropWhile_prefix isWhitespace _).subset hc
    obtain ⟨b, -, hb⟩ := List.mem_map.mp hmem
    exact ⟨b, hb.symm, (isPlainChar_of_mem_bytewise hv.plain hmem).ne_quote⟩
  have hhead := head?_toLowercase_bytes hbytes
  rw [hname, parseTransform]
  intro h
  split_ifs at h
  rw [Transform.other.inj h] at hhead
  exact hhead rfl

/-- The result, field by field, with one effect in the middle. -/
theorem actions_append_cons (before after : List Effect) (e : Effect) :
    Effects.actions (before ++ e :: after) =
      { transforms := Effects.written Effect.transform? before ++ (e.transform?.toList ++
          Effects.written Effect.transform? after)
        id := (Effects.written Effect.id? after).getLast?.getD
          (e.id?.getD ((Effects.written Effect.id? before).getLast?.getD 0))
        phase := (Effects.written Effect.phase? after).getLast?.getD
          (e.phase?.getD ((Effects.written Effect.phase? before).getLast?.getD .two))
        action := (Effects.written Effect.action? after).getLast?.getD
          (e.action?.getD ((Effects.written Effect.action? before).getLast?.getD .pass))
        msg := (Effects.written Effect.msg? after).getLast?.or
          (e.msg?.or (Effects.written Effect.msg? before).getLast?)
        tags := Effects.written Effect.tag? before ++ (e.tag?.toList ++
          Effects.written Effect.tag? after)
        severity := (Effects.written Effect.severity? after).getLast?.getD
          (e.severity?.getD ((Effects.written Effect.severity? before).getLast?.getD none))
        skipAfter := (Effects.written Effect.skipAfter? after).getLast?.or
          (e.skipAfter?.or (Effects.written Effect.skipAfter? before).getLast?)
        anomalyScore := (Effects.written Effect.score? before).head?.or
          (e.score?.or (Effects.written Effect.score? after).head?)
        isChain := before.any Effect.isChain || (e.isChain || after.any Effect.isChain) } := by
  have hlast : ∀ {α : Type} (o : Option α), o.toList.getLast? = o := fun o => by cases o <;> rfl
  simp only [Effects.actions, Effects.written_append, Effects.written_cons, List.getLast?_append,
    List.head?_append, Option.head?_toList, hlast, Option.or_assoc, Option.getD_or, List.any_append,
    List.any_cons]

/-- **When the quotes do not matter**, among the effects of other actions. -/
theorem actions_eq_iff (hv : IsActionValue v) (name : ActionName) :
    Effects.actions (before ++ name.bareEffect (bareValue v) :: after) =
      Effects.actions (before ++ name.quotedEffect (bytewise v) :: after) ↔
        QuotesHarmless v before after name := by
  rw [actions_append_cons, actions_append_cons]
  cases name with
  | id => simp [ActionName.bareEffect, ActionName.quotedEffect, QuotesHarmless, getD_getLast?_iff]
  | phase => simp [ActionName.bareEffect, ActionName.quotedEffect,
      QuotesHarmless, getD_getLast?_iff]
  | skipAfter =>
    have hne := trim_bareValue_ne hv (bytewise v ++ ['\''])
    simp [ActionName.bareEffect, ActionName.quotedEffect, QuotesHarmless,
      getD_getLast?_iff, hne]
  | t =>
    have hne := parseTransform_quoted_ne hv (bytewise v ++ ['\''])
    simp [ActionName.bareEffect, ActionName.quotedEffect, QuotesHarmless, hne]
  | msg =>
    cases hlast : (Effects.written Effect.msg? after).getLast? with
    | none => simp [ActionName.bareEffect, ActionName.quotedEffect, QuotesHarmless,
        List.getLast?_eq_none_iff.mp hlast]
    | some s =>
      have hne : Effects.written Effect.msg? after ≠ [] := by
        intro h
        rw [h] at hlast
        cases hlast
      simp [ActionName.bareEffect, ActionName.quotedEffect, QuotesHarmless, hne]
  | tag => simp [ActionName.bareEffect, ActionName.quotedEffect, QuotesHarmless]
  | severity => simp [ActionName.bareEffect, ActionName.quotedEffect,
      QuotesHarmless, getD_getLast?_iff]
  | setvar =>
    cases hscore : extractAnomalyScore (bytewise v ++ ['\'']) with
    | none => simp [ActionName.bareEffect, ActionName.quotedEffect, QuotesHarmless, hscore]
    | some n =>
      cases hfirst : Effects.written Effect.score? before with
      | nil => simp [ActionName.bareEffect, ActionName.quotedEffect, QuotesHarmless, hscore,
          hfirst, eq_comm]
      | cons m ns => simp [ActionName.bareEffect, ActionName.quotedEffect, QuotesHarmless,
          hfirst]

end Contexts

/-! ### Rules -/

/-- Rules with the same variables and operator are the same when their actions say the same. -/
theorem buildRule_eq_iff {vars : List Variable} {opStr actionsRaw actionsRaw' : Str} :
    buildRule vars opStr actionsRaw = buildRule vars opStr actionsRaw' ↔
      parseActions actionsRaw = parseActions actionsRaw' := by
  constructor
  · intro h
    simp only [buildRule, Prod.mk.injEq, Rule.mk.injEq] at h
    obtain ⟨⟨hid, hphase, -, -, htransforms, haction, hmsg, htags, hseverity, -, hskip, hscore, -⟩,
      hchain⟩ := h
    generalize parseActions actionsRaw = acts at *
    generalize parseActions actionsRaw' = acts' at *
    cases acts
    cases acts'
    simp_all
  · intro h
    rw [buildRule, buildRule, h]

/-- **Exactly when both ways of writing make the same rule**: two lines that differ in the quotes
around one action value, in any context of other actions. -/
theorem sameRule_iff {name : ActionName} {v p q left right input input' varsStr opStr : Str}
    {r r' : Rule × Bool} (hv : IsActionValue v) (hp : EndsAction p)
    (hq : q = [] ∨ ∃ u, q = ',' :: u) (hleft : IsAsciiBlank left) (hright : IsAsciiBlank right)
    (hfields : secruleFields input =
      .ok (some (varsStr, opStr, p ++ (left ++ (name.write .bare v ++ right)) ++ q)))
    (hfields' : secruleFields input' =
      .ok (some (varsStr, opStr, p ++ (left ++ (name.write .single v ++ right)) ++ q)))
    (hrule : parseSecrule input = .ok (some r)) (hrule' : parseSecrule input' = .ok (some r')) :
    r = r' ↔ QuotesHarmless v (Effects.ofActions (actionList p))
      (Effects.ofActions (actionList q.tail)) name := by
  obtain ⟨_, _, _, vars, hread, hvars, rfl⟩ := parseSecrule_eq_some_iff.mp hrule
  cases hfields.symm.trans hread
  obtain ⟨_, _, _, vars', hread', hvars', rfl⟩ := parseSecrule_eq_some_iff.mp hrule'
  cases hfields'.symm.trans hread'
  cases hvars.symm.trans hvars'
  rw [buildRule_eq_iff, parseActions_eq, parseActions_eq,
    ofActions_write hv hleft hright name .bare nofun hp hq,
    ofActions_write hv hleft hright name .single nofun hp hq, effect_write_bare hv hleft hright,
    effect_write_single hv hleft hright, actions_eq_iff hv]

/-- A rule with a tag for its level, bare or in quotes. -/
def levelBody (quoting : Quoting) : Str :=
  "ARGS \"@rx a\" \"id:1,".toList ++
    (ActionName.tag.write quoting "paranoia-level/2".toList ++ ['"'])

/-- The level of the rule is lost without the quotes. -/
theorem bare_level_lost : ¬ ∀ (name : ActionName)
    (v p q left right input input' varsStr opStr : Str) (r r' : Rule × Bool),
    IsActionValue v → EndsAction p → (q = [] ∨ ∃ u, q = ',' :: u) →
    IsAsciiBlank left → IsAsciiBlank right →
    secruleFields input =
      .ok (some (varsStr, opStr, p ++ (left ++ (name.write .bare v ++ right)) ++ q)) →
    secruleFields input' =
      .ok (some (varsStr, opStr, p ++ (left ++ (name.write .single v ++ right)) ++ q)) →
    parseSecrule input = .ok (some r) → parseSecrule input' = .ok (some r') → r = r' := by
  intro h
  have hbare : (parseSecrule (levelBody .bare)).toOption.map
      (Option.map fun r => r.1.paranoiaLevel) = some (some 0) := by decide +kernel
  have hquoted : (parseSecrule (levelBody .single)).toOption.map
      (Option.map fun r => r.1.paranoiaLevel) = some (some 2) := by decide +kernel
  obtain ⟨said, hsaid, hlevel⟩ := map_toOption_eq_some_iff.mp hbare
  obtain ⟨r, rfl, hr⟩ := Option.map_eq_some_iff.mp hlevel
  obtain ⟨said', hsaid', hlevel'⟩ := map_toOption_eq_some_iff.mp hquoted
  obtain ⟨r', rfl, hr'⟩ := Option.map_eq_some_iff.mp hlevel'
  have hv : IsActionValue "paranoia-level/2".toList :=
    ⟨forall_mem_of_all (by decide), cleanEnds_of_forall (forall_mem_of_all (by decide))⟩
  have hp : EndsAction "id:1,".toList := Or.inr ⟨"id:1".toList, by decide, by decide⟩
  have hblank : IsAsciiBlank [] := ⟨by simp [IsBlank], by simp [IsAscii]⟩
  have heq := h .tag "paranoia-level/2".toList "id:1,".toList [] [] [] (levelBody .bare)
    (levelBody .single) "ARGS".toList "\"@rx a\"".toList r r' hv hp (Or.inl rfl) hblank hblank
    (toOption_eq_some_iff.mp (by decide)) (toOption_eq_some_iff.mp (by decide))
    hsaid hsaid'
  rw [heq, hr'] at hr
  exact absurd hr (by decide)

/-- A rule with two ids, the first of them bare or in quotes. -/
def twoIdsBody (quoting : Quoting) : Str :=
  "ARGS \"@rx a\" \"".toList ++ (ActionName.id.write quoting ['7'] ++ ",id:8\"".toList)

/-- The quotes around the first id do not matter. -/
theorem first_id_harmless : ∃ r, parseSecrule (twoIdsBody .bare) = .ok (some r) ∧
    parseSecrule (twoIdsBody .single) = .ok (some r) := by
  have hbare : (parseSecrule (twoIdsBody .bare)).toOption.map (Option.map fun r => r.1.id) =
      some (some 8) := by decide +kernel
  have hquoted : (parseSecrule (twoIdsBody .single)).toOption.map (Option.map fun r => r.1.id) =
      some (some 8) := by decide +kernel
  obtain ⟨said, hsaid, hid⟩ := map_toOption_eq_some_iff.mp hbare
  obtain ⟨r, rfl, -⟩ := Option.map_eq_some_iff.mp hid
  obtain ⟨said', hsaid', hid'⟩ := map_toOption_eq_some_iff.mp hquoted
  obtain ⟨r', rfl, -⟩ := Option.map_eq_some_iff.mp hid'
  have hv : IsActionValue ['7'] :=
    ⟨forall_mem_of_all (by decide), cleanEnds_of_forall (forall_mem_of_all (by decide))⟩
  have hblank : IsAsciiBlank [] := ⟨by simp [IsBlank], by simp [IsAscii]⟩
  have heq := (@sameRule_iff .id ['7'] [] ",id:8".toList [] [] (twoIdsBody .bare)
    (twoIdsBody .single) "ARGS".toList "\"@rx a\"".toList r r' hv (Or.inl rfl)
    (Or.inr ⟨"id:8".toList, rfl⟩) hblank hblank (toOption_eq_some_iff.mp (by decide))
    (toOption_eq_some_iff.mp (by decide)) hsaid hsaid').mpr
      (Or.inl (fun h => by cases h))
  exact ⟨r, hsaid, heq ▸ hsaid'⟩

end Crs

end Fywaf
