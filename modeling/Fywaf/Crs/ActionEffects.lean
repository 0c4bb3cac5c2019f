import Fywaf.Crs.SkipTargets

/-!
# What actions do

The actions of a rule are read one after another, each overwriting or adding to one field of the
result. So a list of actions is as good as the list of what they do, and each field of the result
can be read off that list: most fields have the value that was written last.

## Main definitions

* `Crs.Effect`, `Crs.effect` — what an action does
* `Crs.Effects.actions` — the result of a list of effects, field by field
* `Crs.openQuotes`, `Crs.EndsAction` — where a comma separates actions

## Main results

* `Crs.parseActions_eq` — the actions of a rule in terms of what they do
* `Crs.actionList_append` — actions are read separately where a comma separates them
-/

namespace Fywaf

namespace Crs

/-! ### Effects -/

/-- What an action does. -/
inductive Effect
  | id (n : UInt32)
  | phase (p : Phase)
  | action (a : Action)
  | chain
  | msg (s : Str)
  | tag (s : Str)
  | transform (t : Transform)
  | severity (s : Option Severity)
  | skipAfter (s : Str)
  | score (n : Option UInt32)
  | nothing

/-- The actions that are a word and nothing else. -/
def wordEffect (token : Str) : Option Effect :=
  if token = "block".toList ∨ token = "deny".toList then some (.action .block)
  else if token = "pass".toList ∨ token = "allow".toList then some (.action .pass)
  else if token = "chain".toList then some .chain
  else none

/-- What a trimmed action does. -/
def effect (token : Str) : Effect :=
  (((stripPrefix "id:".toList token).map fun val => Effect.id (idValue val)).or <|
    ((stripPrefix "phase:".toList token).map fun val => Effect.phase (parsePhase (trim val))).or <|
    (wordEffect token).or <|
    ((quotedValue "msg".toList token).map Effect.msg).or <|
    ((quotedValue "tag".toList token).map Effect.tag).or <|
    ((stripPrefix "t:".toList token).map fun val => Effect.transform (parseTransform val)).or <|
    ((quotedValue "severity".toList token).map fun val => Effect.severity (parseSeverity val)).or <|
    ((stripPrefix "skipAfter:".toList token).map fun val => Effect.skipAfter (trim val)).or <|
    (openValue "setvar".toList token).map fun val => Effect.score (extractAnomalyScore val)).getD
      .nothing

/-- One effect. -/
def Actions.apply (acc : Actions) : Effect → Actions
  | .id n => { acc with id := n }
  | .phase p => { acc with phase := p }
  | .action a => { acc with action := a }
  | .chain => { acc with isChain := true }
  | .msg s => { acc with msg := some s }
  | .tag s => { acc with tags := acc.tags ++ [s] }
  | .transform t => { acc with transforms := acc.transforms ++ [t] }
  | .severity s => { acc with severity := s }
  | .skipAfter s => { acc with skipAfter := some s }
  | .score n => { acc with anomalyScore := acc.anomalyScore.or n }
  | .nothing => acc

/-- Reading an action is doing what it does. -/
theorem applyAction_eq (acc : Actions) (token : Str) :
    applyAction acc token = acc.apply (effect (trim token)) := by
  rw [applyAction, effect]
  generalize trim token = token
  by_cases hempty : token = []
  · subst hempty
    rfl
  rw [if_neg hempty]
  cases stripPrefix "id:".toList token with
  | some val => rfl
  | none => ?_
  cases stripPrefix "phase:".toList token with
  | some val => rfl
  | none => ?_
  rw [wordEffect]
  by_cases hblock : token = "block".toList ∨ token = "deny".toList
  · simp only [if_pos hblock]
    rfl
  by_cases hpass : token = "pass".toList ∨ token = "allow".toList
  · simp only [if_neg hblock, if_pos hpass]
    rfl
  by_cases hchain : token = "chain".toList
  · simp only [if_neg hblock, if_neg hpass, if_pos hchain]
    rfl
  simp only [if_neg hblock, if_neg hpass, if_neg hchain]
  cases quotedValue "msg".toList token with
  | some val => rfl
  | none => ?_
  cases quotedValue "tag".toList token with
  | some val => rfl
  | none => ?_
  cases stripPrefix "t:".toList token with
  | some val => rfl
  | none => ?_
  cases quotedValue "severity".toList token with
  | some val => rfl
  | none => ?_
  cases stripPrefix "skipAfter:".toList token with
  | some val => rfl
  | none => ?_
  cases openValue "setvar".toList token <;> rfl

/-! ### Lists of effects -/

@[simp] def Effect.id? : Effect → Option UInt32
  | .id n => some n
  | _ => none

@[simp] def Effect.phase? : Effect → Option Phase
  | .phase p => some p
  | _ => none

@[simp] def Effect.action? : Effect → Option Action
  | .action a => some a
  | _ => none

@[simp] def Effect.isChain : Effect → Bool
  | .chain => true
  | _ => false

@[simp] def Effect.msg? : Effect → Option Str
  | .msg s => some s
  | _ => none

@[simp] def Effect.tag? : Effect → Option Str
  | .tag s => some s
  | _ => none

@[simp] def Effect.transform? : Effect → Option Transform
  | .transform t => some t
  | _ => none

@[simp] def Effect.severity? : Effect → Option (Option Severity)
  | .severity s => some s
  | _ => none

@[simp] def Effect.skipAfter? : Effect → Option Str
  | .skipAfter s => some s
  | _ => none

@[simp] def Effect.score? : Effect → Option UInt32
  | .score n => n
  | _ => none

/-- What a list of effects writes to one field, in order. -/
def Effects.written {α : Type} (read : Effect → Option α) (es : List Effect) : List α :=
  es.filterMap read

theorem Effects.written_append {α : Type} (read : Effect → Option α) (es es' : List Effect) :
    Effects.written read (es ++ es') = Effects.written read es ++ Effects.written read es' :=
  List.filterMap_append

theorem Effects.written_cons {α : Type} (read : Effect → Option α) (e : Effect)
    (es : List Effect) :
    Effects.written read (e :: es) = (read e).toList ++ Effects.written read es := by
  rw [Effects.written, List.filterMap_cons]
  cases read e <;> rfl

/-- The result of a list of effects: what was written last, except that tags and transforms are
collected and the first score counts. -/
def Effects.actions (es : List Effect) : Actions where
  transforms := Effects.written Effect.transform? es
  id := (Effects.written Effect.id? es).getLast?.getD 0
  phase := (Effects.written Effect.phase? es).getLast?.getD .two
  action := (Effects.written Effect.action? es).getLast?.getD .pass
  msg := (Effects.written Effect.msg? es).getLast?
  tags := Effects.written Effect.tag? es
  severity := (Effects.written Effect.severity? es).getLast?.getD none
  skipAfter := (Effects.written Effect.skipAfter? es).getLast?
  anomalyScore := (Effects.written Effect.score? es).head?
  isChain := es.any Effect.isChain

/-- One more effect. -/
theorem Effects.actions_concat (es : List Effect) (e : Effect) :
    Effects.actions (es ++ [e]) = (Effects.actions es).apply e := by
  cases e with
  | score n => cases n <;> simp [Effects.actions, Effects.written, Actions.apply]
  | _ => simp [Effects.actions, Effects.written, Actions.apply]

theorem foldl_apply (es : List Effect) : es.foldl Actions.apply .init = Effects.actions es := by
  induction es using List.reverseRecOn with
  | nil => rfl
  | append_singleton es e ih => rw [List.foldl_append, ih, Effects.actions_concat]; rfl

/-- What the actions of a list do. -/
def Effects.ofActions (actions : List Str) : List Effect :=
  actions.map fun action => effect (trim (bytewise action))

/-- **The actions of a rule in terms of what they do.** -/
theorem parseActions_eq (actionsRaw : Str) :
    parseActions actionsRaw = Effects.actions (Effects.ofActions (actionList actionsRaw)) := by
  have hstep : applyAction = fun acc token => acc.apply (effect (trim token)) := by
    funext acc token
    exact applyAction_eq acc token
  rw [parseActions, splitActions_eq, Effects.ofActions, ← foldl_apply, List.foldl_map,
    List.foldl_map, hstep]

/-! ### Where actions end -/

/-- The quotes that are open behind a text, if it does not end inside an escape. -/
def openQuotes : Bool → Bool → Str → Option (Bool × Bool)
  | inSingle, inDouble, [] => some (inSingle, inDouble)
  | inSingle, inDouble, c :: rest =>
    if c = '\'' ∧ !inDouble then openQuotes (!inSingle) inDouble rest
    else if c = '"' ∧ !inSingle then openQuotes inSingle (!inDouble) rest
    else if c = '\\' then
      match rest with
      | [] => none
      | _ :: rest => openQuotes inSingle inDouble rest
    else openQuotes inSingle inDouble rest

/-- A comma behind the text separates actions. -/
def SplitsAfter (s : Str) : Prop := openQuotes false false s = some (false, false)

instance (s : Str) : Decidable (SplitsAfter s) := inferInstanceAs (Decidable (_ = _))

/-- The text is empty, or ends with a comma that separates actions. -/
def EndsAction (s : Str) : Prop := s = [] ∨ ∃ t, s = t ++ [','] ∧ SplitsAfter t

section Scan

variable {inSingle inDouble : Bool} {s t : Str}

/-- What is read of a text does not depend on what is behind it, once the quotes are known. -/
theorem actionsFrom_append {inSingle' inDouble' : Bool} (current : Str)
    (h : openQuotes inSingle inDouble s = some (inSingle', inDouble')) :
    ∃ done current', ∀ t, actionsFrom inSingle inDouble current (s ++ t) =
      done ++ actionsFrom inSingle' inDouble' current' t := by
  fun_induction openQuotes inSingle inDouble s generalizing current with
  | case1 inSingle inDouble =>
    cases h
    exact ⟨[], current, fun t => rfl⟩
  | case2 inSingle inDouble c rest hquote ih =>
    obtain ⟨done, current', hread⟩ := ih (current ++ [c]) h
    exact ⟨done, current', fun t => by
      rw [List.cons_append, actionsFrom_cons (by rw [hquote.1]; decide), if_pos hquote, hread]⟩
  | case3 inSingle inDouble c rest hnot hquote ih =>
    obtain ⟨done, current', hread⟩ := ih (current ++ [c]) h
    exact ⟨done, current', fun t => by
      rw [List.cons_append, actionsFrom_cons (by rw [hquote.1]; decide), if_neg hnot,
        if_pos hquote, hread]⟩
  | case4 => cases h
  | case5 inSingle inDouble d rest hnot hnot' ih =>
    obtain ⟨done, current', hread⟩ := ih (current ++ ['\\', d]) h
    exact ⟨done, current', fun t => by
      rw [List.cons_append, List.cons_append, actionsFrom_escape, hread]⟩
  | case6 inSingle inDouble c rest hnot hnot' hescape ih =>
    by_cases hcomma : c = ',' ∧ !inSingle ∧ !inDouble
    · obtain ⟨done, current', hread⟩ := ih [] h
      exact ⟨current :: done, current', fun t => by
        rw [List.cons_append, actionsFrom_cons hescape, if_neg hnot, if_neg hnot',
          if_pos hcomma, hread, List.cons_append]⟩
    · obtain ⟨done, current', hread⟩ := ih (current ++ [c]) h
      exact ⟨done, current', fun t => by
        rw [List.cons_append, actionsFrom_cons hescape, if_neg hnot, if_neg hnot',
          if_neg hcomma, hread]⟩

theorem actionsFrom_comma (current s : Str) :
    actionsFrom false false current (',' :: s) = current :: actionList s := by
  rw [actionsFrom_cons (by decide), if_neg fun h => absurd h.1 (by decide),
    if_neg fun h => absurd h.1 (by decide), if_pos ⟨rfl, rfl, rfl⟩, actionList]

/-- **Actions are read separately where a comma separates them.** -/
theorem actionList_append (hs : EndsAction s) (t : Str) :
    actionList (s ++ t) = actionList s ++ actionList t := by
  rcases hs with rfl | ⟨s, rfl, hs⟩
  · rfl
  · obtain ⟨done, current, hread⟩ := actionsFrom_append [] hs
    have hcut : ∀ t, actionList (s ++ ',' :: t) = done ++ current :: actionList t := by
      intro t
      rw [actionList, hread, actionsFrom_comma]
    rw [List.append_assoc, List.singleton_append, hcut, hcut, List.append_assoc,
      List.cons_append]
    rfl

/-- One action and what is behind its comma, if there is one. -/
theorem actionList_cons {action : Str} (haction : action ≠ [])
    (hread : ∀ t, actionList (action ++ t) = actionsFrom false false action t)
    (ht : t = [] ∨ ∃ u, t = ',' :: u) :
    actionList (action ++ t) = action :: actionList t.tail := by
  rw [hread]
  rcases ht with rfl | ⟨u, rfl⟩
  · rw [actionsFrom, if_neg haction]
    rfl
  · rw [actionsFrom_comma, List.tail_cons]

end Scan

end Crs

end Fywaf
