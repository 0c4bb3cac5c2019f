import Fywaf.Crs.ActionEffects

/-!
# Actions as tokens

`split_actions` cuts the actions of a rule at the commas that separate them. Put together again
with commas the tokens are the text, but for a comma at its end, and no token has a comma left
that separates actions. The bytes of a character outside ASCII, however, become characters of
their own.

## Main definitions

* `Crs.withoutFinalComma` — the text without a comma at its end that separates actions
* `Crs.IsToken` — no comma in the text separates actions
* `Crs.LosesNothing` — the tokens are the text, cut where a comma separates actions

## Main results

* `Crs.intercalate_actionList` — read character by character, the actions are the text
* `Crs.isToken_of_mem_splitActions` — no token can be cut further
* `Crs.losesNothing_iff` — exactly which texts are kept
-/

namespace Fywaf

namespace Crs

/-- The text without a comma at its end that separates actions, given the quotes that are open in
front of it. -/
def dropFinalComma (inSingle inDouble : Bool) (s : Str) : Str :=
  if s.getLast? = some ',' ∧ openQuotes inSingle inDouble s.dropLast = some (false, false) then
    s.dropLast
  else s

/-- The text without a comma at its end that separates actions. -/
def withoutFinalComma (s : Str) : Str := dropFinalComma false false s

/-- No comma in the text separates actions. -/
def IsToken (s : Str) : Prop := ∀ a b, s = a ++ ',' :: b → ¬ SplitsAfter a

/-- The tokens are the text, cut where a comma separates actions. -/
structure LosesNothing (s : Str) : Prop where
  join : List.intercalate [','] (splitActions s) = withoutFinalComma s
  tokens : ∀ token ∈ splitActions s, IsToken token

/-! ### Open quotes -/

section Quotes

variable {inSingle inDouble inSingle' inDouble' : Bool} {c : Char} {s : Str}

theorem openQuotes_cons (hc : c ≠ '\\') (s : Str) :
    openQuotes inSingle inDouble (c :: s) =
      if c = '\'' ∧ !inDouble then openQuotes (!inSingle) inDouble s
      else if c = '"' ∧ !inSingle then openQuotes inSingle (!inDouble) s
      else openQuotes inSingle inDouble s := by
  cases s with
  | nil => conv_lhs => rw [openQuotes, if_neg hc]
  | cons d s => conv_lhs => rw [openQuotes, if_neg hc]

theorem openQuotes_escape (c : Char) (s : Str) :
    openQuotes inSingle inDouble ('\\' :: c :: s) = openQuotes inSingle inDouble s := by
  rw [openQuotes, if_neg fun h => absurd h.1 (by decide), if_neg fun h => absurd h.1 (by decide),
    if_pos rfl]

theorem openQuotes_append (h : openQuotes inSingle inDouble s = some (inSingle', inDouble'))
    (t : Str) : openQuotes inSingle inDouble (s ++ t) = openQuotes inSingle' inDouble' t := by
  fun_induction openQuotes inSingle inDouble s with
  | case1 inSingle inDouble =>
    cases h
    rfl
  | case2 inSingle inDouble c rest hquote ih =>
    rw [List.cons_append, openQuotes_cons (by rw [hquote.1]; decide), if_pos hquote, ih h]
  | case3 inSingle inDouble c rest hnot hquote ih =>
    rw [List.cons_append, openQuotes_cons (by rw [hquote.1]; decide), if_neg hnot, if_pos hquote,
      ih h]
  | case4 => cases h
  | case5 inSingle inDouble d rest hnot hnot' ih =>
    rw [List.cons_append, List.cons_append, openQuotes_escape, ih h]
  | case6 inSingle inDouble c rest hnot hnot' hescape ih =>
    rw [List.cons_append, openQuotes_cons hescape, if_neg hnot, if_neg hnot', ih h]

end Quotes

/-! ### Joining -/

section Join

variable {inSingle inDouble inSingle' inDouble' : Bool} {c : Char} {s : Str}

/-- A character that is not the final comma stays. -/
theorem dropFinalComma_cons (hlast : s = [] → ¬ (c = ',' ∧ !inSingle ∧ !inDouble))
    (hopen : ∀ t, openQuotes inSingle inDouble (c :: t) = openQuotes inSingle' inDouble' t) :
    dropFinalComma inSingle inDouble (c :: s) = c :: dropFinalComma inSingle' inDouble' s := by
  cases s with
  | nil =>
    refine if_neg ?_
    rintro ⟨hcomma, hclosed⟩
    obtain ⟨rfl, rfl⟩ := Prod.mk.inj (Option.some.inj hclosed)
    exact hlast rfl ⟨Option.some.inj hcomma, rfl, rfl⟩
  | cons d s =>
    rw [dropFinalComma, dropFinalComma, List.getLast?_cons_cons, List.dropLast_cons_cons, hopen,
      apply_ite (c :: ·)]

/-- The comma that separates actions stays when there is something behind it. -/
theorem dropFinalComma_comma (hs : s ≠ []) :
    dropFinalComma false false (',' :: s) = ',' :: dropFinalComma false false s :=
  dropFinalComma_cons (fun h => absurd h hs) fun t => openQuotes_cons (by decide) t

theorem dropFinalComma_escape (c : Char) (s : Str) :
    dropFinalComma inSingle inDouble ('\\' :: c :: s) =
      '\\' :: c :: dropFinalComma inSingle inDouble s := by
  cases s with
  | nil =>
    refine if_neg ?_
    rintro ⟨-, hclosed⟩
    cases hclosed
  | cons d s =>
    rw [dropFinalComma, dropFinalComma, List.getLast?_cons_cons, List.getLast?_cons_cons,
      List.dropLast_cons_cons, List.dropLast_cons_cons, openQuotes_escape,
      apply_ite (fun t => '\\' :: c :: t)]

/-- There is an action as soon as there is anything to read. -/
theorem actionsFrom_eq_nil_iff (inSingle inDouble : Bool) (current s : Str) :
    actionsFrom inSingle inDouble current s = [] ↔ current = [] ∧ s = [] := by
  fun_induction actionsFrom inSingle inDouble current s with
  | case1 => exact iff_of_true rfl ⟨rfl, rfl⟩
  | case2 inSingle inDouble current hne =>
    exact iff_of_false (List.cons_ne_nil _ _) fun h => hne h.1
  | case5 => exact iff_of_false (List.cons_ne_nil _ _) fun h => List.cons_ne_nil _ _ h.2
  | case7 => exact iff_of_false (List.cons_ne_nil _ _) fun h => List.cons_ne_nil _ _ h.2
  | case3 _ _ current _ _ _ ih => simpa using ih
  | case4 _ _ current _ _ _ _ ih => simpa using ih
  | case6 _ _ current _ _ _ _ ih => simpa using ih
  | case8 _ _ current _ _ _ _ _ _ ih => simpa using ih

theorem intercalate_actionsFrom (inSingle inDouble : Bool) (current s : Str) :
    List.intercalate [','] (actionsFrom inSingle inDouble current s) =
      current ++ dropFinalComma inSingle inDouble s := by
  fun_induction actionsFrom inSingle inDouble current s with
  | case1 inSingle inDouble => rfl
  | case2 inSingle inDouble current hne =>
    rw [List.intercalate_singleton]
    exact (List.append_nil current).symm
  | case3 inSingle inDouble current c rest hquote ih =>
    have hc : c ≠ '\\' := by rw [hquote.1]; decide
    have hopen : ∀ t, openQuotes inSingle inDouble (c :: t) = openQuotes (!inSingle) inDouble t :=
      fun t => by rw [openQuotes_cons hc, if_pos hquote]
    have hplain : ¬ (c = ',' ∧ !inSingle ∧ !inDouble) := by
      rintro ⟨rfl, -⟩
      cases hquote.1
    rw [ih, dropFinalComma_cons (fun _ => hplain) hopen, List.append_assoc]
    rfl
  | case4 inSingle inDouble current c rest hnot hquote ih =>
    have hc : c ≠ '\\' := by rw [hquote.1]; decide
    have hopen : ∀ t, openQuotes inSingle inDouble (c :: t) = openQuotes inSingle (!inDouble) t :=
      fun t => by rw [openQuotes_cons hc, if_neg hnot, if_pos hquote]
    have hplain : ¬ (c = ',' ∧ !inSingle ∧ !inDouble) := by
      rintro ⟨rfl, -⟩
      cases hquote.1
    rw [ih, dropFinalComma_cons (fun _ => hplain) hopen, List.append_assoc]
    rfl
  | case5 inSingle inDouble current hnot hnot' =>
    rw [List.intercalate_singleton]
    rfl
  | case6 inSingle inDouble current d rest hnot hnot' ih =>
    rw [ih, dropFinalComma_escape, List.append_assoc]
    rfl
  | case7 inSingle inDouble current c rest hnot hnot' hescape hcomma ih =>
    obtain ⟨rfl, hsingle, hdouble⟩ := hcomma
    obtain rfl : inSingle = false := by simpa using hsingle
    obtain rfl : inDouble = false := by simpa using hdouble
    by_cases hrest : rest = []
    · subst hrest
      exact (List.append_nil current).symm ▸ List.intercalate_singleton
    · have hmore : actionsFrom false false [] rest ≠ [] :=
        fun h => hrest ((actionsFrom_eq_nil_iff _ _ _ _).mp h).2
      rw [List.intercalate_cons_of_ne_nil hmore, ih, dropFinalComma_comma hrest, List.append_assoc]
      rfl
  | case8 inSingle inDouble current c rest hnot hnot' hescape hcomma ih =>
    have hopen : ∀ t, openQuotes inSingle inDouble (c :: t) = openQuotes inSingle inDouble t :=
      fun t => by rw [openQuotes_cons hescape, if_neg hnot, if_neg hnot']
    rw [ih, dropFinalComma_cons (fun _ => hcomma) hopen, List.append_assoc]
    rfl

/-- **Read character by character, the actions are the text.** -/
theorem intercalate_actionList (s : Str) :
    List.intercalate [','] (actionList s) = withoutFinalComma s :=
  intercalate_actionsFrom false false [] s

end Join

/-! ### Cutting -/

section Cut

variable {inSingle inDouble : Bool} {s : Str}

theorem IsToken.concat {c : Char} (h : IsToken s) (hc : c = ',' → ¬ SplitsAfter s) :
    IsToken (s ++ [c]) := by
  intro a b heq
  induction b using List.reverseRecOn with
  | nil =>
    obtain ⟨rfl, hcomma⟩ := List.append_inj' heq rfl
    exact hc (List.cons.inj hcomma).1
  | append_singleton b d _ =>
    rw [← List.cons_append, ← List.append_assoc] at heq
    exact h a b (List.append_inj' heq rfl).1

/-- No action can be cut further. -/
theorem isToken_of_mem_actionsFrom {current : Str}
    (hopen : openQuotes false false current = some (inSingle, inDouble)) (h : IsToken current) :
    ∀ token ∈ actionsFrom inSingle inDouble current s, IsToken token := by
  have hnil : IsToken [] := fun a b heq => absurd heq (by simp)
  fun_induction actionsFrom inSingle inDouble current s with
  | case1 => exact List.forall_mem_nil _
  | case2 inSingle inDouble current hne => exact List.forall_mem_singleton.mpr h
  | case3 inSingle inDouble current c rest hquote ih =>
    have hc : c ≠ '\\' := by rw [hquote.1]; decide
    refine ih ?_ (h.concat fun hcomma => by rw [hquote.1] at hcomma; cases hcomma)
    rw [openQuotes_append hopen, openQuotes_cons hc, if_pos hquote]
    rfl
  | case4 inSingle inDouble current c rest hnot hquote ih =>
    have hc : c ≠ '\\' := by rw [hquote.1]; decide
    refine ih ?_ (h.concat fun hcomma => by rw [hquote.1] at hcomma; cases hcomma)
    rw [openQuotes_append hopen, openQuotes_cons hc, if_neg hnot, if_pos hquote]
    rfl
  | case5 inSingle inDouble current hnot hnot' =>
    exact List.forall_mem_singleton.mpr (h.concat fun hc => absurd hc (by decide))
  | case6 inSingle inDouble current d rest hnot hnot' ih =>
    have hhidden : ¬ SplitsAfter (current ++ ['\\']) := by
      rw [SplitsAfter, openQuotes_append hopen]
      intro hsplits
      cases hsplits
    have hpair : IsToken (current ++ ['\\'] ++ [d]) :=
      (h.concat fun hc => absurd hc (by decide)).concat fun _ => hhidden
    rw [List.append_assoc] at hpair
    refine ih ?_ hpair
    rw [openQuotes_append hopen, openQuotes_escape]
    rfl
  | case7 inSingle inDouble current c rest hnot hnot' hescape hcomma ih =>
    obtain ⟨rfl, hsingle, hdouble⟩ := hcomma
    obtain rfl : inSingle = false := by simpa using hsingle
    obtain rfl : inDouble = false := by simpa using hdouble
    exact List.forall_mem_cons.mpr ⟨h, ih rfl hnil⟩
  | case8 inSingle inDouble current c rest hnot hnot' hescape hcomma ih =>
    refine ih ?_ (h.concat fun hc hsplits => ?_)
    · rw [openQuotes_append hopen, openQuotes_cons hescape, if_neg hnot, if_neg hnot']
      rfl
    · obtain ⟨rfl, rfl⟩ := Prod.mk.inj (Option.some.inj (hopen.symm.trans hsplits))
      exact hcomma ⟨hc, rfl, rfl⟩

theorem isToken_of_mem_actionList {token : Str} (h : token ∈ actionList s) : IsToken token :=
  isToken_of_mem_actionsFrom rfl (fun a b heq => absurd heq (by simp)) token h

end Cut

/-! ### Byte by byte -/

/-- **No token has a comma left that separates actions**, whatever the text. -/
theorem isToken_of_mem_splitActions {s token : Str} (h : token ∈ splitActions s) :
    IsToken token := by
  rw [splitActions, splitActionsFrom_eq] at h
  exact isToken_of_mem_actionList h

theorem bytewise_intercalate (tokens : List Str) :
    List.intercalate [','] (tokens.map bytewise) = bytewise (List.intercalate [','] tokens) := by
  induction tokens with
  | nil => rfl
  | cons token tokens ih =>
    cases tokens with
    | nil => rw [List.map_singleton, List.intercalate_singleton, List.intercalate_singleton]
    | cons token' tokens =>
      rw [List.map_cons, List.map_cons, List.intercalate_cons_cons, ← List.map_cons, ih,
        List.intercalate_cons_cons, bytewise_append, bytewise_append]
      rfl

/-- Only a comma is left out. -/
theorem isAscii_withoutFinalComma {s : Str} : IsAscii (withoutFinalComma s) ↔ IsAscii s := by
  rw [withoutFinalComma, dropFinalComma]
  split
  · next hcomma =>
    obtain ⟨init, rfl⟩ := List.getLast?_eq_some_iff.mp hcomma.1
    rw [List.dropLast_concat]
    constructor
    · intro h c hc
      rcases List.mem_append.mp hc with hc | hc
      · exact h c hc
      · rw [List.mem_singleton.mp hc]
        decide
    · exact fun h c hc => h c (List.mem_append_left _ hc)
  · exact Iff.rfl

/-- Joined, the tokens are the bytes of the text. -/
theorem intercalate_splitActions (s : Str) :
    List.intercalate [','] (splitActions s) = bytewise (withoutFinalComma s) := by
  rw [splitActions_eq, bytewise_intercalate, intercalate_actionList]

theorem LosesNothing.isAscii {s : Str} (h : LosesNothing s) : IsAscii s := by
  have hkept := (intercalate_splitActions s).symm.trans h.join
  exact isAscii_withoutFinalComma.mp (bytewise_eq_self_iff.mp hkept)

/-- **Exactly which texts are kept**: those without a character outside ASCII. -/
theorem losesNothing_iff {s : Str} : LosesNothing s ↔ IsAscii s := by
  constructor
  · exact LosesNothing.isAscii
  · intro h
    have hkept := bytewise_of_isAscii (isAscii_withoutFinalComma.mpr h)
    exact ⟨(intercalate_splitActions s).trans hkept,
      fun token htoken => isToken_of_mem_splitActions htoken⟩

/-- The accent of a message becomes two characters. -/
theorem accent_lost : ¬ ∀ s : Str, LosesNothing s := by
  intro h
  exact absurd (h "msg:'é'".toList).isAscii (by decide)

end Crs

end Fywaf
