import Mathlib.Logic.Relation
import Fywaf.Crs.Operators
import Fywaf.Crs.Transforms

/-!
# What spacing cannot hide

Three transforms are there so that a rule does not see how a value is spaced. What each of them
does not see is said here in single edits: another run of blanks in the place of one, or a blank, or
a null, more. Two values look the same behind the transform exactly if such edits lead from one to
the other, so nothing is hidden by the edits and nothing else is lost.

## Main definitions

* `Crs.Unseen` — an edit that a transform does not see
* `Crs.LookAlike` — values that no operator tells apart behind a transform

## Main results

* `Crs.eqvGen_iff_of_normal` — normal forms tell exactly the classes apart
* `Crs.lookAlike_iff` — **what a transform does not see**
-/

namespace Fywaf

namespace Crs

/-! ### Normal forms -/

/-- Values are equivalent exactly if their normal forms are equal, when no step changes the normal
form and steps lead to it. -/
theorem eqvGen_iff_of_normal {α : Type} {r : α → α → Prop} {normal : α → α}
    (hstep : ∀ a b, r a b → normal a = normal b) (hnormal : ∀ a, Relation.EqvGen r a (normal a))
    (a b : α) : normal a = normal b ↔ Relation.EqvGen r a b := by
  constructor
  · intro heq
    exact .trans _ _ _ (hnormal a) (heq ▸ (hnormal b).symm)
  · intro h
    induction h with
    | rel a b hab => exact hstep a b hab
    | refl a => rfl
    | symm a b _ ih => exact ih.symm
    | trans a b c _ _ ih ih' => exact ih.trans ih'

/-! ### Edits -/

/-- The transforms that are about spacing. -/
def spacingTransforms : List Transform := [.compressWhitespace, .removeWhitespace, .removeNulls]

/-- An edit that the transform does not see. -/
inductive Unseen : Transform → Str → Str → Prop
  | respaced {blanks blanks' : Str} (front : Str) (hne : blanks ≠ []) (hne' : blanks' ≠ [])
    (hblanks : ∀ c ∈ blanks, isAsciiWhitespace c = true)
    (hblanks' : ∀ c ∈ blanks', isAsciiWhitespace c = true) (back : Str) :
    Unseen .compressWhitespace (front ++ (blanks ++ back)) (front ++ (blanks' ++ back))
  | blank {c : Char} (front : Str) (hc : isAsciiWhitespace c = true) (back : Str) :
    Unseen .removeWhitespace (front ++ c :: back) (front ++ back)
  | null (front back : Str) : Unseen .removeNulls (front ++ '\x00' :: back) (front ++ back)

/-- No operator tells the values apart behind the transform, whatever transforms come after it. -/
def LookAlike (t : Transform) (s s' : Str) : Prop :=
  ∀ regex operator ts, operatorMatches regex operator (applyTransforms s (t :: ts)) =
    operatorMatches regex operator (applyTransforms s' (t :: ts))

section Edits

variable {t : Transform} {s s' : Str}

/-- An edit behind a character is an edit. -/
theorem Unseen.cons (c : Char) (h : Unseen t s s') : Unseen t (c :: s) (c :: s') := by
  cases h with
  | respaced front hne hne' hblanks hblanks' back =>
    exact .respaced (c :: front) hne hne' hblanks hblanks' back
  | blank front hc back => exact .blank (c :: front) hc back
  | null front back => exact .null (c :: front) back

theorem eqvGen_cons (c : Char) (h : Relation.EqvGen (Unseen t) s s') :
    Relation.EqvGen (Unseen t) (c :: s) (c :: s') := by
  induction h with
  | rel s s' h => exact .rel _ _ (h.cons c)
  | refl s => exact .refl _
  | symm s s' _ ih => exact ih.symm
  | trans s s' s'' _ _ ih ih' => exact .trans _ _ _ ih ih'

/-- A run of blanks is one space, unless one is running. -/
theorem compressFrom_blanks (prevWs : Bool) {blanks : Str} (hne : blanks ≠ [])
    (h : ∀ c ∈ blanks, isAsciiWhitespace c = true) (back : Str) :
    compressFrom prevWs (blanks ++ back) =
      (if prevWs then [] else [' ']) ++ compressFrom true back := by
  induction blanks generalizing prevWs with
  | nil => exact absurd rfl hne
  | cons c blanks ih =>
    obtain ⟨hc, hblanks⟩ := List.forall_mem_cons.mp h
    rw [List.cons_append, compressFrom, if_pos hc]
    have hrest : compressFrom true (blanks ++ back) = compressFrom true back := by
      cases blanks with
      | nil => rfl
      | cons c' blanks => rw [ih true (List.cons_ne_nil _ _) hblanks, if_pos rfl, List.nil_append]
    rw [hrest]
    cases prevWs <;> rfl

/-- **No step changes what the transform leaves.** -/
theorem applyOne_of_unseen (h : Unseen t s s') : applyOne s t = applyOne s' t := by
  cases h with
  | @respaced blanks blanks' front hne hne' hblanks hblanks' back =>
    have hfront : ∀ prevWs, compressFrom prevWs (front ++ (blanks ++ back)) =
        compressFrom prevWs (front ++ (blanks' ++ back)) := by
      induction front with
      | nil =>
        intro prevWs
        rw [List.nil_append, List.nil_append, compressFrom_blanks prevWs hne hblanks,
          compressFrom_blanks prevWs hne' hblanks']
      | cons c front ih =>
        intro prevWs
        rw [List.cons_append, List.cons_append, compressFrom, compressFrom, ih, ih]
    exact hfront false
  | blank front hc back =>
    rw [applyOne, applyOne, List.filter_append, List.filter_append,
      List.filter_cons_of_neg (by rw [hc]; decide)]
  | null front back =>
    rw [applyOne, applyOne, List.filter_append, List.filter_append,
      List.filter_cons_of_neg (by decide)]

/-- A value and what is left of it when characters are taken out. -/
theorem eqvGen_filter {p : Char → Bool}
    (hout : ∀ c, p c = false → ∀ back, Unseen t (c :: back) back) (s : Str) :
    Relation.EqvGen (Unseen t) s (s.filter p) := by
  induction s with
  | nil => exact .refl _
  | cons c s ih =>
    rw [List.filter_cons]
    split
    · exact eqvGen_cons c ih
    · next hc => exact .trans _ _ _ (.rel _ _ (hout c (Bool.eq_false_iff.mpr hc) s)) ih

/-- A value and what is left of it when runs are cut short, behind a space and elsewhere. -/
theorem eqvGen_compressFrom (s : Str) :
    Relation.EqvGen (Unseen .compressWhitespace) s (compressFrom false s) ∧
      Relation.EqvGen (Unseen .compressWhitespace) (' ' :: s) (' ' :: compressFrom true s) := by
  have hspace : ∀ c ∈ [' '], isAsciiWhitespace c = true := List.forall_mem_singleton.mpr (by decide)
  induction s with
  | nil => exact ⟨.refl _, .refl _⟩
  | cons c s ih =>
    rw [compressFrom, compressFrom]
    by_cases hc : isAsciiWhitespace c = true
    · rw [if_pos hc, if_pos hc]
      have hone : Unseen .compressWhitespace (c :: s) (' ' :: s) :=
        .respaced [] (List.cons_ne_nil c []) (List.cons_ne_nil ' ' [])
          (List.forall_mem_singleton.mpr hc) hspace s
      have htwo : Unseen .compressWhitespace (' ' :: c :: s) (' ' :: s) :=
        .respaced [] (List.cons_ne_nil ' ' [c]) (List.cons_ne_nil ' ' [])
          (List.forall_mem_cons.mpr ⟨by decide, List.forall_mem_singleton.mpr hc⟩) hspace s
      exact ⟨.trans _ _ _ (.rel _ _ hone) ih.2, .trans _ _ _ (.rel _ _ htwo) ih.2⟩
    · rw [if_neg hc, if_neg hc]
      exact ⟨eqvGen_cons c ih.1, eqvGen_cons ' ' (eqvGen_cons c ih.1)⟩

/-- **Steps lead to what the transform leaves.** -/
theorem eqvGen_applyOne (ht : t ∈ spacingTransforms) (s : Str) :
    Relation.EqvGen (Unseen t) s (applyOne s t) := by
  simp only [spacingTransforms, List.mem_cons, List.not_mem_nil, or_false] at ht
  rcases ht with rfl | rfl | rfl
  · exact (eqvGen_compressFrom s).1
  · exact eqvGen_filter (fun c hc back => .blank [] (by simpa using hc) back) s
  · refine eqvGen_filter (fun c hc back => ?_) s
    obtain rfl : c = '\x00' := by simpa using hc
    exact .null [] back

/-- **What a transform does not see**: values look alike behind it exactly if edits that it does not
see lead from one to the other. -/
theorem lookAlike_iff (ht : t ∈ spacingTransforms) (s s' : Str) :
    LookAlike t s s' ↔ Relation.EqvGen (Unseen t) s s' := by
  rw [← eqvGen_iff_of_normal (fun _ _ h => applyOne_of_unseen h) (eqvGen_applyOne ht)]
  constructor
  · intro h
    have hstreq := h (fun _ => none) (.streq (applyOne s t)) []
    have hown : operatorMatches (fun _ => none) (.streq (applyOne s t))
        (applyTransforms s [t]) = true := beq_self_eq_true _
    rw [hown] at hstreq
    exact (beq_iff_eq.mp hstreq.symm).symm
  · intro heq regex operator ts
    have happly : applyTransforms s (t :: ts) = applyTransforms s' (t :: ts) :=
      congrArg (fun value => applyTransforms value ts) heq
    rw [happly]

end Edits

/-- A tab and two spaces look like a space. -/
theorem lookAlike_tab : LookAlike .compressWhitespace "a\t  b".toList "a b".toList :=
  (lookAlike_iff (by decide) _ _).mpr (.rel _ _ (.respaced ['a'] (List.cons_ne_nil '\t' [' ', ' '])
    (List.cons_ne_nil ' ' []) (forall_mem_of_all (by decide)) (forall_mem_of_all (by decide))
    ['b']))

end Crs

end Fywaf
