import Mathlib.Data.List.Induction
import Mathlib.Data.Nat.Notation

/-!
# Escape symbols

Whether a symbol is escaped is a matter of parity: an escape symbol takes the symbol behind it with
it, which may be another one, so a symbol is escaped when an odd run of escape symbols stands in
front of it. Read from the front, the same is said by taking escape symbols off in pairs.

## Main definitions

* `OpenEnd` — the text ends in an odd run of the escape symbol
* `QuotedBody` — the text can stand in quotes
* `passesQuotes` — the same, read from the front

## Main results

* `openEnd_concat` — what the last symbol makes of it
* `openEnd_cons_of_ne`, `openEnd_pair` — what the first symbols do not
* `QuotedBody.of_cons`, `QuotedBody.of_pair` — a quoted text taken apart from the front
* `quotedBody_iff` — whether a text can stand in quotes is seen from the front
-/

namespace Fywaf

variable {α : Type} [DecidableEq α] {esc : α}

/-- The text ends in an odd run of the escape symbol, so a symbol behind it is escaped. -/
def OpenEnd (esc : α) (l : List α) : Prop := (l.reverse.takeWhile (· == esc)).length % 2 = 1

instance (l : List α) : Decidable (OpenEnd esc l) := inferInstanceAs (Decidable (_ % 2 = 1))

theorem not_openEnd_nil : ¬ OpenEnd esc ([] : List α) := by
  rw [OpenEnd]
  exact Nat.zero_ne_one

theorem openEnd_concat {l : List α} {a : α} :
    OpenEnd esc (l ++ [a]) ↔ a = esc ∧ ¬ OpenEnd esc l := by
  unfold OpenEnd
  rw [List.reverse_append, List.reverse_singleton, List.singleton_append]
  by_cases h : a = esc
  · rw [List.takeWhile_cons_of_pos (by simpa using h), List.length_cons]
    constructor
    · intro hodd
      exact ⟨h, by omega⟩
    · rintro ⟨-, heven⟩
      omega
  · rw [List.takeWhile_cons_of_neg (by simpa using h)]
    constructor
    · intro hodd
      cases hodd
    · rintro ⟨heq, -⟩
      exact absurd heq h

/-- A symbol that is none begins no run. -/
theorem openEnd_cons_of_ne {a : α} (h : a ≠ esc) (l : List α) :
    OpenEnd esc (a :: l) ↔ OpenEnd esc l := by
  induction l using List.reverseRecOn with
  | nil =>
    have hsingle : ¬ OpenEnd esc [a] := fun hopen => h (openEnd_concat (l := []).mp hopen).1
    exact iff_of_false hsingle not_openEnd_nil
  | append_singleton l b ih => rw [← List.cons_append, openEnd_concat, openEnd_concat, ih]

/-- A text without escape symbols does not change how the one behind it ends. -/
theorem openEnd_append_of_notMem {l : List α} (h : esc ∉ l) (m : List α) :
    OpenEnd esc (l ++ m) ↔ OpenEnd esc m := by
  induction l with
  | nil => rfl
  | cons a l ih =>
    have hne : a ≠ esc := fun heq => h (heq ▸ List.mem_cons_self)
    rw [List.cons_append, openEnd_cons_of_ne hne]
    exact ih fun hmem => h (List.mem_cons_of_mem a hmem)

/-- **An escape symbol and the symbol it takes with it** do not change how the rest ends. -/
theorem openEnd_pair (b : α) (l : List α) : OpenEnd esc (esc :: b :: l) ↔ OpenEnd esc l := by
  induction l using List.reverseRecOn with
  | nil =>
    have hone : OpenEnd esc [esc] := openEnd_concat (l := []).mpr ⟨rfl, not_openEnd_nil⟩
    have htwo : ¬ OpenEnd esc [esc, b] := fun hopen => (openEnd_concat (l := [esc]).mp hopen).2 hone
    exact iff_of_false htwo not_openEnd_nil
  | append_singleton l c ih =>
    rw [← List.cons_append, ← List.cons_append, openEnd_concat, openEnd_concat, ih]

/-- Behind a symbol that is no escape symbol a run starts anew. -/
theorem openEnd_behind {a : α} (h : a ≠ esc) (l m : List α) :
    OpenEnd esc (l ++ a :: m) ↔ OpenEnd esc m := by
  induction m using List.reverseRecOn with
  | nil => exact iff_of_false (fun hopen => h (openEnd_concat.mp hopen).1) not_openEnd_nil
  | append_singleton m b ih =>
    rw [← List.cons_append, ← List.append_assoc, openEnd_concat, openEnd_concat, ih]

/-! ### Quoted texts -/

/-- The text can stand in quotes: every quote in it is escaped, and a quote behind it is not. -/
structure QuotedBody (esc quote : α) (l : List α) : Prop where
  escaped : ∀ a b, l = a ++ quote :: b → OpenEnd esc a
  ends : ¬ OpenEnd esc l

namespace QuotedBody

variable {quote a : α} {l : List α}

theorem nil : QuotedBody esc quote [] where
  escaped a b h := absurd h (by simp)
  ends := not_openEnd_nil

/-- The first symbol is no quote. -/
theorem head_ne (h : QuotedBody esc quote (a :: l)) : a ≠ quote := by
  rintro rfl
  exact not_openEnd_nil (h.escaped [] l rfl)

/-- Behind a symbol that is no escape symbol there is a quoted text. -/
theorem of_cons (ha : a ≠ esc) (h : QuotedBody esc quote (a :: l)) : QuotedBody esc quote l where
  escaped b c hl := (openEnd_cons_of_ne ha b).mp (h.escaped (a :: b) c (by rw [hl]; rfl))
  ends hopen := h.ends ((openEnd_cons_of_ne ha l).mpr hopen)

/-- Behind an escaped symbol there is a quoted text. -/
theorem of_pair (h : QuotedBody esc quote (esc :: a :: l)) : QuotedBody esc quote l where
  escaped b c hl := (openEnd_pair a b).mp (h.escaped (esc :: a :: b) c (by rw [hl]; rfl))
  ends hopen := h.ends ((openEnd_pair a l).mpr hopen)

/-- An escape symbol does not stand alone. -/
theorem not_singleton : ¬ QuotedBody esc quote [esc] :=
  fun h => h.ends (openEnd_concat.mpr ⟨rfl, not_openEnd_nil⟩ : OpenEnd esc ([] ++ [esc]))

/-- A symbol that is neither can be put in front. -/
theorem cons (ha : a ≠ esc) (hquote : a ≠ quote) (h : QuotedBody esc quote l) :
    QuotedBody esc quote (a :: l) where
  escaped b c hl := by
    cases b with
    | nil => exact absurd (List.cons.inj hl).1 hquote
    | cons d b =>
      obtain ⟨heq, htail⟩ := List.cons.inj hl
      rw [← heq, openEnd_cons_of_ne ha]
      exact h.escaped b c htail
  ends hopen := h.ends ((openEnd_cons_of_ne ha l).mp hopen)

/-- An escaped symbol can be put in front. -/
theorem pair (hne : esc ≠ quote) (b : α) (h : QuotedBody esc quote l) :
    QuotedBody esc quote (esc :: b :: l) where
  escaped c d hl := by
    rcases c with _ | ⟨x, _ | ⟨y, c⟩⟩
    · exact absurd (List.cons.inj hl).1 hne
    · exact (openEnd_concat.mpr ⟨(List.cons.inj hl).1.symm, not_openEnd_nil⟩ :
        OpenEnd esc ([] ++ [x]))
    · obtain ⟨hfirst, hrest⟩ := List.cons.inj hl
      rw [← hfirst, openEnd_pair]
      exact h.escaped c d (List.cons.inj hrest).2
  ends hopen := h.ends ((openEnd_pair b l).mp hopen)

/-- Symbols that are neither make no difference in front. -/
theorem append_iff {front : List α} (hfront : ∀ a ∈ front, a ≠ esc ∧ a ≠ quote) :
    QuotedBody esc quote (front ++ l) ↔ QuotedBody esc quote l := by
  induction front with
  | nil => rfl
  | cons a front ih =>
    obtain ⟨ha, hfront⟩ := List.forall_mem_cons.mp hfront
    rw [List.cons_append, ← ih hfront]
    exact ⟨fun h => h.of_cons ha.1, fun h => h.cons ha.1 ha.2⟩

/-- Behind a symbol that is no escape symbol there is a quoted text, wherever it stands. -/
theorem behind {front : List α} (ha : a ≠ esc) (h : QuotedBody esc quote (front ++ a :: l)) :
    QuotedBody esc quote l where
  escaped b c hl := by
    have hopen := h.escaped (front ++ a :: b) c (by rw [hl, List.append_assoc]; rfl)
    exact (openEnd_behind ha front b).mp hopen
  ends hopen := h.ends ((openEnd_behind ha front l).mpr hopen)

/-- Behind a symbol that is neither, one quoted text is as good as another. -/
theorem replace {front m : List α} (ha : a ≠ esc) (hquote : a ≠ quote)
    (h : QuotedBody esc quote (front ++ a :: l)) (hm : QuotedBody esc quote m) :
    QuotedBody esc quote (front ++ a :: m) where
  escaped b c hl := by
    rcases List.append_eq_append_iff.mp hl with ⟨mid, rfl, hmid⟩ | ⟨mid, rfl, hmid⟩
    · cases mid with
      | nil => exact absurd (List.cons.inj hmid).1 hquote
      | cons d mid =>
        obtain ⟨rfl, hrest⟩ := List.cons.inj hmid
        exact (openEnd_behind ha front mid).mpr (hm.escaped mid c hrest)
    · cases mid with
      | nil => exact absurd (List.cons.inj hmid).1.symm hquote
      | cons d mid =>
        obtain ⟨rfl, -⟩ := List.cons.inj hmid
        exact h.escaped b (mid ++ a :: l) (by simp)
  ends hopen := hm.ends ((openEnd_behind ha front m).mp hopen)

end QuotedBody

/-- A text read from the front, an escape symbol taking the next symbol with it: no quote is met,
and no escape symbol is last. -/
def passesQuotes (esc quote : α) : List α → Bool
  | [] => true
  | [a] => decide (a ≠ esc ∧ a ≠ quote)
  | a :: b :: l =>
    if a = esc then passesQuotes esc quote l
    else decide (a ≠ quote) && passesQuotes esc quote (b :: l)

/-- **Whether a text can stand in quotes is seen from the front.** -/
theorem quotedBody_iff {quote : α} (hne : esc ≠ quote) {l : List α} :
    QuotedBody esc quote l ↔ passesQuotes esc quote l = true := by
  induction l using List.twoStepInduction with
  | nil => exact iff_of_true .nil rfl
  | singleton a =>
    rw [passesQuotes, decide_eq_true_iff]
    constructor
    · intro h
      refine ⟨?_, h.head_ne⟩
      rintro rfl
      exact QuotedBody.not_singleton h
    · rintro ⟨ha, hquote⟩
      exact QuotedBody.nil.cons ha hquote
  | cons_cons a b l ih ih' =>
    rw [passesQuotes]
    by_cases ha : a = esc
    · subst ha
      rw [if_pos rfl, ← ih]
      exact ⟨fun h => h.of_pair, fun h => h.pair hne b⟩
    · rw [if_neg ha, Bool.and_eq_true, decide_eq_true_iff, ← ih' b]
      exact ⟨fun h => ⟨h.head_ne, h.of_cons ha⟩, fun h => h.2.cons ha h.1⟩

end Fywaf
