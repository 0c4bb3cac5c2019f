import Mathlib.Data.List.DropRight
import Mathlib.Data.List.Infix
import Fywaf.Std.Lines
import Fywaf.Std.Unicode

/-!
# Texts: trimming, splitting, slicing

The functions of `str` the program uses, over lists of scalar values, each with the lemmas that
let later proofs leave it folded. Where Mathlib or core has the function under another name
(`List.splitOn`, `List.isPrefixOf`, `List.rdropWhile`) it is used directly.

Offsets are byte offsets, as in Rust: `sliceFrom` and `sliceTo` walk the text by encoded length and
fail where Rust panics, off the end or inside a character.

## Main definitions

* `trimMatches`, `trim`, `trimStart` — removing a kind of character at the ends
* `splitOnce`, `splitWhitespace`, `lines`, `stripPrefix`, `contains`
* `Panic`, `sliceFrom`, `sliceTo` — slices by byte offset

## Main results

* `cleanEnds_trimMatches`, `trimMatches_of_cleanEnds` — trimming is a projection onto clean ends
* `splitOnce_eq_some_iff` — the cut is at the first separator
* `isWord_of_mem_splitWhitespace` — words joined by blanks are split back into the words
-/

namespace Fywaf

variable {p : Char → Bool} {s t : Str} {c : Char}

/-! ### Trimming -/

/-- `str::trim_matches` (and `str::trim`, for white space). -/
def trimMatches (p : Char → Bool) (s : Str) : Str := (s.dropWhile p).rdropWhile p

/-- `str::trim`. -/
def trim (s : Str) : Str := trimMatches isWhitespace s

/-- `str::trim_start`. -/
def trimStart (s : Str) : Str := s.dropWhile isWhitespace

/-- `str::trim_end_matches`. -/
def trimEndMatches (p : Char → Bool) (s : Str) : Str := s.rdropWhile p

/-- No character at either end of the text satisfies `p`. -/
structure CleanEnds (p : Char → Bool) (s : Str) : Prop where
  /-- The first character. -/
  head : ∀ c ∈ s.head?, p c = false
  /-- The last character. -/
  last : ∀ c ∈ s.getLast?, p c = false

/-- A text that nowhere has such a character has clean ends. -/
theorem cleanEnds_of_forall (h : ∀ c ∈ s, p c = false) : CleanEnds p s :=
  ⟨fun c hc => h c (List.mem_of_mem_head? hc), fun c hc => h c (List.mem_of_getLast? hc)⟩

/-- The ends of a text are those of its parts. -/
theorem cleanEnds_append (hs : s ≠ []) (ht : t ≠ []) (hhead : ∀ c ∈ s.head?, p c = false)
    (hlast : ∀ c ∈ t.getLast?, p c = false) : CleanEnds p (s ++ t) where
  head := by
    rw [List.head?_append_of_ne_nil _ hs]
    exact hhead
  last := by
    rw [List.getLast?_append_of_ne_nil _ ht]
    exact hlast

theorem cleanEnds_trimMatches (p : Char → Bool) (s : Str) : CleanEnds p (trimMatches p s) where
  head := by
    intro c hc
    obtain ⟨t, ht⟩ := List.rdropWhile_prefix p (s.dropWhile p)
    have hhead : (s.dropWhile p).head? = some c := by
      rw [← ht, List.head?_append, show (List.rdropWhile p (s.dropWhile p)).head? = some c from hc]
      rfl
    have hne : s.dropWhile p ≠ [] := by
      rintro h
      rw [h] at hhead
      cases hhead
    have hnot := List.head_dropWhile_not p hne
    rw [List.head?_eq_some_head hne] at hhead
    rw [← Option.some.inj hhead]
    simpa using hnot
  last := by
    intro c hc
    by_cases hne : trimMatches p s = []
    · rw [hne] at hc; cases hc
    · rw [List.getLast?_eq_some_getLast hne] at hc
      rw [← Option.some.inj hc]
      exact eq_false_of_ne_true (List.rdropWhile_last_not p (s.dropWhile p) hne)

/-- **Trimming is a projection** onto the texts whose ends are clean. -/
theorem trimMatches_of_cleanEnds (h : CleanEnds p s) : trimMatches p s = s := by
  have hfront : s.dropWhile p = s := by
    cases s with
    | nil => rfl
    | cons c s => rw [List.dropWhile_cons_of_neg]; simp [h.head c rfl]
  rw [trimMatches, hfront, List.rdropWhile_eq_self_iff]
  intro hne hlast
  have := h.last _ (by rw [List.getLast?_eq_some_getLast hne]; rfl)
  rw [this] at hlast
  cases hlast

theorem trimEndMatches_append_blank (h : ∀ c ∈ t, p c = true) :
    trimEndMatches p (s ++ t) = trimEndMatches p s := by
  rw [trimEndMatches, List.rdropWhile, List.reverse_append, List.dropWhile_append_of_pos]
  · rfl
  · exact fun c hc => h c (List.mem_reverse.mp hc)

theorem trimEndMatches_of_forall (h : ∀ c ∈ s, p c = false) : trimEndMatches p s = s := by
  rw [trimEndMatches, List.rdropWhile_eq_self_iff]
  intro hne hlast
  rw [h _ (List.getLast_mem hne)] at hlast
  cases hlast

/-- Blanks at the end of a text disappear. -/
theorem trimMatches_append_blank (h : ∀ c ∈ t, p c = true) :
    trimMatches p (s ++ t) = trimMatches p s := by
  rw [trimMatches, trimMatches, List.dropWhile_append]
  split
  · next hempty =>
    have hblank : t.dropWhile p = [] := List.dropWhile_eq_nil_iff.mpr h
    rw [hblank, List.isEmpty_iff.mp hempty]
  · exact trimEndMatches_append_blank h

theorem trimMatches_rdropWhile (p : Char → Bool) (s : Str) :
    trimMatches p (s.rdropWhile p) = trimMatches p s := by
  have hblank : ∀ c ∈ s.rtakeWhile p, p c = true := fun c => List.mem_rtakeWhile_imp
  rw [← @trimMatches_append_blank p (s.rdropWhile p) _ hblank, List.rdropWhile_append_rtakeWhile]

/-- A word stays as it is, and only what is behind it is trimmed at its end. -/
theorem trimMatches_word {word : Str} (hclean : CleanEnds p word) (hne : word ≠ [])
    (hs : ∀ c ∈ s, p c = true) (t : Str) :
    trimMatches p (s ++ (word ++ t)) = word ++ t.rdropWhile p := by
  obtain ⟨c, hc⟩ : ∃ c, word.getLast? = some c :=
    Option.ne_none_iff_exists'.mp (mt List.getLast?_eq_none_iff.mp hne)
  obtain ⟨init, rfl⟩ := List.getLast?_eq_some_iff.mp hc
  have hlast : p c = false := hclean.last c hc
  have hback : (init ++ [c] ++ t).rdropWhile p = init ++ [c] ++ t.rdropWhile p := by
    induction t using List.reverseRecOn with
    | nil => simp [List.rdropWhile_concat_neg, hlast]
    | append_singleton t d ih =>
      rw [← List.append_assoc, List.rdropWhile_concat, List.rdropWhile_concat]
      split
      · exact ih
      · rw [List.append_assoc]
  have hfront : (init ++ [c] ++ t).dropWhile p = init ++ [c] ++ t := by
    cases init with
    | nil => exact List.dropWhile_cons_of_neg (by simp [hclean.head c rfl])
    | cons d init => exact List.dropWhile_cons_of_neg (by simp [hclean.head d rfl])
  rw [trimMatches, List.dropWhile_append_of_pos hs, hfront, hback]

theorem trimMatches_isInfix (p : Char → Bool) (s : Str) : trimMatches p s <:+: s :=
  (List.rdropWhile_prefix p _).isInfix.trans (List.dropWhile_suffix p).isInfix

theorem trim_isInfix (s : Str) : trim s <:+: s := trimMatches_isInfix _ s

/-- A blank in front of a text disappears. -/
theorem trim_cons_blank (hc : isWhitespace c = true) : trim (c :: s) = trim s := by
  rw [trim, trim, trimMatches, trimMatches, List.dropWhile_cons_of_pos hc]

/-! ### Splitting once -/

/-- `str::split_once` at a character. -/
def splitOnce (sep : Char) : Str → Option (Str × Str)
  | [] => none
  | c :: s => if c = sep then some ([], s) else (splitOnce sep s).map fun (a, b) => (c :: a, b)

theorem splitOnce_append {sep : Char} : ∀ {a : Str}, sep ∉ a → ∀ b,
    splitOnce sep (a ++ sep :: b) = some (a, b)
  | [], _, b => by simp [splitOnce]
  | c :: a, h, b => by
    rw [List.mem_cons, not_or] at h
    rw [List.cons_append, splitOnce, if_neg (Ne.symm h.1), splitOnce_append h.2]
    rfl

/-- The cut is at the first separator. -/
theorem splitOnce_eq_some_iff {sep : Char} {a b : Str} :
    splitOnce sep s = some (a, b) ↔ s = a ++ sep :: b ∧ sep ∉ a := by
  refine ⟨fun h => ?_, fun ⟨hs, ha⟩ => hs ▸ splitOnce_append ha b⟩
  induction s generalizing a with
  | nil => cases h
  | cons c s ih =>
    rw [splitOnce] at h
    split at h
    · next hc =>
      obtain ⟨rfl, rfl⟩ := Prod.mk.inj (Option.some.inj h)
      exact ⟨by rw [hc]; rfl, List.not_mem_nil⟩
    · next hc =>
      obtain ⟨⟨a', b'⟩, h', heq⟩ := Option.map_eq_some_iff.mp h
      obtain ⟨rfl, rfl⟩ := Prod.mk.inj heq
      obtain ⟨rfl, ha⟩ := ih h'
      exact ⟨rfl, by rw [List.mem_cons, not_or]; exact ⟨Ne.symm hc, ha⟩⟩

theorem splitOnce_eq_none_iff {sep : Char} : splitOnce sep s = none ↔ sep ∉ s := by
  induction s with
  | nil => simp [splitOnce]
  | cons c s ih =>
    rw [splitOnce, List.mem_cons, not_or]
    split
    · next h => simp [h]
    · next h => simp [ih, Ne.symm h]

/-- What holds of all characters of the pieces and the separator holds of the joined text. -/
theorem forall_mem_intercalate {p : Char → Prop} {sep : Str} (hsep : ∀ c ∈ sep, p c)
    {pieces : List Str} (h : ∀ piece ∈ pieces, ∀ c ∈ piece, p c) :
    ∀ c ∈ sep.intercalate pieces, p c := by
  induction pieces with
  | nil => exact List.forall_mem_nil p
  | cons piece pieces ih =>
    obtain ⟨hpiece, hpieces⟩ := List.forall_mem_cons.mp h
    cases pieces with
    | nil => rwa [List.intercalate_singleton]
    | cons _ _ =>
      rw [List.intercalate_cons_cons]
      exact List.forall_mem_append.mpr
        ⟨List.forall_mem_append.mpr ⟨hpiece, hsep⟩, ih hpieces⟩

/-! ### Words -/

/-- `str::split_whitespace`. -/
def splitWhitespace (s : Str) : List Str := (s.splitOnP isWhitespace).filter (· ≠ [])

/-- A word: not empty, and without white space. -/
def IsWord (s : Str) : Prop := s ≠ [] ∧ ∀ c ∈ s, isWhitespace c = false

theorem splitWhitespace_append_blank {w : Str} (hw : IsWord w) (hc : isWhitespace c = true) :
    splitWhitespace (w ++ c :: s) = w :: splitWhitespace s := by
  rw [splitWhitespace, List.splitOnP_append_cons_of_forall_mem hw.2 c hc]
  simp [splitWhitespace, hw.1]

theorem splitWhitespace_word {w : Str} (hw : IsWord w) : splitWhitespace w = [w] := by
  rw [splitWhitespace, List.splitOnP_eq_singleton hw.2]
  simp [hw.1]

/-- Words with a blank between. -/
def unwords (words : List Str) : Str := [' '].intercalate words

theorem unwords_cons_cons (w w' : Str) (words : List Str) :
    unwords (w :: w' :: words) = w ++ ' ' :: unwords (w' :: words) := by
  rw [unwords, List.intercalate_cons_cons, List.append_assoc]
  rfl

/-- Words are split where they were joined. -/
theorem splitWhitespace_unwords {words : List Str} (h : ∀ w ∈ words, IsWord w) :
    splitWhitespace (unwords words) = words := by
  induction words with
  | nil => rfl
  | cons w words ih =>
    rw [List.forall_mem_cons] at h
    cases words with
    | nil => rw [unwords, List.intercalate_singleton, splitWhitespace_word h.1]
    | cons w' words =>
      rw [unwords_cons_cons, splitWhitespace_append_blank h.1 (by decide), ih h.2]

/-- What is split off is a word. -/
theorem isWord_of_mem_splitWhitespace {w : Str} (h : w ∈ splitWhitespace s) : IsWord w := by
  rw [splitWhitespace, List.mem_filter] at h
  exact ⟨by simpa using h.2, not_of_mem_splitOnP h.1⟩

/-! ### Prefixes and lines -/

/-- `str::strip_prefix`. -/
def stripPrefix (pre s : Str) : Option Str :=
  if pre.isPrefixOf s then some (s.drop pre.length) else none

theorem stripPrefix_eq_some_iff {pre : Str} : stripPrefix pre s = some t ↔ s = pre ++ t := by
  rw [stripPrefix]
  constructor
  · intro h
    split at h
    · next hp =>
      obtain ⟨r, rfl⟩ := List.isPrefixOf_iff_prefix.mp hp
      rw [List.drop_left, Option.some.injEq] at h
      rw [h]
    · cases h
  · rintro rfl
    rw [if_pos (List.isPrefixOf_iff_prefix.mpr (List.prefix_append _ _)), List.drop_left]

/-- `str::contains` of a text. -/
def contains (s needle : Str) : Bool := decide (needle <:+: s)

/-- The pieces between line feeds as lines: each loses one carriage return before its line feed,
and a last piece is a line only when it is not empty. -/
def chompLines : List Str → List Str
  | [] => []
  | [last] => if last = [] then [] else [last]
  | line :: rest => chomp '\r' line :: chompLines rest

/-- `str::lines`. -/
def lines (s : Str) : List Str := chompLines (s.splitOn '\n')

/-! ### Slices by byte offset -/

/-- Why the program would panic. -/
inductive Panic
  /-- A slice of a text off its end or inside a character. -/
  | slice
  deriving DecidableEq, Repr

/-- The text before and after byte offset `i`, when `i` is a character boundary. -/
def splitAtByte : Str → ℕ → Option (Str × Str)
  | s, 0 => some ([], s)
  | [], _ + 1 => none
  | c :: s, i + 1 =>
    if c.utf8Size ≤ i + 1 then
      (splitAtByte s (i + 1 - c.utf8Size)).map fun (a, b) => (c :: a, b)
    else none

/-- `&s[i..]`. -/
def sliceFrom (s : Str) (i : ℕ) : Except Panic Str :=
  match splitAtByte s i with
  | some (_, b) => .ok b
  | none => .error .slice

/-- `&s[..i]`. -/
def sliceTo (s : Str) (i : ℕ) : Except Panic Str :=
  match splitAtByte s i with
  | some (a, _) => .ok a
  | none => .error .slice

end Fywaf
