import Fywaf.Crs.ParseStr

/-!
# Joined lines

What the parser reads is logical lines: physical lines that end with a backslash are joined with the
next, a blank in place of the backslash. So a place of the text lies in a logical line, in front of
which other lines are done, and a backslash and a line break put in that place do no more than
a blank.

## Main definitions

* `Crs.lineFront`, `Crs.lineBack` — the logical line around a place of the text

## Main results

* `Crs.exists_joinContinuations` — the logical lines, by what is in front of a place and behind it
* `Crs.joinContinuations_around` — a line break behind a backslash makes a blank
-/

namespace Fywaf

section Lines

variable {s t x : Str}

theorem chompLines_cons (piece : Str) {pieces : List Str} (h : pieces ≠ []) :
    chompLines (piece :: pieces) = chomp '\r' piece :: chompLines pieces := by
  cases pieces with
  | nil => exact absurd rfl h
  | cons _ _ => rw [chompLines]; exact nofun

/-- Every piece in front of others ends with a line break. -/
theorem chompLines_append (front : List Str) {back : List Str} (hback : back ≠ []) :
    chompLines (front ++ back) = front.map (chomp '\r') ++ chompLines back := by
  induction front with
  | nil => rfl
  | cons piece front ih =>
    have hmore : front ++ back ≠ [] := List.append_ne_nil_of_right_ne_nil front hback
    rw [List.cons_append, chompLines_cons piece hmore, ih, List.map_cons, List.cons_append]

/-- The lines in front of a line break, and the lines behind it. -/
theorem lines_append_newline (s t : Str) :
    lines (s ++ '\n' :: t) = (s.splitOn '\n').map (chomp '\r') ++ lines t := by
  rw [lines, List.splitOn_append_cons_self, chompLines_append _ (List.splitOn_ne_nil _ _)]
  rfl

/-- A line break ends the line in front of it, together with a carriage return. -/
theorem lines_break (hx : '\n' ∉ x) {newline : Str}
    (hnewline : newline = ['\n'] ∨ newline = ['\r', '\n']) (t : Str) :
    lines (x ++ '\\' :: (newline ++ t)) = (x ++ ['\\']) :: lines t := by
  have hsplit : ∀ y : Str, '\n' ∉ y → lines (y ++ '\n' :: t) = chomp '\r' y :: lines t := by
    intro y hy
    rw [lines_append_newline, List.splitOn_eq_singleton hy]
    rfl
  rcases hnewline with rfl | rfl
  · have hone : '\n' ∉ x ++ ['\\'] := by simpa using hx
    have hchomp : chomp '\r' (x ++ ['\\']) = x ++ ['\\'] := if_neg (by simp)
    have heq : x ++ '\\' :: (['\n'] ++ t) = (x ++ ['\\']) ++ '\n' :: t := by simp
    rw [heq, hsplit _ hone, hchomp]
  · have htwo : '\n' ∉ x ++ ['\\'] ++ ['\r'] := by simpa using hx
    have heq : x ++ '\\' :: (['\r', '\n'] ++ t) = (x ++ ['\\'] ++ ['\r']) ++ '\n' :: t := by simp
    rw [heq, hsplit _ htwo, chomp_append_singleton]

/-- Text without the separator belongs to the first piece. -/
theorem splitOn_append_of_notMem {c : Char} (hx : c ∉ x) (s : Str) :
    (x ++ s).splitOn c = (s.splitOn c).modifyHead (x ++ ·) := by
  induction x with
  | nil =>
    rw [List.nil_append]
    cases s.splitOn c with
    | nil => rfl
    | cons _ _ => rfl
  | cons d x ih =>
    have hd : (d == c) = false := by
      rw [beq_eq_false_iff_ne]
      rintro rfl
      exact hx List.mem_cons_self
    rw [List.cons_append, List.splitOn_cons_eq_if_modifyHead, hd, if_neg Bool.false_ne_true,
      ih fun hmem => hx (List.mem_cons_of_mem d hmem), List.modifyHead_modifyHead]
    rfl

/-- Only the end of a line is looked at. -/
theorem chomp_append (c : Char) (x : Str) {line : Str} (hline : line ≠ []) :
    chomp c (x ++ line) = x ++ chomp c line := by
  rw [chomp, chomp, List.getLast?_append_of_ne_nil _ hline, apply_ite (x ++ ·),
    List.dropLast_append_of_ne_nil hline]

/-- Text without line breaks belongs to the line behind it, when that is not empty. -/
theorem lines_append (hx : '\n' ∉ x) {line : Str} {rest : List Str}
    (hlines : lines s = line :: rest) (hline : line ≠ []) :
    lines (x ++ s) = (x ++ line) :: rest := by
  rw [lines] at hlines ⊢
  rw [splitOn_append_of_notMem hx]
  cases hpieces : s.splitOn '\n' with
  | nil => exact absurd hpieces (List.splitOn_ne_nil _ _)
  | cons piece pieces =>
    rw [hpieces] at hlines
    have hpiece : piece ≠ [] := by
      rintro rfl
      cases pieces with
      | nil => cases hlines
      | cons _ _ => exact hline (List.cons.inj hlines).1.symm
    rw [List.modifyHead_cons]
    cases pieces with
    | nil =>
      rw [chompLines, if_neg hpiece] at hlines
      rw [chompLines, if_neg (List.append_ne_nil_of_right_ne_nil x hpiece)]
      obtain ⟨rfl, rfl⟩ := List.cons.inj hlines
      rfl
    | cons next pieces =>
      rw [chompLines_cons _ (List.cons_ne_nil _ _)] at hlines ⊢
      obtain ⟨rfl, rfl⟩ := List.cons.inj hlines
      rw [chomp_append _ _ hpiece]

/-- The lines that are done in front of a place, and the text since the last line break. -/
theorem exists_lines_append (s : Str) :
    ∃ done x, '\n' ∉ x ∧ ∀ t, lines (s ++ t) = done ++ lines (x ++ t) := by
  induction s using List.reverseRecOn with
  | nil => exact ⟨[], [], List.not_mem_nil, fun t => rfl⟩
  | append_singleton s c ih =>
    obtain ⟨done, x, hx, hlines⟩ := ih
    by_cases hc : c = '\n'
    · subst hc
      exact ⟨done ++ (x.splitOn '\n').map (chomp '\r'), [], List.not_mem_nil, fun t => by
        rw [List.append_assoc, List.singleton_append, hlines, lines_append_newline,
          List.append_assoc, List.nil_append]⟩
    · have hmore : '\n' ∉ x ++ [c] := by simpa [hx] using Ne.symm hc
      exact ⟨done, x ++ [c], hmore, fun t => by
        rw [List.append_assoc, List.singleton_append, hlines, List.append_assoc,
          List.singleton_append]⟩

end Lines

namespace Crs

/-- The logical line in front of the end of the text. A mark behind the text makes it come out also
when it is empty. -/
def lineFront (s : Str) : Str := ((joinContinuations (s ++ ['.'])).getLastD []).dropLast

/-- The logical line behind the start of the text. -/
def lineBack (s : Str) : Str := (joinContinuations s).headD []

section Joined

variable {s t x current : Str}

/-- What is joined so far is put in front of the line that it belongs to. -/
theorem joinLines_append (current : Str) {ls : List Str} (h : current ≠ [] ∨ ls ≠ []) (s : Str) :
    joinLines (s ++ current) ls = (joinLines current ls).modifyHead (s ++ ·) := by
  induction ls generalizing current with
  | nil =>
    have hcurrent : current ≠ [] := h.resolve_right fun hne => hne rfl
    rw [joinLines_nil, joinLines_nil, if_neg hcurrent,
      if_neg (List.append_ne_nil_of_right_ne_nil s hcurrent)]
    rfl
  | cons line ls ih =>
    rw [joinLines_cons, joinLines_cons]
    by_cases hline : line.getLast? = some '\\'
    · rw [if_pos hline, if_pos hline, ← ih _ (Or.inl (by simp))]
      simp
    · rw [if_neg hline, if_neg hline, List.modifyHead_cons, List.append_assoc]

/-- A continued line is joined with the next, a blank between. -/
theorem joinLines_continued (current x : Str) (ls : List Str) :
    joinLines current ((x ++ ['\\']) :: ls) = joinLines (current ++ (x ++ [' '])) ls := by
  rw [joinLines_cons, if_pos List.getLast?_concat, List.dropLast_concat, List.append_assoc]

/-- Lines that are done do not depend on those behind them. -/
theorem exists_joinLines_append (current : Str) (ls : List Str) :
    ∃ done current', ∀ ls', joinLines current (ls ++ ls') = done ++ joinLines current' ls' := by
  induction ls generalizing current with
  | nil => exact ⟨[], current, fun ls' => rfl⟩
  | cons line ls ih =>
    by_cases hline : line.getLast? = some '\\'
    · obtain ⟨done, current', hjoin⟩ := ih (current ++ line.dropLast ++ [' '])
      exact ⟨done, current', fun ls' => by rw [List.cons_append, joinLines_cons, if_pos hline, hjoin]⟩
    · obtain ⟨done, current', hjoin⟩ := ih []
      exact ⟨(current ++ line) :: done, current', fun ls' => by
        rw [List.cons_append, joinLines_cons, if_neg hline, hjoin, List.cons_append]⟩

/-- A text whose first line is not empty. -/
def StartsLine (s : Str) : Prop := ∃ line rest, lines s = line :: rest ∧ line ≠ []

/-- The first line is not empty when the first logical line is not. -/
theorem startsLine_of_lineBack (h : lineBack s ≠ []) : StartsLine s := by
  rw [lineBack, joinContinuations] at h
  cases hlines : lines s with
  | nil => rw [hlines] at h; exact absurd rfl h
  | cons line rest =>
    refine ⟨line, rest, hlines, ?_⟩
    rintro rfl
    rw [hlines] at h
    exact h rfl

/-- Text without line breaks is put in front of the first logical line. -/
theorem joinLines_lines_append (hx : '\n' ∉ x) (hs : StartsLine s) (current : Str) :
    joinLines current (lines (x ++ s)) =
      (joinContinuations s).modifyHead ((current ++ x) ++ ·) := by
  obtain ⟨line, rest, hlines, hline⟩ := hs
  have hmove : joinLines current ((x ++ line) :: rest) =
      joinLines (current ++ x) (line :: rest) := by
    rw [joinLines_cons, joinLines_cons, List.getLast?_append_of_ne_nil _ hline,
      List.dropLast_append_of_ne_nil hline, ← List.append_assoc, ← List.append_assoc]
  have hempty := joinLines_append [] (Or.inr (List.cons_ne_nil line rest)) (current ++ x)
  rw [List.append_nil] at hempty
  rw [lines_append hx hlines hline, hmove, hempty, joinContinuations, hlines]

/-- **The logical lines, by what is in front of a place and behind it.** -/
theorem exists_joinContinuations (s : Str) :
    ∃ done current x, '\n' ∉ x ∧ lineFront s = current ++ x ∧
      ∀ t, joinContinuations (s ++ t) = done ++ joinLines current (lines (x ++ t)) := by
  obtain ⟨front, x, hx, hlines⟩ := exists_lines_append s
  obtain ⟨done, current, hjoin⟩ := exists_joinLines_append [] front
  have hall : ∀ t, joinContinuations (s ++ t) = done ++ joinLines current (lines (x ++ t)) :=
    fun t => by rw [joinContinuations, hlines, hjoin]
  refine ⟨done, current, x, hx, ?_, hall⟩
  have hmark : StartsLine ['.'] := ⟨['.'], [], rfl, List.cons_ne_nil _ _⟩
  have hline : joinContinuations ['.'] = [['.']] := rfl
  rw [lineFront, hall, joinLines_lines_append hx hmark, hline, List.modifyHead_cons,
    List.getLastD_concat, List.dropLast_concat]

/-- **A line break behind a backslash makes a blank**: what is put in a place becomes part of the
logical line there, and the lines in front of it and behind it stay as they are. -/
theorem joinContinuations_around (a : Str) {b : Str} (hb : lineBack b ≠ []) :
    ∃ before after,
      (∀ y, '\n' ∉ y → joinContinuations (a ++ (y ++ b)) =
        before ++ (lineFront a ++ (y ++ lineBack b)) :: after) ∧
      ∀ left newline right, '\n' ∉ left → newline = ['\n'] ∨ newline = ['\r', '\n'] →
        '\n' ∉ right → joinContinuations (a ++ (left ++ '\\' :: (newline ++ (right ++ b)))) =
          before ++ (lineFront a ++ (left ++ ' ' :: (right ++ lineBack b))) :: after := by
  obtain ⟨done, current, x, hx, hfront, hjoin⟩ := exists_joinContinuations a
  have hstarts := startsLine_of_lineBack hb
  have hback : joinContinuations b = lineBack b :: (joinContinuations b).tail := by
    cases hlines : joinContinuations b with
    | nil => rw [lineBack, hlines] at hb; exact absurd rfl hb
    | cons line rest => rw [lineBack, hlines]; rfl
  refine ⟨done, (joinContinuations b).tail, fun y hy => ?_, ?_⟩
  · have hxy : '\n' ∉ x ++ y := List.not_mem_append hx hy
    rw [hjoin, ← List.append_assoc, joinLines_lines_append hxy hstarts, hfront, hback,
      List.modifyHead_cons]
    simp
  · intro left newline right hleft hnewline hright
    have hxl : '\n' ∉ x ++ left := List.not_mem_append hx hleft
    rw [hjoin, ← List.append_assoc, lines_break hxl hnewline, joinLines_continued,
      joinLines_lines_append hright hstarts, hfront, hback, List.modifyHead_cons]
    simp

end Joined

end Crs

end Fywaf
