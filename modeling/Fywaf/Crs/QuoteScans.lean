import Fywaf.Crs.WrittenLine

/-!
# The two scans for quotes

The quote that opens the actions of a rule is looked for from the last quote of the line backwards,
counting the backslashes in front of each quote, and the one that closes them from there forwards,
passing over escaped bytes in pairs. Both scans agree about what is escaped, so the forward scan
ends at the quote from which the other one set out, if that one is not escaped.

## Main definitions

* `Crs.ClosesAt` — the last quote of a text, when it is not escaped
* `Crs.Between` — a text between two quotes

## Main results

* `Crs.exists_between` — what is between the quotes can stand in quotes
* `Crs.findClosingQuote_of_blockStart` — the forward scan finds the last quote
* `Crs.secruleFields_between` — the actions of a rule line are the text between the quotes
-/

namespace Fywaf

namespace Crs

/-- The last quote of the text is at this byte, behind an even run of backslashes. -/
structure ClosesAt (s : Str) (c : ℕ) : Prop where
  quote : (asBytes s)[c]? = some (byte '"')
  last : ∀ j, c < j → (asBytes s)[j]? ≠ some (byte '"')
  even : ¬ OpenEnd (byte '\\') ((asBytes s).take c)

variable {s : Str} {i c : ℕ}

/-- The backward scan starts at the last quote. -/
theorem ClosesAt.lastPosition (h : ClosesAt s c) :
    lastPosition (byte '"') (asBytes s) = some c := by
  obtain ⟨hlt, hget⟩ := List.getElem?_eq_some_iff.mp h.quote
  have hcut : asBytes s = (asBytes s).take c ++ byte '"' :: (asBytes s).drop (c + 1) := by
    rw [← hget, List.getElem_cons_drop, List.take_append_drop]
  have hnone : byte '"' ∉ (asBytes s).drop (c + 1) := by
    intro hmem
    obtain ⟨k, hk⟩ := List.mem_iff_getElem?.mp hmem
    rw [List.getElem?_drop] at hk
    exact h.last _ (by omega) hk
  rw [hcut, lastPosition_append hnone, List.length_take, Nat.min_eq_left (Nat.le_of_lt hlt)]

/-! ### Between the quotes -/

/-- The text is between the quotes at these two bytes. -/
def Between (s : Str) (i c : ℕ) (actions : Str) : Prop :=
  ∃ front back, s = front ++ '"' :: (actions ++ '"' :: back) ∧ (asBytes front).length = i ∧
    (asBytes (front ++ '"' :: actions)).length = c

theorem take_asBytes (a b : Str) : (asBytes (a ++ b)).take (asBytes a).length = asBytes a := by
  rw [asBytes_append, List.take_left]

theorem getElem?_asBytes_quote (a b : Str) :
    (asBytes (a ++ '"' :: b))[(asBytes a).length]? = some (byte '"') := by
  rw [asBytes_append, asBytes_cons_ascii (by decide), List.getElem?_append_right (Nat.le_refl _),
    Nat.sub_self, List.getElem?_cons_zero]

theorem length_lt_behind_quote (a b : Str) :
    (asBytes a).length < (asBytes (a ++ '"' :: b)).length := by
  rw [asBytes_append, asBytes_cons_ascii (by decide), List.length_append, List.length_cons]
  omega

/-- **What is between the quotes can stand in quotes.** -/
theorem exists_between (hopen : findLastQuotedBlockStart s = some i) (hclose : ClosesAt s c) :
    ∃ actions, Between s i c actions ∧ ActionsText actions := by
  have hq : '"'.toNat < 0x80 := by decide
  rw [findLastQuotedBlockStart, hclose.lastPosition, Option.bind_some,
    scanOpeningQuote_eq_some_iff] at hopen
  obtain ⟨hic, hquote, -, hskip⟩ := hopen
  obtain ⟨before, back, rfl, rfl⟩ := exists_of_getElem?_asBytes hq hclose.quote
  have hinside : (asBytes before)[i]? = some (byte '"') := by
    rwa [asBytes_append, List.getElem?_append_left hic] at hquote
  obtain ⟨front, actions, rfl, rfl⟩ := exists_of_getElem?_asBytes hq hinside
  have hescape : '"' ≠ '\\' := by decide
  have heven := hclose.even
  rw [take_asBytes, openEnd_asBytes, openEnd_behind hescape] at heven
  refine ⟨actions, ⟨front, back, by simp, rfl, rfl⟩, ⟨?_, heven⟩⟩
  rintro a b rfl
  have hbefore : front ++ '"' :: (a ++ '"' :: b) = front ++ '"' :: a ++ '"' :: b := by simp
  have hodd := hskip (asBytes (front ++ '"' :: a)).length (length_lt_behind_quote _ _)
    (by rw [hbefore]; exact length_lt_behind_quote _ _)
    (by rw [hbefore, List.append_assoc]; exact getElem?_asBytes_quote _ _)
  rwa [hbefore, List.append_assoc, take_asBytes, openEnd_asBytes, openEnd_behind hescape] at hodd

/-- **The forward scan finds the last quote**, and what is cut off is the text between. -/
theorem findClosingQuote_of_blockStart (hopen : findLastQuotedBlockStart s = some i)
    (hclose : ClosesAt s c) : ∃ actionsStr actionsRaw,
      sliceFrom s (i + 1) = .ok actionsStr ∧ findClosingQuote actionsStr = some (c - i - 1) ∧
        sliceTo actionsStr (c - i - 1) = .ok actionsRaw ∧ Between s i c actionsRaw := by
  obtain ⟨actions, ⟨front, back, rfl, rfl, rfl⟩, hactions⟩ := exists_between hopen hclose
  have hlength : (asBytes (front ++ '"' :: actions)).length - (asBytes front).length - 1 =
      (asBytes actions).length := by
    rw [asBytes_append, asBytes_cons_ascii (by decide), List.length_append, List.length_cons]
    omega
  refine ⟨actions ++ '"' :: back, actions, sliceFrom_behind (by decide) _ _, ?_, ?_,
    ⟨front, back, rfl, rfl, rfl⟩⟩
  · rw [hlength, findClosingQuote_written hactions]
  · rw [hlength, sliceTo_append]

/-- A rule line ends at its last byte. -/
theorem closesAt_ruleLine : ClosesAt "ARGS \"@rx a\" \"id:1\"".toList 18 where
  quote := by decide
  last j hj := by
    have hend : (asBytes "ARGS \"@rx a\" \"id:1\"".toList)[j]? = none :=
      List.getElem?_eq_none (Nat.succ_le_of_lt hj)
    rw [hend]
    exact (Option.some_ne_none _).symm
  even := by decide

theorem findClosingQuote_ruleLine : ∃ actionsStr actionsRaw,
    sliceFrom "ARGS \"@rx a\" \"id:1\"".toList (13 + 1) = .ok actionsStr ∧
      findClosingQuote actionsStr = some (18 - 13 - 1) ∧
        sliceTo actionsStr (18 - 13 - 1) = .ok actionsRaw ∧
          Between "ARGS \"@rx a\" \"id:1\"".toList 13 18 actionsRaw :=
  findClosingQuote_of_blockStart (by decide) closesAt_ruleLine

/-- **The actions of a rule line are the text between the quotes.** -/
theorem secruleFields_between {input vars opStr actionsRaw : Str}
    (h : secruleFields input = .ok (some (vars, opStr, actionsRaw)))
    (hclose : ClosesAt (trim input) c) : ∃ i, Between (trim input) i c actionsRaw := by
  rw [secruleFields] at h
  generalize trim input = line at h hclose
  dsimp only at h
  cases hopen : findLastQuotedBlockStart line with
  | none =>
    rw [hopen] at h
    cases h
  | some i =>
    obtain ⟨actions, ⟨front, back, rfl, rfl, rfl⟩, hactions⟩ := exists_between hopen hclose
    have hto := sliceTo_append front ('"' :: (actions ++ '"' :: back))
    have hfrom := sliceFrom_behind (by decide : '"'.toNat < 0x80) front (actions ++ '"' :: back)
    have hinside := sliceTo_append actions ('"' :: back)
    simp only [hopen, hto, hfrom, findClosingQuote_written hactions, hinside, bind,
      Except.bind] at h
    split at h
    · cases h
    · obtain ⟨-, -, rfl⟩ : _ ∧ _ ∧ _ := by simpa [pure, Except.pure] using h
      exact ⟨_, front, back, rfl, rfl, rfl⟩

end Crs

end Fywaf
