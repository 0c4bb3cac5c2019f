import Fywaf.Crs.ParseStr
import Fywaf.Std.Checks
import Fywaf.Std.Escapes
import Fywaf.Std.Slices

/-!
# The parser, slice by slice

The parser cuts texts at byte offsets: the length of a line less one, an offset that a search
found, that offset and one. Here every such cut is a slice that can fail, as in the source, and
all of them but the one in a variable name turn out not to: behind each of them is an ASCII
character that was found there. So the parser and its sliced form are one function.

## Main definitions

* `Crs.joinContinuationsSliced`, `Crs.findLastQuotedBlockStartSliced`, `Crs.splitFirstWsSliced`,
  `Crs.operatorPieces` — the functions that slice
* `Crs.parseSecruleSliced`, `Crs.parseStrSliced` — the parser over them

## Main results

* `Crs.scanOpeningQuote_eq_some_iff` — what the search for the opening quote finds
* `Crs.sliceTo_quotedBlock`, `Crs.sliceTo_closingQuote` — the slices around quotes
* `Crs.parseStrSliced_eq` — the sliced parser is the parser
-/

namespace Fywaf

namespace Crs

/-! ### Functions that slice -/

/-- `bytes[..i]`. -/
def bytesTo (bytes : Bytes) (i : ℕ) : Except Panic Bytes :=
  if i ≤ bytes.length then .ok (bytes.take i) else .error .slice

/-- `bytes[i]`. -/
def byteAt (bytes : Bytes) (i : ℕ) : Except Panic UInt8 := orFail bytes[i]? .slice

/-- The loop of `join_continuations`, with the slice that drops the backslash. -/
def joinLinesSliced : Str → List Str → Except Panic (List Str)
  | current, [] => .ok (if current = [] then [] else [current])
  | current, line :: rest =>
    if line.getLast? = some '\\' then do
      let front ← sliceTo line ((asBytes line).length - 1)
      joinLinesSliced (current ++ front ++ [' ']) rest
    else (joinLinesSliced [] rest).map ((current ++ line) :: ·)

/-- `join_continuations`. -/
def joinContinuationsSliced (input : Str) : Except Panic (List Str) :=
  joinLinesSliced [] (lines input)

/-- The loop of `find_last_quoted_block_start`, with the bytes before a quote as a slice. -/
def scanOpeningQuoteSliced (bytes : Bytes) : ℕ → Except Panic (Option ℕ)
  | 0 => .ok none
  | i + 1 => do
    let b ← byteAt bytes i
    if b = byte '"' then
      let before ← bytesTo bytes i
      if (before.reverse.takeWhile (· == byte '\\')).length % 2 = 0 then return some i
      else scanOpeningQuoteSliced bytes i
    else scanOpeningQuoteSliced bytes i

/-- `find_last_quoted_block_start`. -/
def findLastQuotedBlockStartSliced (s : Str) : Except Panic (Option ℕ) :=
  match lastPosition (byte '"') (asBytes s) with
  | none => .ok none
  | some close => scanOpeningQuoteSliced (asBytes s) close

/-- `split_first_ws`. -/
def splitFirstWsSliced (s : Str) : Except Panic (Option (Str × Str)) :=
  match findChar isAsciiWhitespace s with
  | none => .ok none
  | some idx => do
    let left ← sliceTo s idx
    let right ← sliceFrom s (idx + 1)
    return some (left, trimStart right)

/-- The name and the argument of an operator, as `parse_operator` slices them. -/
def operatorNameSliced (s : Str) : Except Panic (Str × Str) :=
  if s.head? = some '@' then do
    let rest ← sliceFrom s 1
    match findChar isAsciiWhitespace rest with
    | some i =>
      let opName ← sliceTo rest i
      let arg ← sliceFrom rest (i + 1)
      return (opName, trim arg)
    | none => return (rest, [])
  else .ok ("rx".toList, s)

/-- What `parse_operator` takes an operator apart into: whether it is negated, its name and its
argument. -/
def operatorPieces (s : Str) : Except Panic (Bool × Str × Str) := do
  let negated := s.head? == some '!'
  let s ← if negated then sliceFrom s 1 else .ok s
  return (negated, ← operatorNameSliced s)

/-- `parse_secrule`. -/
def parseSecruleSliced (input : Str) : Except Panic (Option (Rule × Bool)) := do
  let input := trim input
  match ← findLastQuotedBlockStartSliced input with
  | none => return none
  | some actionsOpen =>
    let beforeActions := trim (← sliceTo input actionsOpen)
    let actionsStr ← sliceFrom input (actionsOpen + 1)
    match findClosingQuote actionsStr with
    | none => return none
    | some actionsEnd =>
      let actionsRaw ← sliceTo actionsStr actionsEnd
      match ← splitFirstWsSliced beforeActions with
      | none => return none
      | some (varsStr, opStr) =>
        let vars ← parseVariables varsStr
        -- the pieces are those that the operator of the rule is made from
        let _ ← operatorPieces (trim (trimMatches (· == '"') (trim opStr)))
        return some (buildRule vars opStr actionsRaw)

/-- The loop body of `parse_str`. -/
def parseLineSliced (st : ParseState) (line : Str) : Except Panic ParseState :=
  let trimmed := trim line
  if trimmed = [] ∨ trimmed.head? = some '#' then .ok st
  else
    match stripPrefix "SecMarker".toList trimmed with
    | some rest =>
      let st := flushChain st
      .ok ⟨st.rules ++ [markerRule (markerName rest)], st.chainStack⟩
    | none =>
      match stripPrefix "SecRule".toList trimmed with
      | some rest =>
        match parseSecruleSliced (trim rest) with
        | .error e => .error e
        | .ok (some (rule, isChain)) => .ok (parseRule st rule isChain)
        | .ok none => .ok st
      | none => .ok (flushChain st)

/-- `parse_str`. -/
def parseStrSliced (input : Str) : Except Panic (List Rule) := do
  let logicalLines ← joinContinuationsSliced input
  let st ← logicalLines.foldlM parseLineSliced ⟨[], []⟩
  return (flushChain st).rules

/-! ### Slices that do not fail -/

section Slices

variable {s : Str} {c : Char} {i : ℕ}

/-- A text that starts with an ASCII character can be cut behind it. -/
theorem sliceFrom_one (hc : c.toNat < 0x80) (h : s.head? = some c) :
    sliceFrom s 1 = .ok s.tail := by
  obtain ⟨t, rfl⟩ := List.head?_eq_some_iff.mp h
  exact sliceFrom_behind hc [] t

theorem ascii_of_isAsciiWhitespace (h : isAsciiWhitespace c = true) : c.toNat < 0x80 := by
  simp only [isAsciiWhitespace, Bool.or_eq_true, beq_iff_eq] at h
  rcases h with (((rfl | rfl) | rfl) | rfl) | rfl
  all_goals decide

/-- The last character of a line is dropped by a slice when it is a backslash. -/
theorem sliceTo_backslash (h : s.getLast? = some '\\') :
    sliceTo s ((asBytes s).length - 1) = .ok s.dropLast := by
  obtain ⟨front, rfl⟩ := List.getLast?_eq_some_iff.mp h
  rw [length_asBytes_concat (by decide), Nat.add_sub_cancel, List.dropLast_concat]
  exact sliceTo_append _ _

theorem joinLinesSliced_eq (ls : List Str) (current : Str) :
    joinLinesSliced current ls = .ok (joinLines current ls) := by
  induction ls generalizing current with
  | nil => rfl
  | cons line rest ih =>
    rw [joinLinesSliced, joinLines]
    by_cases hlast : line.getLast? = some '\\'
    · rw [if_pos hlast, if_pos hlast, sliceTo_backslash hlast]
      exact ih _
    · rw [if_neg hlast, if_neg hlast, ih]
      rfl

/-- A byte that is looked at is there, and so are the bytes before it. -/
theorem scanOpeningQuoteSliced_eq {bytes : Bytes} (h : i ≤ bytes.length) :
    scanOpeningQuoteSliced bytes i = .ok (scanOpeningQuote bytes i) := by
  induction i with
  | zero => rfl
  | succ i ih =>
    have hget : bytes[i]? = some bytes[i] := List.getElem?_eq_getElem h
    rw [scanOpeningQuoteSliced, scanOpeningQuote, byteAt, hget, bytesTo,
      if_pos (Nat.le_of_succ_le h), ih (Nat.le_of_succ_le h)]
    simp only [orFail, bind, Except.bind, pure, Except.pure, Option.some.injEq]
    by_cases hquote : bytes[i] = byte '"'
    · simp only [hquote, if_true, true_and]
      split <;> rfl
    · simp only [hquote, if_false, false_and]

theorem lastPosition_lt {b : UInt8} {bytes : Bytes} (h : lastPosition b bytes = some i) :
    i < bytes.length := by
  obtain ⟨j, hj, rfl⟩ := Option.map_eq_some_iff.mp h
  obtain ⟨hlt, -⟩ := List.findIdx?_eq_some_iff_findIdx_eq.mp hj
  rw [List.length_reverse] at hlt
  omega

theorem findLastQuotedBlockStartSliced_eq (s : Str) :
    findLastQuotedBlockStartSliced s = .ok (findLastQuotedBlockStart s) := by
  rw [findLastQuotedBlockStartSliced, findLastQuotedBlockStart]
  cases hclose : lastPosition (byte '"') (asBytes s) with
  | none => rfl
  | some close => exact scanOpeningQuoteSliced_eq (Nat.le_of_lt (lastPosition_lt hclose))

/-- A text is cut at its first ASCII blank, and behind it. -/
theorem splitFirstBlank (s : Str) :
    (findChar isAsciiWhitespace s = none ∧ s.dropWhile (fun c => !isAsciiWhitespace c) = []) ∨
      ∃ i left sep right, findChar isAsciiWhitespace s = some i ∧
        sliceTo s i = .ok left ∧ sliceFrom s (i + 1) = .ok right ∧
        s.takeWhile (fun c => !isAsciiWhitespace c) = left ∧
        s.dropWhile (fun c => !isAsciiWhitespace c) = sep :: right := by
  have hcut := List.takeWhile_append_dropWhile (p := fun c => !isAsciiWhitespace c) (l := s)
  have hleft : ∀ d ∈ s.takeWhile (fun c => !isAsciiWhitespace c), isAsciiWhitespace d = false :=
    fun d hd => by simpa using List.mem_takeWhile_imp hd
  cases hdrop : s.dropWhile (fun c => !isAsciiWhitespace c) with
  | nil =>
    rw [hdrop, List.append_nil] at hcut
    exact Or.inl ⟨findChar_eq_none_iff.mpr (hcut ▸ hleft), rfl⟩
  | cons sep right =>
    have hsep : isAsciiWhitespace sep = true := by
      have hnot := List.head_dropWhile_not (fun c => !isAsciiWhitespace c)
        (l := s) (by rw [hdrop]; exact List.cons_ne_nil _ _)
      simpa [hdrop] using hnot
    rw [hdrop] at hcut
    generalize s.takeWhile (fun c => !isAsciiWhitespace c) = left at hcut hleft
    subst hcut
    exact Or.inr ⟨_, left, sep, right, findChar_append hleft hsep right, sliceTo_append _ _,
      sliceFrom_behind (ascii_of_isAsciiWhitespace hsep) _ _, rfl, rfl⟩

/-- **What the search to the left finds**: a quote that is not escaped, with only escaped ones
between it and the start. -/
theorem scanOpeningQuote_eq_some_iff {bytes : Bytes} {n : ℕ} :
    scanOpeningQuote bytes n = some i ↔
      i < n ∧ bytes[i]? = some (byte '"') ∧ ¬ OpenEnd (byte '\\') (bytes.take i) ∧
        ∀ j, i < j → j < n → bytes[j]? = some (byte '"') →
          OpenEnd (byte '\\') (bytes.take j) := by
  induction n with
  | zero => exact iff_of_false (fun h => by cases h) fun h => Nat.not_lt_zero i h.1
  | succ n ih =>
    have hparity : ((bytes.take n).reverse.takeWhile (· == byte '\\')).length % 2 = 0 ↔
        ¬ OpenEnd (byte '\\') (bytes.take n) := Nat.mod_two_ne_one.symm
    rw [scanOpeningQuote, if_congr (and_congr_right fun _ => hparity) rfl rfl]
    split
    · next hfound =>
      constructor
      · intro h
        obtain rfl := Option.some.inj h
        exact ⟨Nat.lt_succ_self n, hfound.1, hfound.2, fun j hnj hjn => by omega⟩
      · rintro ⟨hin, -, -, hskip⟩
        rcases Nat.lt_succ_iff_lt_or_eq.mp hin with hlt | rfl
        · exact absurd (hskip n hlt (Nat.lt_succ_self n) hfound.1) hfound.2
        · rfl
    · next hpass =>
      rw [ih]
      constructor
      · rintro ⟨hin, hquote, hopen, hskip⟩
        refine ⟨Nat.lt_succ_of_lt hin, hquote, hopen, fun j hij hjn hj => ?_⟩
        rcases Nat.lt_succ_iff_lt_or_eq.mp hjn with hlt | rfl
        · exact hskip j hij hlt hj
        · exact of_not_not fun hclosed => hpass ⟨hj, hclosed⟩
      · rintro ⟨hin, hquote, hopen, hskip⟩
        rcases Nat.lt_succ_iff_lt_or_eq.mp hin with hlt | rfl
        · exact ⟨hlt, hquote, hopen, fun j hij hjn => hskip j hij (Nat.lt_succ_of_lt hjn)⟩
        · exact absurd ⟨hquote, hopen⟩ hpass

/-- What is found from a position on is a quote. -/
theorem getElem?_of_closingQuoteFrom {n : ℕ} {bytes : Bytes}
    (h : closingQuoteFrom n bytes = some i) :
    ∃ k, i = n + k ∧ bytes[k]? = some (byte '"') := by
  induction n, bytes using closingQuoteFrom.induct with
  | case1 n => cases h
  | case2 n =>
    rw [closingQuoteFrom, if_pos rfl] at h
    obtain rfl := Option.some.inj h
    exact ⟨0, rfl, rfl⟩
  | case3 n b hquote =>
    rw [closingQuoteFrom, if_neg hquote] at h
    cases h
  | case4 n c rest ih =>
    rw [closingQuoteFrom, if_pos rfl] at h
    obtain ⟨k, rfl, hk⟩ := ih h
    exact ⟨k + 2, by omega, hk⟩
  | case5 n c rest hne =>
    rw [closingQuoteFrom, if_neg hne, if_pos rfl] at h
    obtain rfl := Option.some.inj h
    exact ⟨0, rfl, rfl⟩
  | case6 n b c rest hback hquote ih =>
    rw [closingQuoteFrom, if_neg hback, if_neg hquote] at h
    obtain ⟨k, rfl, hk⟩ := ih h
    exact ⟨k + 1, by omega, hk⟩

/-- **The slices around an opening quote.** -/
theorem sliceTo_quotedBlock (h : findLastQuotedBlockStart s = some i) :
    ∃ before behind, sliceTo s i = .ok before ∧ sliceFrom s (i + 1) = .ok behind := by
  obtain ⟨close, -, hscan⟩ := Option.bind_eq_some_iff.mp h
  obtain ⟨before, behind, rfl, rfl⟩ :=
    exists_of_getElem?_asBytes (by decide) (scanOpeningQuote_eq_some_iff.mp hscan).2.1
  exact ⟨before, behind, sliceTo_append _ _, sliceFrom_behind (by decide) _ _⟩

/-- **The slice up to a closing quote.** -/
theorem sliceTo_closingQuote (h : findClosingQuote s = some i) :
    ∃ inside, sliceTo s i = .ok inside := by
  obtain ⟨k, hk, hquote⟩ := getElem?_of_closingQuoteFrom h
  rw [Nat.zero_add] at hk
  obtain ⟨inside, behind, rfl, rfl⟩ :=
    exists_of_getElem?_asBytes (by decide) (hk ▸ hquote)
  exact ⟨inside, sliceTo_append _ _⟩

theorem splitFirstWsSliced_eq (s : Str) : splitFirstWsSliced s = .ok (splitFirstWs s) := by
  rw [splitFirstWsSliced, splitFirstWs]
  rcases splitFirstBlank s with ⟨hnone, hdrop⟩ |
    ⟨i, left, sep, right, hsome, hto, hfrom, htake, hdrop⟩
  · rw [hnone, hdrop]
  · simp only [hsome, hdrop, hto, hfrom, htake]
    rfl

/-- Name and argument are what is before and behind the first blank. -/
theorem operatorNameSliced_eq (s : Str) : operatorNameSliced s = .ok (operatorName s) := by
  rw [operatorNameSliced]
  by_cases hat : s.head? = some '@'
  · obtain ⟨rest, rfl⟩ := List.head?_eq_some_iff.mp hat
    rw [if_pos hat, sliceFrom_one (by decide) hat, List.tail_cons, operatorName]
    rcases splitFirstBlank rest with ⟨hnone, hdrop⟩ |
      ⟨i, left, sep, right, hsome, hto, hfrom, htake, hdrop⟩
    · simp only [bind, Except.bind, hnone, hdrop]
      rfl
    · simp only [bind, Except.bind, hsome, hdrop, hto, hfrom, htake]
      rfl
  · rw [if_neg hat]
    cases s with
    | nil => rfl
    | cons c s =>
      have hc : c ≠ '@' := fun h => hat (by rw [h, List.head?_cons])
      rw [operatorName.eq_2]
      exact fun rest h => hc (List.cons.inj h).1

/-- **The pieces of an operator** are those that it is parsed from. -/
theorem operatorPieces_eq (s : Str) :
    operatorPieces s = .ok (s.head? == some '!',
      operatorName (if s.head? == some '!' then s.tail else s)) := by
  rw [operatorPieces]
  by_cases hneg : s.head? = some '!'
  · simp only [hneg, beq_self_eq_true, if_true, sliceFrom_one (by decide) hneg, bind, Except.bind,
      operatorNameSliced_eq]
    rfl
  · simp only [beq_false_of_ne hneg, Bool.false_eq_true, if_false, bind, Except.bind,
      operatorNameSliced_eq]
    rfl

end Slices

/-! ### The sliced parser -/

theorem parseSecruleSliced_eq (input : Str) : parseSecruleSliced input = parseSecrule input := by
  simp only [parseSecruleSliced, parseSecrule, findLastQuotedBlockStartSliced_eq,
    splitFirstWsSliced_eq, operatorPieces_eq]
  rfl

theorem parseLineSliced_eq (st : ParseState) (line : Str) :
    parseLineSliced st line = parseLine st line := by
  simp only [parseLineSliced, parseSecruleSliced_eq]
  rfl

theorem foldlM_parseLineSliced (ls : List Str) (st : ParseState) :
    ls.foldlM parseLineSliced st = parseLines st ls := by
  induction ls generalizing st with
  | nil => rfl
  | cons line ls ih =>
    rw [List.foldlM_cons, parseLineSliced_eq, parseLines]
    cases parseLine st line with
    | error e => rfl
    | ok st => exact ih st

/-- **The sliced parser is the parser.** -/
theorem parseStrSliced_eq (input : Str) : parseStrSliced input = parseStr input := by
  rw [parseStrSliced, joinContinuationsSliced, joinLinesSliced_eq, parseStr, joinContinuations]
  simp only [bind, Except.bind, foldlM_parseLineSliced]
  cases parseLines ⟨[], []⟩ (joinLines [] (lines input)) <;> rfl

end Crs

end Fywaf
