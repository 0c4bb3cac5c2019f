import Fywaf.Crs.SkipTargets
import Fywaf.Crs.Sliced
import Fywaf.Std.Escapes

/-!
# Rule lines as they are written

A rule line is written as three fields with blanks between, the actions in quotes at the end. The
parser looks for the actions from both sides: backwards for the quote that opens them, forwards for
the one that closes them. Both are found when every quote inside is escaped.

## Main definitions

* `Crs.ActionsText` — a text that can stand in quotes as the actions of a rule

## Main results

* `Crs.findLastQuotedBlockStart_written` — the opening quote that is found is the one written
* `Crs.findClosingQuote_written` — so is the closing quote
* `Crs.secruleFields_written` — the fields that are read are the ones written
-/

namespace Fywaf

namespace Crs

/-- The text can stand in double quotes. -/
abbrev ActionsText (s : Str) : Prop := QuotedBody '\\' '"' s

variable {s t : Str}

/-- A backslash is not blank. -/
theorem IsBlank.escape_notMem (h : IsBlank s) : '\\' ∉ s :=
  fun hmem => absurd (h _ hmem) (by decide)

/-! ### Bytes -/

/-- Backslashes at the end are counted alike in the text and in its bytes. -/
theorem openEnd_asBytes : OpenEnd (byte '\\') (asBytes s) ↔ OpenEnd '\\' s := by
  induction s using List.reverseRecOn with
  | nil => exact iff_of_false not_openEnd_nil not_openEnd_nil
  | append_singleton s c ih =>
    rw [asBytes_append, asBytes_cons, asBytes_nil, List.append_nil, openEnd_concat]
    by_cases hc : c.toNat < 0x80
    · have hencode : String.utf8EncodeChar c = [byte c] := encode_ascii hc
      rw [hencode, openEnd_concat, ih, byte_eq_byte_iff hc (by decide)]
    · -- no byte of a longer character is a backslash
      obtain ⟨b, bs, he, hhigh, hlead⟩ := encode_high c
      have hall : ∀ x ∈ b :: bs, 0x80 ≤ x.toNat :=
        List.forall_mem_cons.mpr ⟨Nat.le_trans (by decide) (hlead (Nat.not_lt.mp hc)), hhigh⟩
      have hne : c ≠ '\\' := by
        rintro rfl
        exact hc (by decide)
      refine iff_of_false (fun hopen => ?_) fun h => hne h.1
      obtain ⟨init, x, hx⟩ : ∃ init x, b :: bs = init ++ [x] :=
        (List.eq_nil_or_concat' _).resolve_left (List.cons_ne_nil b bs)
      rw [he, hx, ← List.append_assoc, openEnd_concat] at hopen
      have hbyte := hall x (by rw [hx]; simp)
      rw [hopen.1] at hbyte
      exact absurd hbyte (by decide)

/-! ### The opening quote -/

theorem lastPosition_append {b : UInt8} {front back : Bytes} (h : b ∉ back) :
    lastPosition b (front ++ b :: back) = some front.length := by
  have hnone : back.reverse.findIdx? (· == b) = none := by
    rw [List.findIdx?_eq_none_iff]
    intro x hx
    rw [beq_eq_false_iff_ne]
    rintro rfl
    exact h (List.mem_reverse.mp hx)
  have hfind : (front ++ b :: back).reverse.findIdx? (· == b) = some back.length := by
    rw [List.reverse_append, List.reverse_cons, List.append_assoc, List.findIdx?_append, hnone,
      List.singleton_append, List.findIdx?_cons, if_pos (beq_self_eq_true b)]
    simp
  rw [lastPosition, hfind, Option.map_some, List.length_append, List.length_cons]
  congr 1
  omega

/-- **The opening quote that is found** is the one written. -/
theorem findLastQuotedBlockStart_written {front actions : Str} (hfront : ¬ OpenEnd '\\' front)
    (hactions : ActionsText actions) :
    findLastQuotedBlockStart (front ++ '"' :: (actions ++ ['"'])) =
      some (asBytes front).length := by
  have hq : '"'.toNat < 0x80 := by decide
  have hbytes : asBytes (front ++ '"' :: (actions ++ ['"'])) =
      (asBytes front ++ byte '"' :: asBytes actions) ++ [byte '"'] := by
    rw [asBytes_append, asBytes_cons_ascii hq, asBytes_append, asBytes_cons_ascii hq, asBytes_nil,
      List.append_assoc, List.cons_append]
  have hfind : lastPosition (byte '"') (asBytes (front ++ '"' :: (actions ++ ['"']))) =
      some (asBytes front ++ byte '"' :: asBytes actions).length := by
    rw [hbytes]
    exact lastPosition_append List.not_mem_nil
  rw [findLastQuotedBlockStart, hfind, Option.bind_some, hbytes]
  refine scanOpeningQuote_eq_some_iff.mpr ⟨by simp, by simp, ?_, ?_⟩
  · rw [List.append_assoc, List.take_left, openEnd_asBytes]
    exact hfront
  · intro j hfj hj hquote
    -- a quote in between is one of the actions, and escaped there
    obtain ⟨k, rfl⟩ : ∃ k, j = (asBytes front).length + (k + 1) := ⟨j - (asBytes front).length - 1,
      by omega⟩
    have hk : k < (asBytes actions).length := by
      rw [List.length_append, List.length_cons] at hj
      omega
    have hget : (asBytes actions)[k]? = some (byte '"') := by
      rw [List.getElem?_append_left hj, List.getElem?_append_right (by omega)] at hquote
      simpa using hquote
    obtain ⟨a, b, rfl, rfl⟩ := exists_of_getElem?_asBytes hq hget
    have htake : (asBytes front ++ byte '"' :: asBytes (a ++ '"' :: b) ++ [byte '"']).take
        ((asBytes front).length + ((asBytes a).length + 1)) =
          asBytes front ++ byte '"' :: asBytes a := by
      rw [asBytes_append, List.append_assoc, List.take_length_add_append, List.cons_append,
        List.take_succ_cons, List.append_assoc, List.take_left]
    rw [htake, openEnd_behind (by decide), openEnd_asBytes]
    exact hactions.escaped a b rfl

/-! ### The closing quote -/

/-- A byte that hides none behind it. -/
theorem closingQuoteFrom_cons {b : UInt8} (hb : b ≠ byte '\\') (i : ℕ) (rest : Bytes) :
    closingQuoteFrom i (b :: rest) =
      if b = byte '"' then some i else closingQuoteFrom (i + 1) rest := by
  cases rest with
  | nil => rfl
  | cons c rest => rw [closingQuoteFrom, if_neg hb]

/-- Bytes that are not ASCII are passed over. -/
theorem closingQuoteFrom_high {bs : Bytes} (h : ∀ b ∈ bs, 0x80 ≤ b.toNat) (i : ℕ) (rest : Bytes) :
    closingQuoteFrom i (bs ++ rest) = closingQuoteFrom (i + bs.length) rest := by
  induction bs generalizing i with
  | nil => rfl
  | cons b bs ih =>
    obtain ⟨hb, hbs⟩ := List.forall_mem_cons.mp h
    have hne : ∀ c : Char, c.toNat < 0x80 → b ≠ byte c := by
      rintro c hc rfl
      rw [byte, toNat_ofNat_of_lt (by omega)] at hb
      omega
    rw [List.cons_append, closingQuoteFrom_cons (hne '\\' (by decide)),
      if_neg (hne '"' (by decide)), ih hbs, List.length_cons]
    congr 1
    omega

/-- A character that is neither a backslash nor a quote is passed over. -/
theorem closingQuoteFrom_char {c : Char} (hescape : c ≠ '\\') (hquote : c ≠ '"') (i : ℕ)
    (rest : Bytes) : closingQuoteFrom i (String.utf8EncodeChar c ++ rest) =
      closingQuoteFrom (i + c.utf8Size) rest := by
  by_cases hc : c.toNat < 0x80
  · have hbyte : ∀ d : Char, d.toNat < 0x80 → c ≠ d → byte c ≠ byte d :=
      fun d hd hne => mt (byte_eq_byte_iff hc hd).mp hne
    have hencode : String.utf8EncodeChar c = [byte c] := encode_ascii hc
    rw [hencode, List.singleton_append,
      closingQuoteFrom_cons (hbyte _ (by decide) hescape), if_neg (hbyte _ (by decide) hquote),
      utf8Size_eq_one_iff.mpr hc]
  · obtain ⟨b, bs, he, hhigh, hlead⟩ := encode_high c
    have hall : ∀ x ∈ b :: bs, 0x80 ≤ x.toNat :=
      List.forall_mem_cons.mpr ⟨Nat.le_trans (by decide) (hlead (Nat.not_lt.mp hc)), hhigh⟩
    rw [← String.length_utf8EncodeChar, he, closingQuoteFrom_high hall]

/-- A backslash hides the character behind it. -/
theorem closingQuoteFrom_escape (c : Char) (i : ℕ) (rest : Bytes) :
    closingQuoteFrom i (byte '\\' :: (String.utf8EncodeChar c ++ rest)) =
      closingQuoteFrom (i + 1 + c.utf8Size) rest := by
  obtain ⟨b, bs, he, hhigh, -⟩ := encode_high c
  have hsize : c.utf8Size = bs.length + 1 := by
    rw [← String.length_utf8EncodeChar, he, List.length_cons]
  rw [he, List.cons_append, closingQuoteFrom, if_pos rfl, closingQuoteFrom_high hhigh, hsize]
  congr 1
  omega

theorem closingQuoteFrom_written {actions : Str} (h : ActionsText actions) (i : ℕ)
    (back : Bytes) : closingQuoteFrom i (asBytes actions ++ byte '"' :: back) =
      some (i + (asBytes actions).length) := by
  have hclose : ∀ i, closingQuoteFrom i (byte '"' :: back) = some i := fun i => by
    rw [closingQuoteFrom_cons (by decide), if_pos rfl]
  have hplain : ∀ {c : Char} {l : Str}, c ≠ '\\' → ActionsText (c :: l) →
      (∀ i, closingQuoteFrom i (asBytes l ++ byte '"' :: back) = some (i + (asBytes l).length)) →
      ∀ i, closingQuoteFrom i (asBytes (c :: l) ++ byte '"' :: back) =
        some (i + (asBytes (c :: l)).length) := by
    intro c l hc hl ih i
    rw [asBytes_cons, List.append_assoc, closingQuoteFrom_char hc hl.head_ne, ih,
      List.length_append, String.length_utf8EncodeChar, Nat.add_assoc]
  induction actions using List.twoStepInduction generalizing i with
  | nil => exact hclose i
  | singleton c =>
    have hc : c ≠ '\\' := by
      rintro rfl
      exact QuotedBody.not_singleton h
    exact hplain hc h hclose i
  | cons_cons c d l ih ih' =>
    by_cases hc : c = '\\'
    · subst hc
      rw [asBytes_cons_ascii (by decide), asBytes_cons, List.cons_append, List.append_assoc,
        closingQuoteFrom_escape, ih h.of_pair, List.length_cons, List.length_append,
        String.length_utf8EncodeChar]
      congr 1
      omega
    · exact hplain hc h (fun i => ih' d (h.of_cons hc) i) i

/-- **The closing quote that is found** is the one written. -/
theorem findClosingQuote_written {actions : Str} (h : ActionsText actions) (back : Str) :
    findClosingQuote (actions ++ '"' :: back) = some (asBytes actions).length := by
  rw [findClosingQuote, asBytes_append, asBytes_cons_ascii (by decide), closingQuoteFrom_written h,
    Nat.zero_add]

/-! ### The fields -/

/-- The variables are cut off at the first blank. -/
theorem splitFirstWs_written {vars gap opStr : Str} {sep : Char}
    (hvars : ∀ c ∈ vars, isAsciiWhitespace c = false) (hsep : isAsciiWhitespace sep = true)
    (hgap : IsBlank gap) (hop : ∀ c ∈ opStr.head?, isWhitespace c = false) :
    splitFirstWs (vars ++ sep :: (gap ++ opStr)) = some (vars, opStr) := by
  have hall : ∀ c ∈ vars, (!isAsciiWhitespace c) = true := fun c hc => by rw [hvars c hc]; rfl
  have hstop : ¬ (!isAsciiWhitespace sep) = true := by simp [hsep]
  have hdrop : (vars ++ sep :: (gap ++ opStr)).dropWhile (fun c => !isAsciiWhitespace c) =
      sep :: (gap ++ opStr) := by
    rw [List.dropWhile_append_of_pos hall]
    exact List.dropWhile_cons_of_neg hstop
  have htake :
      (vars ++ sep :: (gap ++ opStr)).takeWhile (fun c => !isAsciiWhitespace c) = vars := by
    rw [List.takeWhile_append_of_pos hall]
    exact (congrArg (vars ++ ·) (List.takeWhile_cons_of_neg hstop)).trans (List.append_nil vars)
  have hstart : trimStart (gap ++ opStr) = opStr := by
    rw [trimStart, List.dropWhile_append_of_pos hgap]
    cases opStr with
    | nil => rfl
    | cons c opStr => exact List.dropWhile_cons_of_neg (by simp [hop c rfl])
  rw [splitFirstWs, hdrop]
  dsimp only
  rw [htake, hstart]

/-- The actions are cut off, and what is in front of them is trimmed. -/
theorem secruleFields_quoted {front gap actions back : Str} (hne : front ≠ [])
    (hclean : CleanEnds isWhitespace front) (hgap : IsBlank gap)
    (hopen : ¬ OpenEnd '\\' (front ++ gap)) (hactions : ActionsText actions)
    (hback : IsBlank back) :
    secruleFields (front ++ (gap ++ '"' :: (actions ++ '"' :: back))) =
      .ok ((splitFirstWs front).map fun fields => (fields.1, fields.2, actions)) := by
  have hq : '"'.toNat < 0x80 := by decide
  have htrim : trim (front ++ (gap ++ '"' :: (actions ++ '"' :: back))) =
      front ++ gap ++ '"' :: (actions ++ ['"']) := by
    have hassoc : front ++ (gap ++ '"' :: (actions ++ '"' :: back)) =
        front ++ (gap ++ '"' :: (actions ++ ['"'])) ++ back := by simp
    have hlast : ∀ c ∈ (gap ++ '"' :: (actions ++ ['"'])).getLast?, isWhitespace c = false := by
      rw [List.getLast?_append_of_ne_nil _ (List.cons_ne_nil _ _), ← List.cons_append,
        List.getLast?_concat]
      intro c hc
      obtain rfl := Option.some.inj hc
      decide
    have hends := cleanEnds_append hne (by simp) hclean.head hlast
    rw [hassoc, trim, trimMatches_append_blank hback, trimMatches_of_cleanEnds hends,
      List.append_assoc]
  have hbefore : trim (front ++ gap) = front := by
    rw [trim, trimMatches_append_blank hgap, trimMatches_of_cleanEnds hclean]
  have hto : sliceTo (front ++ gap ++ '"' :: (actions ++ ['"'])) (asBytes (front ++ gap)).length =
      .ok (front ++ gap) := sliceTo_append _ _
  have hfrom : sliceFrom (front ++ gap ++ '"' :: (actions ++ ['"']))
      ((asBytes (front ++ gap)).length + 1) = .ok (actions ++ ['"']) := sliceFrom_behind hq _ _
  have hinside : sliceTo (actions ++ ['"']) (asBytes actions).length = .ok actions :=
    sliceTo_append _ _
  rw [secruleFields]
  simp only [htrim, findLastQuotedBlockStart_written hopen hactions, hto, hfrom,
    findClosingQuote_written hactions [], hinside, hbefore, bind, Except.bind]
  cases splitFirstWs front with
  | none => rfl
  | some fields => rfl

/-- **The fields that are read** are the ones written, whatever blanks are between them. -/
theorem secruleFields_written {vars gap opStr gap' actions back : Str} {sep : Char}
    (hne : vars ≠ []) (hhead : ∀ c ∈ vars.head?, isWhitespace c = false)
    (hvars : ∀ c ∈ vars, isAsciiWhitespace c = false) (hsep : isAsciiWhitespace sep = true)
    (hgap : IsBlank gap) (hop : opStr ≠ []) (hclean : CleanEnds isWhitespace opStr)
    (hgap' : IsBlank gap') (hopen : ¬ OpenEnd '\\' (opStr ++ gap'))
    (hactions : ActionsText actions) (hback : IsBlank back) :
    secruleFields (vars ++ sep :: (gap ++ (opStr ++ (gap' ++ '"' :: (actions ++ '"' :: back))))) =
      .ok (some (vars, opStr, actions)) := by
  have hfront : ¬ OpenEnd '\\' (vars ++ sep :: (gap ++ opStr) ++ gap') := by
    have hne : sep ≠ '\\' := by
      rintro rfl
      cases hsep
    rw [List.append_assoc, List.cons_append, List.append_assoc, openEnd_behind hne,
      openEnd_append_of_notMem hgap.escape_notMem]
    exact hopen
  have hends : CleanEnds isWhitespace (vars ++ sep :: (gap ++ opStr)) := by
    refine cleanEnds_append hne (List.cons_ne_nil _ _) hhead ?_
    rw [← List.cons_append, List.getLast?_append_of_ne_nil _ hop]
    exact hclean.last
  have hread := secruleFields_quoted (List.append_ne_nil_of_left_ne_nil hne _) hends hgap' hfront
    hactions hback
  rw [splitFirstWs_written hvars hsep hgap hclean.head] at hread
  simpa using hread

end Crs

end Fywaf
