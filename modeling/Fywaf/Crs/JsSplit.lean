import Fywaf.Crs.JsSpellings
import Fywaf.Crs.Plain
import Fywaf.Std.Escapes

/-!
# JavaScript escapes at a seam

The arms for `\u` and `\x` ask whether enough text is left for their digits. When it is and the
digits are wrong, the backslash is kept; when it is not, the last arm drops it. A malformed escape
at the end of a text is thus read in two ways, depending on how much text follows: decoding a text
and what comes behind it apart is not decoding the two together.

## Main definitions

* `Crs.jsWindow`, `Crs.jsValue` — how many bytes an escape takes and what they stand for
* `Crs.JsPiece` — what one pass of the loop, or two, reads and emits
* `Crs.CutEscape` — an escape whose digits the end of the text cuts off, and enough text behind

## Main results

* `Crs.run_jsPiece` — a piece is read whole
* `Crs.jsDecode_append_iff` — exactly when the two texts may be decoded apart
-/

namespace Fywaf

namespace Crs

/-! ### Pieces -/

/-- The bytes that the escape of a letter takes behind it. -/
def jsWindow (e : UInt8) : Option ℕ :=
  if e = byte 'u' ∨ e = byte 'U' then some 4
  else if e = byte 'x' ∨ e = byte 'X' then some 2
  else none

/-- What these bytes stand for. -/
def jsValue (e : UInt8) (window : Bytes) : Option Char :=
  if e = byte 'u' ∨ e = byte 'U' then (hex4 window).bind charFromU32
  else (hex2 (window.getD 0 0) (window.getD 1 0)).map byteChar

/-- What a letter without a window stands for. -/
def jsLetter (e : UInt8) : Char :=
  if e = byte 'n' then '\n' else if e = byte 'r' then '\r' else if e = byte 't' then '\t'
  else byteChar e

theorem jsWindow_eq_some {e : UInt8} {n : ℕ} (h : jsWindow e = some n) :
    ((e = byte 'u' ∨ e = byte 'U') ∧ n = 4) ∨ ((e = byte 'x' ∨ e = byte 'X') ∧ n = 2) := by
  unfold jsWindow at h
  by_cases hu : e = byte 'u' ∨ e = byte 'U'
  · rw [if_pos hu] at h
    exact Or.inl ⟨hu, (Option.some.inj h).symm⟩
  · rw [if_neg hu] at h
    by_cases hx : e = byte 'x' ∨ e = byte 'X'
    · rw [if_pos hx] at h
      exact Or.inr ⟨hx, (Option.some.inj h).symm⟩
    · rw [if_neg hx] at h
      cases h

/-- A letter with a window is neither a backslash nor a letter with a meaning of its own. -/
theorem ne_of_jsWindow {e : UInt8} {n : ℕ} (h : jsWindow e = some n) :
    ∀ b ∈ [byte '\\', byte 'n', byte 'r', byte 't'], e ≠ b := by
  simp only [List.mem_cons, List.not_mem_nil, or_false, forall_eq_or_imp, forall_eq]
  rcases jsWindow_eq_some h with ⟨rfl | rfl, -⟩ | ⟨rfl | rfl, -⟩ <;> decide

theorem jsEscape_of_window {e : UInt8} {n : ℕ} (h : jsWindow e = some n) (b : UInt8)
    (rest : Bytes) : jsEscape b e rest =
      if n ≤ rest.length then
        (jsValue e (rest.take n)).elim ([byteChar b], e :: rest) fun c => ([c], rest.drop n)
      else ([byteChar e], rest) := by
  have hne := ne_of_jsWindow h
  have hlast : (if e = byte 'n' then (['\n'], rest) else if e = byte 'r' then (['\r'], rest)
      else if e = byte 't' then (['\t'], rest) else ([byteChar e], rest)) =
        ([byteChar e], rest) := by
    rw [if_neg (hne _ (by simp)), if_neg (hne _ (by simp)), if_neg (hne _ (by simp))]
  rw [jsEscape, hlast]
  rcases jsWindow_eq_some h with ⟨hu, rfl⟩ | ⟨hx, rfl⟩
  · have hx : ¬ (e = byte 'x' ∨ e = byte 'X') := by
      rcases hu with rfl | rfl <;> decide
    by_cases hlen : 4 ≤ rest.length
    · rw [if_pos ⟨hu, hlen⟩, if_pos hlen, jsValue, if_pos hu]
      cases (hex4 (rest.take 4)).bind charFromU32 <;> rfl
    · rw [if_neg fun hboth => hlen hboth.2, if_neg fun hboth => hx hboth.1, if_neg hlen]
  · have hu : ¬ (e = byte 'u' ∨ e = byte 'U') := by
      rcases hx with rfl | rfl <;> decide
    rw [if_neg fun hboth => hu hboth.1]
    by_cases hlen : 2 ≤ rest.length
    · obtain ⟨x, y, rest, rfl⟩ : ∃ x y rest', rest = x :: y :: rest' := by
        rcases rest with _ | ⟨x, _ | ⟨y, rest⟩⟩
        · cases hlen
        · cases Nat.le_of_succ_le_succ hlen
        · exact ⟨x, y, rest, rfl⟩
      rw [if_pos ⟨hx, hlen⟩, if_pos hlen, jsValue, if_neg hu]
      simp only [List.take_succ_cons, List.take_zero, List.getD_cons_zero, List.getD_cons_succ]
      cases hex2 x y <;> rfl
    · rw [if_neg fun hboth => hlen hboth.2, if_neg hlen]

theorem jsEscape_of_letter {e : UInt8} (h : jsWindow e = none) (b : UInt8) (rest : Bytes) :
    jsEscape b e rest = ([jsLetter e], rest) := by
  unfold jsWindow at h
  by_cases hu : e = byte 'u' ∨ e = byte 'U'
  · rw [if_pos hu] at h
    cases h
  · rw [if_neg hu] at h
    by_cases hx : e = byte 'x' ∨ e = byte 'X'
    · rw [if_pos hx] at h
      cases h
    · rw [jsEscape, if_neg fun hboth => hu hboth.1, if_neg fun hboth => hx hboth.1, jsLetter]
      split_ifs <;> rfl

/-- What has a value is all hex digits. -/
theorem hexDigit_of_jsValue {e : UInt8} {n : ℕ} {w : Bytes} {c : Char} (hn : jsWindow e = some n)
    (hlen : w.length = n) (h : jsValue e w = some c) : ∀ b ∈ w, (hexDigit b).isSome := by
  unfold jsValue at h
  rcases jsWindow_eq_some hn with ⟨hu, rfl⟩ | ⟨hx, rfl⟩
  · rw [if_pos hu] at h
    obtain ⟨w₀, w₁, w₂, w₃, rfl⟩ := List.length_eq_four.mp hlen
    obtain ⟨v, hv, -⟩ := Option.bind_eq_some_iff.mp h
    obtain ⟨d₀, h₀, hv⟩ := Option.bind_eq_some_iff.mp hv
    obtain ⟨d₁, h₁, hv⟩ := Option.bind_eq_some_iff.mp hv
    obtain ⟨d₂, h₂, hv⟩ := Option.bind_eq_some_iff.mp hv
    obtain ⟨d₃, h₃, -⟩ := Option.map_eq_some_iff.mp hv
    simp [h₀, h₁, h₂, h₃]
  · have hu : ¬ (e = byte 'u' ∨ e = byte 'U') := by
      rcases hx with rfl | rfl <;> decide
    rw [if_neg hu] at h
    obtain ⟨w₀, w₁, rfl⟩ := List.length_eq_two.mp hlen
    obtain ⟨v, hv, -⟩ := Option.map_eq_some_iff.mp h
    obtain ⟨d₀, h₀, hv⟩ := Option.bind_eq_some_iff.mp hv
    obtain ⟨d₁, h₁, -⟩ := Option.map_eq_some_iff.mp hv
    simp only [List.getD_cons_zero, List.getD_cons_succ] at h₀ h₁
    simp [h₀, h₁]

/-- What the loop reads at one position, given what is left behind it, and what it emits. A kept
backslash and the letter behind it are two passes, as the letter is never a backslash. -/
inductive JsPiece (rest : Bytes) : Bytes → Str → Prop
  | plain (b : UInt8) (hb : b ≠ byte '\\') : JsPiece rest [b] [byteChar b]
  | window (e : UInt8) (n : ℕ) (w : Bytes) (c : Char) (hn : jsWindow e = some n)
    (hlen : w.length = n) (hvalue : jsValue e w = some c) :
    JsPiece rest (byte '\\' :: e :: w) [c]
  | kept (e : UInt8) (n : ℕ) (hn : jsWindow e = some n) (hle : n ≤ rest.length)
    (hvalue : jsValue e (rest.take n) = none) : JsPiece rest [byte '\\', e] ['\\', byteChar e]
  | dropped (e : UInt8) (n : ℕ) (hn : jsWindow e = some n) (hlt : rest.length < n) :
    JsPiece rest [byte '\\', e] [byteChar e]
  | letter (e : UInt8) (hn : jsWindow e = none) : JsPiece rest [byte '\\', e] [jsLetter e]

theorem jsStep_plain {b : UInt8} (hb : b ≠ byte '\\') (rest : Bytes) :
    jsScanner.step b rest = ([byteChar b], rest) := by
  cases rest with
  | nil => rfl
  | cons e rest => simp only [jsScanner, if_neg hb]

variable {rest piece : Bytes} {out : Str}

/-- **A piece is read whole.** -/
theorem run_jsPiece (h : JsPiece rest piece out) :
    jsScanner.run (piece ++ rest) = out ++ jsScanner.run rest := by
  cases h with
  | plain b hb => rw [List.singleton_append, Scanner.run_cons, jsStep_plain hb]
  | window e n w c hn hlen hvalue =>
    have hle : n ≤ (w ++ rest).length := by
      rw [List.length_append]
      omega
    rw [List.cons_append, List.cons_append, Scanner.run_cons, jsStep_backslash,
      jsEscape_of_window hn, if_pos hle, List.take_left' hlen, hvalue, List.drop_left' hlen,
      Option.elim_some]
  | kept e n hn hle hvalue =>
    have hstep : jsScanner.step (byte '\\') (e :: rest) = (['\\'], e :: rest) := by
      rw [jsStep_backslash, jsEscape_of_window hn, if_pos hle, hvalue]
      rfl
    have he : e ≠ byte '\\' := ne_of_jsWindow hn _ List.mem_cons_self
    rw [List.cons_append, List.singleton_append, Scanner.run_cons, hstep, Scanner.run_cons,
      jsStep_plain he]
    rfl
  | dropped e n hn hlt =>
    rw [List.cons_append, List.singleton_append, Scanner.run_cons, jsStep_backslash,
      jsEscape_of_window hn, if_neg (Nat.not_le_of_lt hlt)]
  | letter e hn =>
    rw [List.cons_append, List.singleton_append, Scanner.run_cons, jsStep_backslash,
      jsEscape_of_letter hn]

/-- A text begins with a piece, unless it is a backslash and no more. -/
theorem exists_jsPiece {l : Bytes} (hne : l ≠ []) (hlast : l.getLast? ≠ some (byte '\\')) :
    ∃ piece out rest, l = piece ++ rest ∧ piece ≠ [] ∧ JsPiece rest piece out := by
  rcases l with _ | ⟨b, l⟩
  · exact absurd rfl hne
  by_cases hb : b = byte '\\'
  · subst hb
    rcases l with _ | ⟨e, rest⟩
    · exact absurd rfl hlast
    cases hn : jsWindow e with
    | none => exact ⟨_, _, rest, rfl, List.cons_ne_nil _ _, .letter e hn⟩
    | some n =>
      by_cases hle : n ≤ rest.length
      · cases hvalue : jsValue e (rest.take n) with
        | none => exact ⟨_, _, rest, rfl, List.cons_ne_nil _ _, .kept e n hn hle hvalue⟩
        | some c =>
          refine ⟨_, _, rest.drop n, ?_, List.cons_ne_nil _ _,
            .window e n (rest.take n) c hn (List.length_take_of_le hle) hvalue⟩
          rw [List.cons_append, List.cons_append, List.take_append_drop]
      · exact ⟨_, _, rest, rfl, List.cons_ne_nil _ _, .dropped e n hn (Nat.lt_of_not_le hle)⟩
  · exact ⟨_, _, l, rfl, List.cons_ne_nil _ _, .plain b hb⟩

/-! ### Escapes that the seam cuts -/

/-- In the text an escape starts whose digits go beyond its end, and not beyond the end of what
follows: a backslash that none escapes, its letter, and too little text behind. -/
def CutEscape (l t : Bytes) : Prop :=
  ∃ before e n rest, l = before ++ byte '\\' :: e :: rest ∧ ¬ OpenEnd (byte '\\') before ∧
    jsWindow e = some n ∧ rest.length < n ∧ n ≤ (rest ++ t).length

variable {t : Bytes}

theorem not_cutEscape_nil : ¬ CutEscape [] t := by
  rintro ⟨before, e, n, rest, heq, -⟩
  cases before <;> cases heq

theorem cutEscape_cons_of_ne {b : UInt8} (hb : b ≠ byte '\\') (l : Bytes) :
    CutEscape (b :: l) t ↔ CutEscape l t := by
  constructor
  · rintro ⟨before, e, n, rest, heq, hopen, hcut⟩
    rcases before with _ | ⟨b', before⟩
    · exact absurd (List.cons.inj heq).1 hb
    · obtain ⟨rfl, rfl⟩ := List.cons.inj heq
      exact ⟨before, e, n, rest, rfl, mt (openEnd_cons_of_ne hb before).mpr hopen, hcut⟩
  · rintro ⟨before, e, n, rest, rfl, hopen, hcut⟩
    exact ⟨b :: before, e, n, rest, rfl, mt (openEnd_cons_of_ne hb before).mp hopen, hcut⟩

theorem cutEscape_append_of_notMem {w : Bytes} (h : byte '\\' ∉ w) (l : Bytes) :
    CutEscape (w ++ l) t ↔ CutEscape l t := by
  induction w with
  | nil => rfl
  | cons b w ih =>
    have hne : b ≠ byte '\\' := fun heq => h (heq ▸ List.mem_cons_self)
    rw [List.cons_append, cutEscape_cons_of_ne hne]
    exact ih fun hmem => h (List.mem_cons_of_mem b hmem)

/-- At a backslash that none escapes: its own escape is cut, or one behind it. -/
theorem cutEscape_pair (e : UInt8) (l : Bytes) : CutEscape (byte '\\' :: e :: l) t ↔
    (∃ n, jsWindow e = some n ∧ l.length < n ∧ n ≤ (l ++ t).length) ∨ CutEscape l t := by
  constructor
  · rintro ⟨before, e', n, rest, heq, hopen, hcut⟩
    rcases before with _ | ⟨b, _ | ⟨b', before⟩⟩
    · obtain ⟨rfl, rfl⟩ := List.cons.inj (List.cons.inj heq).2
      exact Or.inl ⟨n, hcut⟩
    · obtain ⟨rfl, -⟩ := List.cons.inj heq
      exact absurd (openEnd_concat (l := []).mpr ⟨rfl, not_openEnd_nil⟩) hopen
    · obtain ⟨rfl, htail⟩ := List.cons.inj heq
      obtain ⟨rfl, rfl⟩ := List.cons.inj htail
      exact Or.inr ⟨before, e', n, rest, rfl, mt (openEnd_pair e before).mpr hopen, hcut⟩
  · rintro (⟨n, hcut⟩ | ⟨before, e', n, rest, rfl, hopen, hcut⟩)
    · exact ⟨[], e, n, l, rfl, not_openEnd_nil, hcut⟩
    · exact ⟨byte '\\' :: e :: before, e', n, rest, rfl, mt (openEnd_pair e before).mp hopen, hcut⟩

/-- An escape that the seam does not cut does not count. -/
theorem cutEscape_pair_of_whole {e : UInt8} {l : Bytes}
    (h : ∀ n ∈ jsWindow e, n ≤ l.length ∨ (l ++ t).length < n) :
    CutEscape (byte '\\' :: e :: l) t ↔ CutEscape l t := by
  rw [cutEscape_pair]
  refine or_iff_right ?_
  rintro ⟨n, hn, hlt, hle⟩
  have hwhole := h n hn
  omega

/-- An escape has no value when the line break falls among its digits. -/
theorem jsValue_cut (ht : t.head? = some (byte '\n')) {e : UInt8} {n : ℕ}
    (hn : jsWindow e = some n) (hlt : rest.length < n) (hle : n ≤ (rest ++ t).length) :
    jsValue e ((rest ++ t).take n) = none := by
  rw [Option.eq_none_iff_forall_ne_some]
  intro c hvalue
  obtain ⟨t', rfl⟩ := List.head?_eq_some_iff.mp ht
  have hmem : byte '\n' ∈ (rest ++ byte '\n' :: t').take n := by
    rw [List.take_append, List.mem_append]
    refine Or.inr ?_
    obtain ⟨k, hk⟩ : ∃ k, n - rest.length = k + 1 := ⟨n - rest.length - 1, by omega⟩
    rw [hk, List.take_succ_cons]
    exact List.mem_cons_self
  have hdigit := hexDigit_of_jsValue hn (List.length_take_of_le hle) hvalue _ hmem
  exact absurd hdigit (by decide)

/-- **A piece before the seam**: behind a longer text it is read alike, or its escape is cut, and
then the backslash that was dropped is kept; in both cases what is cut is cut behind it or is
it. -/
theorem jsPiece_append (ht : t.head? = some (byte '\n')) (h : JsPiece rest piece out) :
    (JsPiece (rest ++ t) piece out ∧ (CutEscape (piece ++ rest) t ↔ CutEscape rest t)) ∨
      (JsPiece (rest ++ t) piece ('\\' :: out) ∧ CutEscape (piece ++ rest) t) := by
  cases h with
  | plain b hb => exact Or.inl ⟨.plain b hb, cutEscape_cons_of_ne hb rest⟩
  | window e n w c hn hlen hvalue =>
    refine Or.inl ⟨.window e n w c hn hlen hvalue, ?_⟩
    have hnot : byte '\\' ∉ w := by
      intro hmem
      have hdigit := hexDigit_of_jsValue hn hlen hvalue _ hmem
      exact absurd hdigit (by decide)
    have hwhole : ∀ n' ∈ jsWindow e, n' ≤ (w ++ rest).length ∨ (w ++ rest ++ t).length < n' := by
      intro n' hn'
      obtain rfl : n = n' := Option.some.inj (hn.symm.trans hn')
      rw [List.length_append]
      omega
    rw [List.cons_append, List.cons_append, cutEscape_pair_of_whole hwhole,
      cutEscape_append_of_notMem hnot]
  | kept e n hn hle hvalue =>
    have hle' : n ≤ (rest ++ t).length := by
      rw [List.length_append]
      omega
    have hvalue' : jsValue e ((rest ++ t).take n) = none := by
      rwa [List.take_append_of_le_length hle]
    refine Or.inl ⟨.kept e n hn hle' hvalue', cutEscape_pair_of_whole fun n' hn' => Or.inl ?_⟩
    rwa [← Option.some.inj (hn.symm.trans hn')]
  | dropped e n hn hlt =>
    by_cases hle : n ≤ (rest ++ t).length
    · -- the line break falls into the window
      refine Or.inr ⟨.kept e n hn hle (jsValue_cut ht hn hlt hle), ?_⟩
      exact (cutEscape_pair e rest).mpr (Or.inl ⟨n, hn, hlt, hle⟩)
    · have hshort := Nat.lt_of_not_le hle
      refine Or.inl ⟨.dropped e n hn hshort, cutEscape_pair_of_whole fun n' hn' => Or.inr ?_⟩
      rwa [← Option.some.inj (hn.symm.trans hn')]
  | letter e hn =>
    refine Or.inl ⟨.letter e hn, cutEscape_pair_of_whole fun n hn' => ?_⟩
    exact absurd (hn.symm.trans hn') (Option.some_ne_none n).symm

/-! ### The two texts together -/

/-- Together the two texts give what they give apart, with a backslash more for every escape that
the seam cuts. -/
theorem run_append_jsScanner (ht : t.head? = some (byte '\n')) :
    ∀ (m : ℕ) (l : Bytes), l.length ≤ m → l.getLast? ≠ some (byte '\\') →
      ∃ out, jsScanner.run (l ++ t) = out ++ jsScanner.run t ∧
        (¬ CutEscape l t → out = jsScanner.run l) ∧ (jsScanner.run l).length ≤ out.length ∧
        (CutEscape l t → (jsScanner.run l).length < out.length) := by
  intro m
  induction m with
  | zero =>
    intro l hlen _
    obtain rfl := List.length_eq_zero_iff.mp (Nat.le_zero.mp hlen)
    exact ⟨[], rfl, fun _ => rfl, Nat.le_refl _, fun h => absurd h not_cutEscape_nil⟩
  | succ m ih =>
    intro l hlen hlast
    by_cases hl : l = []
    · exact hl ▸ ⟨[], rfl, fun _ => rfl, Nat.le_refl _, fun h => absurd h not_cutEscape_nil⟩
    obtain ⟨piece, pieceOut, rest, rfl, hne, hpiece⟩ := exists_jsPiece hl hlast
    have hlenRest : rest.length ≤ m := by
      have hpos : 0 < piece.length := List.length_pos_iff.mpr hne
      rw [List.length_append] at hlen
      omega
    have hlastRest : rest.getLast? ≠ some (byte '\\') := by
      intro h
      refine hlast ?_
      rw [List.getLast?_append, h]
      rfl
    obtain ⟨out, hrun, hsame, hle, hmore⟩ := ih rest hlenRest hlastRest
    rw [run_jsPiece hpiece]
    rcases jsPiece_append ht hpiece with ⟨htogether, hcut⟩ | ⟨htogether, hcut⟩
    · refine ⟨pieceOut ++ out, ?_, ?_, ?_, ?_⟩
      · rw [List.append_assoc, run_jsPiece htogether, hrun, List.append_assoc]
      · intro hnot
        rw [hsame (mt hcut.mpr hnot)]
      · simpa using hle
      · intro h
        simpa using hmore (hcut.mp h)
    · have hlt : (pieceOut ++ jsScanner.run rest).length < ('\\' :: pieceOut ++ out).length := by
        simp only [List.length_append, List.length_cons]
        omega
      refine ⟨'\\' :: pieceOut ++ out, ?_, ?_, Nat.le_of_lt hlt, fun _ => hlt⟩
      · rw [List.append_assoc, run_jsPiece htogether, hrun, List.append_assoc]
      · intro hnot
        exact absurd hcut hnot

/-- **Exactly when the two texts may be decoded apart**, a line break between them: when no escape
is cut by the end of the first that the second makes long enough. -/
theorem jsDecode_append_iff (s t : Str) (hs : s.getLast? ≠ some '\\') (ht : t.head? = some '\n') :
    jsDecode (s ++ t) = jsDecode s ++ jsDecode t ↔ ¬ CutEscape (asBytes s) (asBytes t) := by
  have hhead : (asBytes t).head? = some (byte '\n') := by
    cases t with
    | nil => cases ht
    | cons c t =>
      rw [Option.some.inj ht, asBytes_cons_ascii (by decide)]
      rfl
  have hlast : (asBytes s).getLast? ≠ some (byte '\\') := by
    intro h
    obtain ⟨bs, hbs⟩ := List.getLast?_eq_some_iff.mp h
    obtain ⟨u, v, rfl, -, hv⟩ := asBytes_eq_append_cons (by decide) hbs
    obtain rfl : v = [] := asBytes_injective hv
    exact hs List.getLast?_concat
  obtain ⟨out, hrun, hsame, -, hmore⟩ :=
    run_append_jsScanner hhead _ (asBytes s) (Nat.le_refl _) hlast
  rw [jsDecode, jsDecode, jsDecode, asBytes_append, hrun]
  constructor
  · intro heq hcut
    have hlen := hmore hcut
    rw [List.append_cancel_right heq] at hlen
    exact Nat.lt_irrefl _ hlen
  · intro hnot
    rw [hsame hnot]

/-- `\x` behind which a line break and a letter come: apart the backslash is dropped, together it is
kept. -/
theorem jsDecode_seam : ¬ ∀ s t : Str, s.getLast? ≠ some '\\' → t.head? = some '\n' →
    jsDecode (s ++ t) = jsDecode s ++ jsDecode t := by
  intro h
  have hseam := h "\\x".toList "\nA".toList (by decide) (by decide)
  exact absurd hseam (by decide)

/-- With the line break alone behind it the escape stays too short, and nothing changes. -/
theorem jsDecode_no_seam :
    jsDecode ("\\x".toList ++ "\n".toList) = jsDecode "\\x".toList ++ jsDecode "\n".toList := by
  refine (jsDecode_append_iff _ _ (by decide) (by decide)).mpr ?_
  have hs : asBytes "\\x".toList = [byte '\\', byte 'x'] := by decide
  rw [hs, cutEscape_pair]
  rintro (⟨n, hn, -, hle⟩ | hcut)
  · obtain rfl : 2 = n := Option.some.inj hn
    exact absurd hle (by decide)
  · exact not_cutEscape_nil hcut

end Crs

end Fywaf
