import Fywaf.Crs.Exclusion
import Fywaf.Crs.Operators
import Fywaf.Crs.RequestRoundtrip
import Fywaf.Crs.SkipTargets

/-!
# Lists in headers and arguments

A cookie header is a list of pairs with semicolons between, the argument of `@validateByteRange` a
list of ranges with commas. Both are read part by part, with the blanks around each part and each of
its two sides trimmed away. So the rules see the cookies that were sent, and the operator checks the
bytes that were meant, however the lists are spaced.

## Main definitions

* `Crs.CookieText`, `Crs.CookieHeader` — cookies as they are written
* `Crs.RangeText`, `Crs.RangeList` — ranges as they are written

## Main results

* `Crs.conditionMatches_cookies` — **the rules see the cookies that were sent**
* `Crs.validateByteRange_ranges` — **the bytes that were meant are the ones that pass**
-/

namespace Fywaf

section Parts

variable {p : Char → Bool} {sep : Char} {x y : Str}

/-- Trimming a text with a separator in it trims the front of the one side and the end of the
other. -/
theorem trimMatches_separated (hsep : p sep = false) (x y : Str) :
    trimMatches p (x ++ sep :: y) = x.dropWhile p ++ sep :: y.rdropWhile p := by
  have hclean : CleanEnds p (x.dropWhile p ++ [sep]) := by
    constructor
    · intro c hc
      cases hdrop : x.dropWhile p with
      | nil =>
        rw [hdrop] at hc
        rw [← Option.some.inj hc, hsep]
      | cons d ds =>
        have hnot := List.head?_dropWhile_not p x
        rw [hdrop] at hc hnot
        rw [← Option.some.inj hc]
        exact hnot
    · intro c hc
      rw [List.getLast?_concat] at hc
      rw [← Option.some.inj hc, hsep]
  have hne : x.dropWhile p ++ [sep] ≠ [] :=
    List.append_ne_nil_of_right_ne_nil _ (List.cons_ne_nil _ _)
  have hblank : ∀ c ∈ x.takeWhile p, p c = true := fun c => List.mem_takeWhile_imp
  have hword := trimMatches_word hclean hne hblank y
  rw [List.append_assoc, ← List.append_assoc (x.takeWhile p), List.takeWhile_append_dropWhile,
    List.append_assoc] at hword
  exact hword

theorem trimMatches_dropWhile (p : Char → Bool) (s : Str) :
    trimMatches p (s.dropWhile p) = trimMatches p s := by
  rw [trimMatches, trimMatches, List.dropWhile_idempotent]

/-- The sides of a part, when it has two. -/
theorem splitOnce_trim (hsep : isWhitespace sep = false) (hx : sep ∉ x) (y : Str) :
    ∃ x' y', splitOnce sep (trim (x ++ sep :: y)) = some (x', y') ∧ trim x' = trim x ∧
      trim y' = trim y := by
  refine ⟨x.dropWhile isWhitespace, y.rdropWhile isWhitespace, ?_,
    trimMatches_dropWhile isWhitespace x, trimMatches_rdropWhile isWhitespace y⟩
  rw [trim, trimMatches_separated hsep]
  exact splitOnce_append (fun hmem => hx ((List.dropWhile_sublist _).mem hmem)) _

/-- A list that is read part by part. -/
theorem filterMap_splitOn {α β : Type} {written : α → Str → Prop} {read : Str → Option β}
    {f : α → Option β} (hread : ∀ {a s}, written a s → sep ∉ s ∧ read s = f a)
    (hnil : read [] = none) {items : List α} {texts : List Str}
    (h : List.Forall₂ written items texts) :
    (([sep].intercalate texts).splitOn sep).filterMap read = items.filterMap f := by
  have hsep : ∀ text ∈ texts, sep ∉ text := by
    induction h with
    | nil => exact List.forall_mem_nil _
    | cons hfirst hrest ih => exact List.forall_mem_cons.mpr ⟨(hread hfirst).1, ih⟩
  have hparts : texts.filterMap read = items.filterMap f := by
    clear hsep
    induction h with
    | nil => rfl
    | cons hfirst hrest ih => rw [List.filterMap_cons, List.filterMap_cons, (hread hfirst).2, ih]
  cases h with
  | nil =>
    have hempty : ([sep].intercalate ([] : List Str)).splitOn sep = [[]] := List.splitOn_nil sep
    rw [hempty, List.filterMap_cons, hnil]
    rfl
  | cons => rw [List.splitOn_intercalate sep hsep (List.cons_ne_nil _ _), hparts]

end Parts

namespace Crs

open Wasm

theorem IsBlank.notMem {s : Str} (h : IsBlank s) {c : Char} (hc : isWhitespace c = false) :
    c ∉ s := fun hmem => Bool.false_ne_true (hc.symm.trans (h c hmem))

/-- A text with blanks around it. -/
theorem trim_padded {left s right : Str} (hleft : IsBlank left) (hs : CleanEnds isWhitespace s)
    (hright : IsBlank right) : trim (left ++ (s ++ right)) = s :=
  (trim_blank hleft hright s).trans (trimMatches_of_cleanEnds hs)

/-! ### Cookies -/

/-- What stands between two semicolons. -/
inductive Cookie
  | nothing
  | bare (value : Str)
  | pair (name value : Str)

def Cookie.value : Cookie → Option Str
  | .nothing => none
  | .bare value | .pair _ value => some value

def Cookie.name : Cookie → Option Str
  | .nothing | .bare _ => none
  | .pair name _ => some name

/-- A name or a value: no blanks at its ends, and no semicolon. -/
structure IsCookieWord (s : Str) : Prop where
  clean : CleanEnds isWhitespace s
  semicolon : ';' ∉ s

/-- A cookie as it is written, with blanks where they say nothing. -/
inductive CookieText : Cookie → Str → Prop
  | nothing {blanks : Str} (h : IsBlank blanks) : CookieText .nothing blanks
  | bare {left value right : Str} (hleft : IsBlank left) (hvalue : IsCookieWord value)
    (hne : value ≠ []) (heq : '=' ∉ value) (hright : IsBlank right) :
    CookieText (.bare value) (left ++ (value ++ right))
  | pair {left name right left' value right' : Str} (hleft : IsBlank left)
    (hname : IsCookieWord name) (heq : '=' ∉ name) (hright : IsBlank right)
    (hleft' : IsBlank left') (hvalue : IsCookieWord value) (hright' : IsBlank right') :
    CookieText (.pair name value)
      ((left ++ (name ++ right)) ++ '=' :: (left' ++ (value ++ right')))

/-- A cookie header as it is written. -/
def CookieHeader (cookies : List Cookie) (header : Str) : Prop :=
  ∃ texts, List.Forall₂ CookieText cookies texts ∧ header = [';'].intercalate texts

section Cookies

variable {cookie : Cookie} {text : Str}

theorem CookieText.semicolon (h : CookieText cookie text) : ';' ∉ text := by
  have hblank : ∀ {s : Str}, IsBlank s → ';' ∉ s := fun hs => hs.notMem (by decide)
  cases h with
  | nothing hs => exact hblank hs
  | bare hleft hvalue _ _ hright => simp [hblank hleft, hvalue.semicolon, hblank hright]
  | pair hleft hname _ hright hleft' hvalue hright' =>
    simp [hblank hleft, hname.semicolon, hblank hright, hblank hleft', hvalue.semicolon,
      hblank hright']

/-- What the two readers make of a cookie. -/
theorem CookieText.cases (h : CookieText cookie text) :
    (cookie = .nothing ∧ trim text = []) ∨
      (∃ value, cookie = .bare value ∧ trim text = value ∧ value ≠ [] ∧
        splitOnce '=' (trim text) = none) ∨
      ∃ name value x y, cookie = .pair name value ∧ splitOnce '=' (trim text) = some (x, y) ∧
        trim x = name ∧ trim y = value := by
  cases h with
  | nothing hs =>
    have hempty := @trim_padded text [] [] hs (cleanEnds_of_forall (List.forall_mem_nil _))
      (List.forall_mem_nil _)
    rw [List.append_nil, List.append_nil] at hempty
    exact Or.inl ⟨rfl, hempty⟩
  | @bare left value right hleft hvalue hne heq hright =>
    have htrim := trim_padded hleft hvalue.clean hright
    exact Or.inr (Or.inl ⟨value, rfl, htrim, hne, by rw [htrim, splitOnce_eq_none_iff.mpr heq]⟩)
  | @pair left name right left' value right' hleft hname heq hright hleft' hvalue hright' =>
    have hfront : '=' ∉ left ++ (name ++ right) := by
      have hblank : ∀ {s : Str}, IsBlank s → '=' ∉ s := fun hs => hs.notMem (by decide)
      simp [hblank hleft, heq, hblank hright]
    obtain ⟨x, y, hsplit, hx, hy⟩ := splitOnce_trim (by decide) hfront (left' ++ (value ++ right'))
    exact Or.inr (Or.inr ⟨name, value, x, y, rfl, hsplit, hx.trans (trim_padded hleft hname.clean
      hright), hy.trans (trim_padded hleft' hvalue.clean hright')⟩)

variable {cookies : List Cookie} {header : Str}

/-- A part that can be split is not empty. -/
theorem ne_nil_of_splitOnce {sep : Char} {s : Str} {r : Str × Str} (h : splitOnce sep s = some r) :
    s ≠ [] := by
  rintro rfl
  cases h

/-- **The values of the cookies are read.** -/
theorem parseCookieValues_header (h : CookieHeader cookies header) :
    parseCookieValues header = cookies.filterMap Cookie.value := by
  obtain ⟨texts, htexts, rfl⟩ := h
  refine filterMap_splitOn (fun {cookie text} h => ⟨h.semicolon, ?_⟩) rfl htexts
  rcases h.cases with ⟨rfl, htrim⟩ | ⟨value, rfl, htrim, hne, hsplit⟩ |
    ⟨name, value, x, y, rfl, hsplit, -, hy⟩
  · exact if_pos htrim
  · dsimp only
    rw [if_neg (htrim ▸ hne), hsplit, htrim]
    rfl
  · dsimp only
    rw [if_neg (ne_nil_of_splitOnce hsplit), hsplit]
    exact congrArg some hy

/-- **The names of the cookies are read.** -/
theorem parseCookieNames_header (h : CookieHeader cookies header) :
    parseCookieNames header = cookies.filterMap Cookie.name := by
  obtain ⟨texts, htexts, rfl⟩ := h
  refine filterMap_splitOn (fun {cookie text} h => ⟨h.semicolon, ?_⟩) rfl htexts
  rcases h.cases with ⟨rfl, htrim⟩ | ⟨value, rfl, htrim, hne, hsplit⟩ |
    ⟨name, value, x, y, rfl, hsplit, hx, -⟩
  · exact if_pos htrim
  · dsimp only
    rw [if_neg (htrim ▸ hne), hsplit]
    rfl
  · dsimp only
    rw [if_neg (ne_nil_of_splitOnce hsplit), hsplit]
    exact congrArg some hx

variable {serializer : Serializer} {req : WasmRequest} {regex : RegexNew}

/-- A condition on one variable. -/
theorem conditionMatches_singleton {ctx : RequestContext} {var : Variable} {operator : Operator}
    {transforms : List Transform} (hvar : ∀ exclude exclude',
      resolveVariable ctx exclude var = resolveVariable ctx exclude' var) (exclude : List Str) :
    conditionMatches regex [var] operator transforms ctx =
      (resolveVariable ctx exclude var).any fun value =>
        operatorMatches regex operator (applyTransforms value transforms) := by
  rw [conditionMatches, resolveVariables, List.flatMap_singleton, hvar _ exclude]

/-- **The rules see the cookies that were sent**, their values and their names, however the header
is spaced. -/
theorem conditionMatches_cookies (h : CookieHeader cookies header)
    (hget : req.headers.get? "cookie".toList = some header) (operator : Operator)
    (transforms : List Transform) :
    conditionMatches regex [.requestCookies] operator transforms
        (guestRequest serializer req).context =
      cookies.any (fun cookie => cookie.value.any fun value =>
        operatorMatches regex operator (applyTransforms value transforms)) ∧
    conditionMatches regex [.requestCookiesNames] operator transforms
        (guestRequest serializer req).context =
      cookies.any fun cookie => cookie.name.any fun name =>
        operatorMatches regex operator (applyTransforms name transforms) := by
  have hsame := @sameRequest_guestRequest serializer req
  have hcookie : cookieHeader (guestRequest serializer req).context = some header := by
    have hguest : (guestRequest serializer req).context.headers.get? "cookie".toList =
        some header := (hsame.headers _).trans hget
    rw [cookieHeader, hguest, Option.some_or]
  have hany : ∀ (f : Cookie → Option Str) (q : Str → Bool),
      (cookies.filterMap f).any q = cookies.any fun cookie => (f cookie).any q := by
    intro f q
    rw [List.any_filterMap]
    rfl
  constructor
  · rw [conditionMatches_singleton (fun _ _ => rfl) [], resolveVariable, hcookie, Option.map_some,
      Option.getD_some, parseCookieValues_header h, hany]
  · rw [conditionMatches_singleton (fun _ _ => rfl) [], resolveVariable, hcookie, Option.map_some,
      Option.getD_some, parseCookieNames_header h, hany]

end Cookies

/-- Three parts between semicolons: a pair, nothing and a value. -/
theorem cookieHeader_spaced :
    CookieHeader [.pair ['a'] ['1'], .nothing, .bare ['b']] "a = 1; ;b".toList := by
  have hword : ∀ c : Char, isWhitespace c = false → c ≠ ';' → IsCookieWord [c] := fun c hc hne =>
    ⟨cleanEnds_of_forall (List.forall_mem_singleton.mpr hc), by simpa using hne.symm⟩
  refine ⟨["a = 1".toList, [' '], ['b']], ?_, rfl⟩
  have hname : IsCookieWord ['a'] := hword 'a' (by decide) (by decide)
  have hvalue : IsCookieWord ['1'] := hword '1' (by decide) (by decide)
  have hbare : IsCookieWord ['b'] := hword 'b' (by decide) (by decide)
  refine .cons (.pair isBlank_nil hname (by decide) isBlank_space isBlank_space hvalue isBlank_nil)
    (.cons (.nothing isBlank_space) (.cons ?_ .nil))
  exact .bare isBlank_nil hbare (by decide) (by decide) isBlank_nil

/-- A rule against the cookie value `1` matches. -/
theorem conditionMatches_spaced : conditionMatches (fun _ => none) [.requestCookies] (.streq ['1'])
    [] (guestRequest .compact { pageRequest ['x'] with
      headers := ⟨[("cookie".toList, "a = 1; ;b".toList)], List.nodup_singleton _⟩ }).context =
        true :=
  (conditionMatches_cookies cookieHeader_spaced rfl (.streq ['1']) []).1.trans (by decide)

/-! ### Byte ranges -/

/-- A number of at most a byte as it is written: a run of digits, with a plus sign or without. -/
inductive ByteLiteral (n : ℕ) : Str → Prop
  | digits {s : Str} (h : parseNat 10 s = some n) (hn : n < 2 ^ 8) : ByteLiteral n s
  | plus {s : Str} (h : parseNat 10 s = some n) (hn : n < 2 ^ 8) : ByteLiteral n ('+' :: s)

/-- A range as it is written, with blanks where they say nothing: two numbers, or one. -/
inductive RangeText : ℕ × ℕ → Str → Prop
  | single {n : ℕ} {left s right : Str} (hleft : IsBlank left) (hs : ByteLiteral n s)
    (hright : IsBlank right) : RangeText (n, n) (left ++ (s ++ right))
  | range {lo hi : ℕ} {left s right left' s' right' : Str} (hleft : IsBlank left)
    (hs : ByteLiteral lo s) (hright : IsBlank right) (hleft' : IsBlank left')
    (hs' : ByteLiteral hi s') (hright' : IsBlank right') :
    RangeText (lo, hi) ((left ++ (s ++ right)) ++ '-' :: (left' ++ (s' ++ right')))

/-- A list of ranges as it is written. -/
def RangeList (ranges : List (ℕ × ℕ)) (text : Str) : Prop :=
  ∃ texts, List.Forall₂ RangeText ranges texts ∧ text = [','].intercalate texts

section Ranges

variable {n : ℕ} {s : Str}

theorem ByteLiteral.parse (h : ByteLiteral n s) : parseUnsigned 8 s = some n := by
  cases h with
  | digits h hn => exact fromStrRadix_of_parseNat h hn
  | plus h hn =>
    rw [parseUnsigned, fromStrRadix, List.head?_cons, if_pos rfl, List.tail_cons, h,
      Option.filter_some]
    exact if_pos (decide_eq_true hn)

/-- It has only digits, and a plus sign maybe. -/
theorem ByteLiteral.chars (h : ByteLiteral n s) :
    ∀ c ∈ s, isWhitespace c = false ∧ c ≠ '-' ∧ c ≠ ',' := by
  have hdigits : ∀ {s : Str}, parseNat 10 s = some n →
      ∀ c ∈ s, isWhitespace c = false ∧ c ≠ '-' ∧ c ≠ ',' := by
    intro s h c hc
    obtain ⟨d, hd⟩ := exists_digit_of_parseNat h c hc
    refine ⟨isWhitespace_of_toDigit hd, ?_, ?_⟩
    · rintro rfl
      exact not_mem_of_parseNat (by decide) h hc
    · rintro rfl
      exact not_mem_of_parseNat (by decide) h hc
  cases h with
  | digits h _ => exact hdigits h
  | plus h _ => exact List.forall_mem_cons.mpr ⟨by decide, hdigits h⟩

theorem ByteLiteral.clean (h : ByteLiteral n s) : CleanEnds isWhitespace s :=
  cleanEnds_of_forall fun c hc => (h.chars c hc).1

variable {range : ℕ × ℕ} {text : Str}

theorem RangeText.comma (h : RangeText range text) : ',' ∉ text := by
  have hblank : ∀ {s : Str}, IsBlank s → ',' ∉ s := fun hs => hs.notMem (by decide)
  have hliteral : ∀ {n : ℕ} {s : Str}, ByteLiteral n s → ',' ∉ s :=
    fun hs hmem => (hs.chars _ hmem).2.2 rfl
  cases h with
  | single hleft hs hright => simp [hblank hleft, hliteral hs, hblank hright]
  | range hleft hs hright hleft' hs' hright' =>
    simp [hblank hleft, hliteral hs, hblank hright, hblank hleft', hliteral hs', hblank hright']

/-- **A range is read as it is written.** -/
theorem parseByteRange_text (h : RangeText range text) : parseByteRange text = some range := by
  have hminus : ∀ {left s right : Str} {n : ℕ}, IsBlank left → ByteLiteral n s → IsBlank right →
      '-' ∉ left ++ (s ++ right) := by
    intro left s right n hleft hs hright
    have hs' : '-' ∉ s := fun hmem => (hs.chars _ hmem).2.1 rfl
    have hleft' : '-' ∉ left := hleft.notMem (by decide)
    have hright' : '-' ∉ right := hright.notMem (by decide)
    simp [hleft', hs', hright']
  cases h with
  | @single n left s right hleft hs hright =>
    have htrim := trim_padded hleft hs.clean hright
    have hnone : splitOnce '-' s = none :=
      splitOnce_eq_none_iff.mpr fun hmem => (hs.chars _ hmem).2.1 rfl
    rw [parseByteRange, htrim, hnone]
    dsimp only
    rw [hs.parse]
    rfl
  | @range lo hi left s right left' s' right' hleft hs hright hleft' hs' hright' =>
    obtain ⟨x, y, hsplit, hx, hy⟩ := splitOnce_trim (by decide) (hminus hleft hs hright)
      (left' ++ (s' ++ right'))
    rw [parseByteRange, hsplit]
    dsimp only
    rw [hx, hy, trim_padded hleft hs.clean hright, trim_padded hleft' hs'.clean hright', hs.parse,
      hs'.parse]
    rfl

/-- **The bytes that were meant are the ones that pass**: a value passes when each byte of it is in
one of the ranges, and when there are none. -/
theorem validateByteRange_ranges {ranges : List (ℕ × ℕ)} (h : RangeList ranges text)
    (value : Str) : validateByteRange value text = true ↔
      ranges = [] ∨
        ∀ b ∈ asBytes value, ∃ range ∈ ranges, range.1 ≤ b.toNat ∧ b.toNat ≤ range.2 := by
  obtain ⟨texts, htexts, rfl⟩ := h
  have hparsed : parseByteRanges ([','].intercalate texts) = ranges := by
    rw [parseByteRanges, filterMap_splitOn (fun h => ⟨h.comma, parseByteRange_text h⟩) rfl htexts,
      List.filterMap_some]
  rw [validateByteRange, hparsed]
  cases ranges with
  | nil => exact ⟨fun _ => Or.inl rfl, fun _ => rfl⟩
  | cons range ranges => simp

end Ranges

/-- Tabs, line breaks and what can be printed, as the rules name them. -/
theorem rangeList_printable :
    RangeList [(9, 9), (10, 13), (32, 126)] "9, 10-13 ,+32 - 126".toList := by
  have hnine : ByteLiteral 9 ['9'] := .digits (by decide) (by decide)
  have hten : ByteLiteral 10 ['1', '0'] := .digits (by decide) (by decide)
  have hthirteen : ByteLiteral 13 ['1', '3'] := .digits (by decide) (by decide)
  have hfrom : ByteLiteral 32 ['+', '3', '2'] := .plus (by decide) (by decide)
  have hto : ByteLiteral 126 ['1', '2', '6'] := .digits (by decide) (by decide)
  exact ⟨["9".toList, " 10-13 ".toList, "+32 - 126".toList],
    .cons (.single isBlank_nil hnine isBlank_nil)
      (.cons (.range isBlank_space hten isBlank_nil isBlank_nil hthirteen isBlank_space)
        (.cons (.range isBlank_nil hfrom isBlank_space isBlank_space hto isBlank_nil) .nil)), rfl⟩

/-- A null does not pass. -/
theorem validateByteRange_null :
    ¬ validateByteRange ['a', '\x00'] "9, 10-13 ,+32 - 126".toList = true := by
  rw [validateByteRange_ranges rangeList_printable]
  decide

end Crs

end Fywaf
