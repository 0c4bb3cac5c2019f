import Fywaf.Crs.EntitySpellings
import Fywaf.Crs.Plain
import Fywaf.Crs.Sliced
import Fywaf.Std.Passes

/-!
# The decoders, index by index

The decoders keep a position in the bytes of the value and look ahead from it; the entity decoder
keeps the text that is left and slices it. Here each index and each slice can fail, and so can a
pass that consumes nothing, as in the source a loop would not end. None of it ever happens: each
index is behind a test of the length, and each slice is at an ASCII character that was found.

## Main definitions

* `Crs.urlDecodeUniIndexed`, `Crs.jsDecodeIndexed`, `Crs.cssDecodeIndexed`,
  `Crs.urlDecodeSimpleIndexed` — loops over positions
* `Crs.htmlEntityDecodeSliced` — the loop over what is left
* `Crs.applyTransformsIndexed` — the pipeline over them

## Main results

* `Crs.urlDecodeUniIndexed_eq` and its like — each loop is the decoder
* `Crs.applyTransformsIndexed_eq` — nothing fails, and every pass consumes
-/

namespace Fywaf

namespace Crs

/-! ### Functions that index -/

/-- `&bytes[i..j]`. -/
def bytesRange (bytes : Bytes) (i j : ℕ) : Except Panic Bytes :=
  if i ≤ j then (bytesTo bytes j).map (·.drop i) else .error .slice

/-- `hex4`, byte by byte. -/
def hex4Indexed (b : Bytes) : Except Panic (Option ℕ) :=
  if b.length < 4 then .ok none
  else do
    -- the source stops at a byte that is no digit; here the bytes behind it are read as well
    let h₀ ← byteAt b 0
    let h₁ ← byteAt b 1
    let h₂ ← byteAt b 2
    let h₃ ← byteAt b 3
    return hex4 [h₀, h₁, h₂, h₃]

/-- `hex4(&bytes[i..i + 4])` as a character. -/
def charAt (bytes : Bytes) (i : ℕ) : Except Panic (Option Char) := do
  let window ← bytesRange bytes i (i + 4)
  return (← hex4Indexed window).bind charFromU32

/-- `hex2(bytes[i], bytes[i + 1])`. -/
def hexPairAt (bytes : Bytes) (i : ℕ) : Except Panic (Option UInt8) := do
  let a ← byteAt bytes i
  let b ← byteAt bytes (i + 1)
  return hex2 a b

/-- The end of each loop body: the byte as it is. -/
def pushByte (bytes : Bytes) (i : ℕ) : Except Panic (Str × ℕ) := do
  let b ← byteAt bytes i
  return ([byteChar b], i + 1)

/-- The test for `%uXXXX`. -/
def uniAt (bytes : Bytes) (i : ℕ) : Except Panic (Option Char) :=
  if i + 5 < bytes.length then do
    let u ← byteAt bytes (i + 1)
    if u = byte 'u' ∨ u = byte 'U' then charAt bytes (i + 2) else return none
  else .ok none

/-- The test for `%XX`. -/
def byteEscapeAt (bytes : Bytes) (i : ℕ) : Except Panic (Option UInt8) :=
  if i + 2 < bytes.length then hexPairAt bytes (i + 1) else .ok none

/-- The loop body of `url_decode_uni`. -/
def urlDecodeUniBody (bytes : Bytes) (i : ℕ) : Except Panic (Str × ℕ) := do
  let b ← byteAt bytes i
  if b = byte '%' then
    match ← uniAt bytes i with
    | some cp => return ([cp], i + 6)
    | none =>
      match ← byteEscapeAt bytes i with
      | some x => return ([byteChar x], i + 3)
      | none => pushByte bytes i
  else pushByte bytes i

/-- `url_decode_uni`. -/
def urlDecodeUniIndexed (s : Str) : Except (Fault Panic) Str :=
  indexLoop (asBytes s).length (urlDecodeUniBody (asBytes s))

/-- The loop body of `url_decode_simple`. -/
def urlDecodeSimpleBody (bytes : Bytes) (i : ℕ) : Except Panic (Str × ℕ) := do
  let b ← byteAt bytes i
  if b = byte '+' then return ([' '], i + 1)
  else if b = byte '%' ∧ i + 2 < bytes.length then
    match ← hexPairAt bytes (i + 1) with
    | some x => return ([byteChar x], i + 3)
    | none => pushByte bytes i
  else pushByte bytes i

/-- `url_decode_simple`. -/
def urlDecodeSimpleIndexed (s : Str) : Except (Fault Panic) Str :=
  indexLoop (asBytes s).length (urlDecodeSimpleBody (asBytes s))

/-- The loop body of `js_decode`. -/
def jsDecodeBody (bytes : Bytes) (i : ℕ) : Except Panic (Str × ℕ) := do
  let b ← byteAt bytes i
  if b = byte '\\' ∧ i + 1 < bytes.length then
    let e ← byteAt bytes (i + 1)
    if (e = byte 'u' ∨ e = byte 'U') ∧ i + 5 < bytes.length then
      match ← charAt bytes (i + 2) with
      | some cp => return ([cp], i + 6)
      | none => pushByte bytes i
    else if (e = byte 'x' ∨ e = byte 'X') ∧ i + 3 < bytes.length then
      match ← hexPairAt bytes (i + 2) with
      | some x => return ([byteChar x], i + 4)
      | none => pushByte bytes i
    else if e = byte 'n' then return (['\n'], i + 2)
    else if e = byte 'r' then return (['\r'], i + 2)
    else if e = byte 't' then return (['\t'], i + 2)
    else return ([byteChar e], i + 2)
  else pushByte bytes i

/-- `js_decode`. -/
def jsDecodeIndexed (s : Str) : Except (Fault Panic) Str :=
  indexLoop (asBytes s).length (jsDecodeBody (asBytes s))

/-- The inner loop of `css_decode`: where the hex digits from a position on end, with the number of
digits that may still come. -/
def cssDigitsEnd (bytes : Bytes) : ℕ → ℕ → Except Panic ℕ
  | 0, stop => .ok stop
  | n + 1, stop =>
    if stop < bytes.length then do
      let b ← byteAt bytes stop
      if (hexDigit b).isSome then cssDigitsEnd bytes n (stop + 1) else return stop
    else .ok stop

/-- One space behind the digits belongs to them. -/
def skipSpace (bytes : Bytes) (stop : ℕ) : Except Panic ℕ :=
  if stop < bytes.length then do
    let b ← byteAt bytes stop
    return if b = byte ' ' then stop + 1 else stop
  else .ok stop

/-- The number in the bytes of a CSS escape, as a character. -/
def cssChar (digits : Bytes) : Option Char :=
  (fromUtf8 digits).bind fun text =>
    (fromStrRadix 16 32 (trimEndMatches isWhitespace text)).bind charFromU32

/-- The loop body of `css_decode`. -/
def cssDecodeBody (bytes : Bytes) (i : ℕ) : Except Panic (Str × ℕ) := do
  let b ← byteAt bytes i
  if b = byte '\\' ∧ i + 1 < bytes.length then
    let start := i + 1
    let stop ← cssDigitsEnd bytes 6 start
    if start < stop then
      let stop ← skipSpace bytes stop
      let digits ← bytesRange bytes start (min stop (start + 6))
      match cssChar digits with
      | some c => return ([c], stop)
      | none => pushByte bytes i
    else pushByte bytes i
  else pushByte bytes i

/-- `css_decode`. -/
def cssDecodeIndexed (s : Str) : Except (Fault Panic) Str :=
  indexLoop (asBytes s).length (cssDecodeBody (asBytes s))

/-! ### Functions that slice -/

/-- `&s[i..j]`. -/
def sliceRange (s : Str) (i j : ℕ) : Except Panic Str :=
  if i ≤ j then do
    let front ← sliceTo s j
    sliceFrom front i
  else .error .slice

/-- The named entities, with the offset that each is cut at. -/
def entityArms : List (Str × Char × ℕ) := [
  ("&lt;".toList, '<', 4), ("&gt;".toList, '>', 4), ("&amp;".toList, '&', 5),
  ("&quot;".toList, '"', 6), ("&apos;".toList, '\'', 6)]

/-- The arm of a numeric reference whose digits start at an offset. -/
def numericArm (radix skip : ℕ) (rest : Str) : Except Panic (Option (Char × Str)) := do
  match findChar (· == ';') (← sliceFrom rest skip) with
  | some semi =>
    let digits ← sliceRange rest skip (skip + semi)
    match (fromStrRadix radix 32 digits).bind charFromU32 with
    | some c => return some (c, ← sliceFrom rest (skip + 1 + semi))
    | none => return none
  | none => return none

/-- The arms at an ampersand. -/
def entityArm (rest : Str) : Except Panic (Option (Char × Str)) :=
  match entityArms.find? fun arm => arm.1.isPrefixOf rest with
  | some (_, c, width) => (sliceFrom rest width).map fun tail => some (c, tail)
  | none =>
    if "&#x".toList.isPrefixOf rest ∨ "&#X".toList.isPrefixOf rest then numericArm 16 3 rest
    else if "&#".toList.isPrefixOf rest then numericArm 10 2 rest
    else .ok none

/-- The loop body of `html_entity_decode`: the text up to the ampersand, then its arm, and an
ampersand and no more where no arm applies. -/
def htmlEntityDecodeBody (rest : Str) : Except Panic (Pass Str Char) :=
  match findChar (· == '&') rest with
  | none => .ok (.last rest)
  | some amp => do
    let before ← sliceTo rest amp
    let rest ← sliceFrom rest amp
    match ← entityArm rest with
    | some (c, tail) => return .next (before ++ [c]) tail
    | none => return .next (before ++ ['&']) (← sliceFrom rest 1)

/-- `html_entity_decode`. -/
def htmlEntityDecodeSliced (s : Str) : Except (Fault Panic) Str :=
  runLoop (fun rest => (asBytes rest).length) htmlEntityDecodeBody s

/-! ### The pipeline -/

/-- `apply_one`; the transforms that neither index nor slice cannot fail. -/
def applyOneIndexed (s : Str) : Transform → Except (Fault Panic) Str
  | .urlDecodeUni => urlDecodeUniIndexed s
  | .htmlEntityDecode => htmlEntityDecodeSliced s
  | .jsDecode => jsDecodeIndexed s
  | .cssDecode => cssDecodeIndexed s
  | t => .ok (applyOne s t)

/-- `apply_transforms`. -/
def applyTransformsIndexed (value : Str) (transforms : List Transform) :
    Except (Fault Panic) Str :=
  transforms.foldlM applyOneIndexed value

/-! ### Indices behind a test -/

section Ahead

variable {bytes : Bytes} {i k : ℕ} {b : UInt8} {rest : Bytes}

theorem length_of_drop (h : bytes.drop i = b :: rest) :
    bytes.length = i + (rest.length + 1) := by
  have hlen := congrArg List.length h
  rw [List.length_drop, List.length_cons] at hlen
  omega

/-- An index ahead of the position is one of what is left there. -/
theorem byteAt_ahead (h : bytes.drop i = b :: rest) (k : ℕ) :
    byteAt bytes (i + k) = byteAt (b :: rest) k := by
  rw [byteAt, byteAt, ← h, List.getElem?_drop]

theorem byteAt_here (h : bytes.drop i = b :: rest) : byteAt bytes i = .ok b :=
  byteAt_ahead h 0

theorem pushByte_eq (h : bytes.drop i = b :: rest) :
    pushByte bytes i = .ok ([byteChar b], i + 1) := by
  rw [pushByte, byteAt_here h]
  rfl

/-- A slice ahead of the position is one of what is left there. -/
theorem bytesRange_ahead (h : bytes.drop i = b :: rest) {m n : ℕ} (hmn : m ≤ n)
    (hn : n ≤ rest.length + 1) :
    bytesRange bytes (i + m) (i + n) = .ok (((b :: rest).take n).drop m) := by
  have hlen := length_of_drop h
  rw [bytesRange, if_pos (by omega), bytesTo, if_pos (by omega), ← h, List.take_drop,
    List.drop_drop]
  rfl

/-- Four digits ahead of the position are read. -/
theorem charAt_ahead {w : Bytes} (h : bytes.drop i = b :: rest) {m : ℕ}
    (hw : ((b :: rest).take (m + 4)).drop m = w) (hlen : w.length = 4)
    (hm : m + 4 ≤ rest.length + 1) :
    charAt bytes (i + m) = .ok ((hex4 w).bind charFromU32) := by
  obtain ⟨w₀, w₁, w₂, w₃, rfl⟩ := List.length_eq_four.mp hlen
  rw [charAt, Nat.add_assoc, bytesRange_ahead h (Nat.le_add_right m 4) hm, hw]
  rfl

/-- Two digits ahead of the position are read. -/
theorem hexPairAt_ahead (h : bytes.drop i = b :: rest) {m : ℕ} {x y : UInt8}
    (hx : (b :: rest)[m]? = some x) (hy : (b :: rest)[m + 1]? = some y) :
    hexPairAt bytes (i + m) = .ok (hex2 x y) := by
  rw [hexPairAt, byteAt_ahead h m, Nat.add_assoc, byteAt_ahead h (m + 1), byteAt, byteAt, hx, hy]
  rfl

end Ahead

/-! ### Each loop is the decoder -/

section Loops

variable {bytes : Bytes} {i : ℕ} {b : UInt8} {rest : Bytes}

/-- What the scanner gives at a position, the body gives there too. -/
def Follows (S : Scanner UInt8 Char) (body : Bytes → ℕ → Except Panic (Str × ℕ)) : Prop :=
  ∀ bytes i b rest, bytes.drop i = b :: rest → ∃ k,
    body bytes i = .ok ((S.step b rest).1, i + (k + 1)) ∧ rest.drop k = (S.step b rest).2

theorem uniAt_eq (h : bytes.drop i = b :: rest) :
    uniAt bytes i = .ok ((uniEscape rest).map Prod.fst) := by
  have hlen := length_of_drop h
  rw [uniAt]
  rcases rest with _ | ⟨u, _ | ⟨w₀, _ | ⟨w₁, _ | ⟨w₂, _ | ⟨w₃, tail⟩⟩⟩⟩⟩
  case cons.cons.cons.cons.cons =>
    have hu : byteAt bytes (i + 1) = .ok u := byteAt_ahead h 1
    have hchar : charAt bytes (i + 2) = .ok ((hex4 [w₀, w₁, w₂, w₃]).bind charFromU32) :=
      charAt_ahead h rfl rfl (by simp)
    rw [if_pos (by simp only [hlen, List.length_cons]; omega), hu, hchar, uniEscape, ok_bind]
    by_cases hletter : u = byte 'u' ∨ u = byte 'U'
    · rw [if_pos hletter, if_pos hletter, Option.map_map]
      exact congrArg Except.ok Option.map_id'.symm
    · rw [if_neg hletter, if_neg hletter]
      rfl
  all_goals
    rw [if_neg (by simp only [hlen, List.length_cons, List.length_nil]; omega)]
    rfl

theorem byteEscapeAt_eq (h : bytes.drop i = b :: rest) :
    ∃ o, byteEscapeAt bytes i = .ok o ∧
      byteEscape rest = o.map fun x => (byteChar x, rest.drop 2) := by
  have hlen := length_of_drop h
  rw [byteEscapeAt]
  rcases rest with _ | ⟨x, _ | ⟨y, tail⟩⟩
  case cons.cons =>
    rw [List.length_cons, List.length_cons] at hlen
    rw [if_pos (by omega), hexPairAt_ahead h (m := 1) rfl rfl]
    exact ⟨_, rfl, rfl⟩
  all_goals
    rw [if_neg (by simp only [hlen, List.length_cons, List.length_nil]; omega)]
    exact ⟨none, rfl, rfl⟩

theorem follows_urlDecodeUni : Follows urlScanner urlDecodeUniBody := by
  intro bytes i b rest h
  have hstep : urlScanner.step b rest =
      emitOr b rest (if b = byte '%' then (uniEscape rest).or (byteEscape rest) else none) := rfl
  rw [urlDecodeUniBody, byteAt_here h, ok_bind, hstep]
  by_cases hb : b = byte '%'
  · rw [if_pos hb, if_pos hb, uniAt_eq h, ok_bind]
    cases huni : uniEscape rest with
    | some p => exact ⟨5, rfl, drop_of_uniEscape huni⟩
    | none =>
      obtain ⟨o, hescape, hvalue⟩ := byteEscapeAt_eq h
      rw [Option.map_none, Option.none_or, hvalue]
      dsimp only
      rw [hescape, ok_bind]
      cases o with
      | some x => exact ⟨2, rfl, rfl⟩
      | none => exact ⟨0, pushByte_eq h, rfl⟩
  · rw [if_neg hb, if_neg hb]
    exact ⟨0, pushByte_eq h, rfl⟩

theorem follows_urlDecodeSimple : Follows urlDecodeScanner urlDecodeSimpleBody := by
  intro bytes i b rest h
  have hstep : urlDecodeScanner.step b rest = if b = byte '+' then ([' '], rest) else
      emitOr b rest (if b = byte '%' then byteEscape rest else none) := rfl
  obtain ⟨o, hescape, hvalue⟩ := byteEscapeAt_eq h
  rw [byteEscapeAt] at hescape
  rw [urlDecodeSimpleBody, byteAt_here h, ok_bind, hstep]
  by_cases hplus : b = byte '+'
  · rw [if_pos hplus, if_pos hplus]
    exact ⟨0, rfl, rfl⟩
  · rw [if_neg hplus, if_neg hplus]
    by_cases hb : b = byte '%'
    · rw [if_pos hb, hvalue]
      by_cases hlen : i + 2 < bytes.length
      · rw [if_pos hlen] at hescape
        rw [if_pos ⟨hb, hlen⟩, hescape, ok_bind]
        cases o with
        | some x => exact ⟨2, rfl, rfl⟩
        | none => exact ⟨0, pushByte_eq h, rfl⟩
      · rw [if_neg hlen] at hescape
        obtain rfl := Except.ok.inj hescape
        rw [if_neg fun hboth => hlen hboth.2]
        exact ⟨0, pushByte_eq h, rfl⟩
    · rw [if_neg hb, if_neg fun hboth => hb hboth.1]
      exact ⟨0, pushByte_eq h, rfl⟩

theorem follows_jsDecode : Follows jsScanner jsDecodeBody := by
  intro bytes i b rest h
  have hlen := length_of_drop h
  rw [jsDecodeBody, byteAt_here h, ok_bind]
  rcases rest with _ | ⟨e, rest⟩
  · rw [if_neg (by simp only [hlen, List.length_nil]; omega)]
    exact ⟨0, pushByte_eq h, rfl⟩
  rw [List.length_cons] at hlen
  by_cases hb : b = byte '\\'
  · have he : byteAt bytes (i + 1) = .ok e := byteAt_ahead h 1
    have hstep : jsScanner.step b (e :: rest) = jsEscape b e rest := by
      show (if b = byte '\\' then _ else _) = _
      rw [if_pos hb]
    rw [if_pos ⟨hb, by omega⟩, he, ok_bind, hstep, jsEscape]
    by_cases hu : (e = byte 'u' ∨ e = byte 'U') ∧ 4 ≤ rest.length
    · have htake : ((b :: e :: rest).take (2 + 4)).drop 2 = rest.take 4 := rfl
      rw [if_pos ⟨hu.1, by omega⟩, if_pos hu,
        charAt_ahead h htake (List.length_take_of_le hu.2) (by rw [List.length_cons]; omega),
        ok_bind]
      cases (hex4 (rest.take 4)).bind charFromU32 with
      | some cp => exact ⟨5, rfl, rfl⟩
      | none => exact ⟨0, pushByte_eq h, rfl⟩
    · rw [if_neg fun hboth => hu ⟨hboth.1, by omega⟩, if_neg hu]
      by_cases hx : (e = byte 'x' ∨ e = byte 'X') ∧ 2 ≤ rest.length
      · rcases rest with _ | ⟨x, _ | ⟨y, rest⟩⟩
        · cases hx.2
        · cases Nat.le_of_succ_le_succ hx.2
        rw [if_pos ⟨hx.1, by simp only [hlen, List.length_cons]; omega⟩, if_pos hx,
          hexPairAt_ahead h (m := 2) rfl rfl, ok_bind, List.getD_cons_zero, List.getD_cons_succ,
          List.getD_cons_zero]
        cases hex2 x y with
        | some v => exact ⟨3, rfl, rfl⟩
        | none => exact ⟨0, pushByte_eq h, rfl⟩
      · rw [if_neg fun hboth => hx ⟨hboth.1, by omega⟩, if_neg hx]
        split_ifs
        all_goals exact ⟨1, rfl, rfl⟩
  · rw [if_neg fun hboth => hb hboth.1]
    have hstep : jsScanner.step b (e :: rest) = ([byteChar b], e :: rest) := by
      show (if b = byte '\\' then _ else _) = _
      rw [if_neg hb]
    rw [hstep]
    exact ⟨0, pushByte_eq h, rfl⟩

/-- The inner loop stops behind the digits. -/
theorem cssDigitsEnd_eq (bytes : Bytes) (n j : ℕ) : cssDigitsEnd bytes n j =
    .ok (j + (((bytes.drop j).take n).takeWhile fun b => (hexDigit b).isSome).length) := by
  induction n generalizing j with
  | zero => rfl
  | succ n ih =>
    rw [cssDigitsEnd]
    by_cases hj : j < bytes.length
    · have hdrop := List.drop_eq_getElem_cons hj
      rw [if_pos hj, byteAt_here hdrop, ok_bind, hdrop, List.take_succ_cons]
      by_cases hdigit : (hexDigit bytes[j]).isSome = true
      · rw [if_pos hdigit, ih, List.takeWhile_cons, if_pos hdigit, List.length_cons]
        exact congrArg Except.ok (Nat.add_right_comm j 1 _)
      · rw [if_neg hdigit, List.takeWhile_cons, if_neg hdigit]
        rfl
    · rw [if_neg hj, List.drop_eq_nil_of_le (Nat.le_of_not_lt hj)]
      rfl

theorem skipSpace_eq (bytes : Bytes) (j : ℕ) : skipSpace bytes j =
    .ok (if (bytes.drop j).head? = some (byte ' ') then j + 1 else j) := by
  rw [skipSpace]
  by_cases hj : j < bytes.length
  · have hdrop := List.drop_eq_getElem_cons hj
    rw [if_pos hj, byteAt_here hdrop, ok_bind, hdrop, List.head?_cons]
    simp only [Option.some.injEq]
    rfl
  · rw [if_neg hj, List.drop_eq_nil_of_le (Nat.le_of_not_lt hj), List.head?_nil]
    rfl

/-- The digits and a space behind them are among the bytes that are left. -/
theorem consumed_bounds {rest : Bytes} {n consumed : ℕ} (hpos : 0 < n) (hle : n ≤ rest.length)
    (h : (if (rest.drop n).head? = some (byte ' ') then n + 1 else n) = consumed) :
    0 < consumed ∧ consumed ≤ rest.length := by
  by_cases hspace : (rest.drop n).head? = some (byte ' ')
  · have hne : rest.drop n ≠ [] := by
      intro hnil
      rw [hnil] at hspace
      cases hspace
    have hlt := List.length_pos_iff.mpr hne
    rw [List.length_drop] at hlt
    rw [if_pos hspace] at h
    omega
  · rw [if_neg hspace] at h
    omega

theorem follows_cssDecode : Follows cssScanner cssDecodeBody := by
  intro bytes i b rest h
  have hlen := length_of_drop h
  have hrest : bytes.drop (i + 1) = rest := by rw [← List.drop_drop, h]; rfl
  have hstep : cssScanner.step b rest =
      emitOr b rest (if b = byte '\\' ∧ rest ≠ [] then cssEscape rest else none) := rfl
  have hguard : (b = byte '\\' ∧ i + 1 < bytes.length) ↔ b = byte '\\' ∧ rest ≠ [] := by
    rw [← List.length_pos_iff, hlen]
    exact and_congr_right fun _ => by omega
  rw [cssDecodeBody, byteAt_here h, ok_bind, hstep]
  by_cases hb : b = byte '\\' ∧ rest ≠ []
  · rw [if_pos (hguard.mpr hb), if_pos hb, cssEscape]
    dsimp only
    rw [cssDigitsEnd_eq, ok_bind, hrest]
    generalize hdigits : ((rest.take 6).takeWhile fun b => (hexDigit b).isSome) = digits
    have hle : digits.length ≤ rest.length := by
      rw [← hdigits]
      exact (List.takeWhile_prefix _).length_le.trans (List.length_take_le' _ _)
    by_cases hnone : digits = []
    · rw [hnone, if_pos rfl, if_neg (by simp)]
      exact ⟨0, pushByte_eq h, rfl⟩
    · have hpos : 0 < digits.length := List.length_pos_iff.mpr hnone
      rw [if_pos (by omega), if_neg hnone]
      generalize hconsumed : (if (rest.drop digits.length).head? = some (byte ' ') then
        digits.length + 1 else digits.length) = consumed
      have hskip : skipSpace bytes (i + 1 + digits.length) = .ok (i + 1 + consumed) := by
        rw [skipSpace_eq, ← List.drop_drop, hrest, ← hconsumed]
        split_ifs <;> rfl
      obtain ⟨hconsumedPos, hconsumedLe⟩ := consumed_bounds hpos hle hconsumed
      have hrange : bytesRange bytes (i + 1) (min (i + 1 + consumed) (i + 1 + 6)) =
          .ok ((rest.take consumed).take 6) := by
        have hmin : min (i + 1 + consumed) (i + 1 + 6) = i + (min 6 consumed + 1) := by omega
        rw [hmin, bytesRange_ahead h (by omega) (by omega), List.take_succ_cons,
          List.drop_succ_cons, List.drop_zero, List.take_take]
      have hvalue : ((fromUtf8 ((rest.take consumed).take 6)).bind fun text =>
          ((fromStrRadix 16 32 (trimEndMatches isWhitespace text)).bind charFromU32).map fun c =>
            (c, rest.drop consumed)) =
          (cssChar ((rest.take consumed).take 6)).map fun c => (c, rest.drop consumed) := by
        rw [cssChar, Option.map_bind]
        rfl
      rw [hskip, ok_bind, hrange, ok_bind, hvalue]
      cases cssChar ((rest.take consumed).take 6) with
      | some c =>
        have hnext : i + 1 + consumed = i + (consumed + 1) := by omega
        exact ⟨consumed, hnext ▸ rfl, rfl⟩
      | none => exact ⟨0, pushByte_eq h, rfl⟩
  · rw [if_neg (mt hguard.mp hb), if_neg hb]
    exact ⟨0, pushByte_eq h, rfl⟩

end Loops

/-! ### Each slice is at an ASCII character -/

section Entities

variable {rest : Str}

/-- The search for a character finds what the split at it finds. -/
theorem findChar_eq_none_of_notMem {c : Char} {s : Str} (h : c ∉ s) :
    findChar (· == c) s = none := by
  rw [findChar_eq_none_iff]
  intro d hd
  exact beq_eq_false_iff_ne.mpr (ne_of_mem_of_not_mem hd h)

theorem findChar_append_cons {c : Char} {a : Str} (h : c ∉ a) (b : Str) :
    findChar (· == c) (a ++ c :: b) = some (asBytes a).length := by
  have hbefore : ∀ d ∈ a, (d == c) = false := fun d hd =>
    beq_eq_false_iff_ne.mpr (ne_of_mem_of_not_mem hd h)
  exact findChar_append hbefore (beq_self_eq_true c) b

/-- Behind an ASCII prefix the digits are sliced at the semicolon. -/
theorem numericArm_eq {pre t : Str} {skip : ℕ} (hpre : (asBytes pre).length = skip)
    (hlen : pre.length = skip) (radix : ℕ) :
    numericArm radix skip (pre ++ t) = .ok (numericEntity radix skip (pre ++ t)) := by
  have hfrom : sliceFrom (pre ++ t) skip = .ok t := hpre ▸ sliceFrom_append pre t
  rw [numericArm, hfrom, ok_bind, numericEntity, List.drop_left' hlen]
  cases hsplit : splitOnce ';' t with
  | none =>
    rw [findChar_eq_none_of_notMem (splitOnce_eq_none_iff.mp hsplit)]
    rfl
  | some p =>
    obtain ⟨digits, tail⟩ := p
    obtain ⟨rfl, hnot⟩ := splitOnce_eq_some_iff.mp hsplit
    have hto : sliceTo (pre ++ (digits ++ ';' :: tail)) (skip + (asBytes digits).length) =
        .ok (pre ++ digits) := by
      rw [← List.append_assoc, ← hpre, ← length_asBytes_append]
      exact sliceTo_append _ _
    have hrange : sliceRange (pre ++ (digits ++ ';' :: tail)) skip
        (skip + (asBytes digits).length) = .ok digits := by
      rw [sliceRange, if_pos (Nat.le_add_right _ _), hto, ok_bind, ← hpre]
      exact sliceFrom_append pre digits
    have htail : sliceFrom (pre ++ (digits ++ ';' :: tail))
        (skip + 1 + (asBytes digits).length) = .ok tail := by
      rw [← List.append_assoc, Nat.add_right_comm, ← hpre, ← length_asBytes_append]
      exact sliceFrom_behind (by decide) _ _
    rw [findChar_append_cons hnot]
    dsimp only
    rw [hrange, ok_bind, Option.bind_some]
    cases (fromStrRadix radix 32 digits).bind charFromU32 with
    | none => rfl
    | some c =>
      dsimp only
      rw [htail]
      rfl

/-- The arm that applies is the entity, and its slices are taken behind what it starts with. -/
theorem entityArm_eq (rest : Str) : entityArm rest = .ok (entityAt rest) := by
  have hwidth : ∀ arm ∈ entityArms, (asBytes arm.1).length = arm.2.2 := by decide
  have hnames : namedEntities = entityArms.map fun arm => (arm.1, arm.2.1) := rfl
  have hnumeric : ∀ pre : Str, pre.isPrefixOf rest = true → (asBytes pre).length = pre.length →
      ∀ radix, numericArm radix pre.length rest = .ok (numericEntity radix pre.length rest) := by
    intro pre hpre hlen radix
    obtain ⟨t, rfl⟩ := List.isPrefixOf_iff_prefix.mp hpre
    exact numericArm_eq hlen rfl radix
  rw [entityArm, entityAt, hnames, List.find?_map]
  have hcompose : ((fun e : Str × Char => e.1.isPrefixOf rest) ∘ fun arm : Str × Char × ℕ =>
      (arm.1, arm.2.1)) = fun arm => arm.1.isPrefixOf rest := rfl
  rw [hcompose]
  cases hfind : entityArms.find? fun arm => arm.1.isPrefixOf rest with
  | some arm =>
    obtain ⟨name, c, width⟩ := arm
    have hpre : name.isPrefixOf rest = true := by simpa using List.find?_some hfind
    obtain ⟨t, rfl⟩ := List.isPrefixOf_iff_prefix.mp hpre
    have hlen : (asBytes name).length = width := hwidth _ (List.mem_of_find?_eq_some hfind)
    have hfrom : sliceFrom (name ++ t) width = .ok t := hlen ▸ sliceFrom_append name t
    dsimp only [Option.map_some]
    rw [hfrom, List.drop_left]
    rfl
  | none =>
    dsimp only [Option.map_none]
    by_cases hhex : "&#x".toList.isPrefixOf rest = true ∨ "&#X".toList.isPrefixOf rest = true
    · rw [if_pos hhex, if_pos hhex]
      rcases hhex with hpre | hpre
      · exact hnumeric _ hpre (by decide) 16
      · exact hnumeric _ hpre (by decide) 16
    · rw [if_neg hhex, if_neg hhex]
      by_cases hdec : "&#".toList.isPrefixOf rest = true
      · rw [if_pos hdec, if_pos hdec]
        exact hnumeric _ hdec (by decide) 10
      · rw [if_neg hdec, if_neg hdec]

/-- What stands before an ampersand is read as it is. -/
theorem reads_before {before : Str} (h : '&' ∉ before) : entityScanner.Reads before before := by
  induction before with
  | nil => exact fun _ => rfl
  | cons c before ih =>
    intro rest
    have hc : c ≠ '&' := ne_of_mem_of_not_mem List.mem_cons_self h
    have hstep : entityScanner.step c (before ++ rest) = ([c], before ++ rest) := if_neg hc
    rw [List.cons_append, Scanner.run_cons, hstep, ih (fun hmem => h (List.mem_cons_of_mem c hmem))]
    rfl

theorem suffix_of_numericEntity {radix skip : ℕ} {l tail : Str} {c : Char}
    (h : numericEntity radix skip l = some (c, tail)) : tail <:+ l := by
  obtain ⟨⟨digits, t⟩, hsplit, h⟩ := Option.bind_eq_some_iff.mp h
  obtain ⟨_, _, heq⟩ := Option.map_eq_some_iff.mp h
  obtain ⟨hdrop, -⟩ := splitOnce_eq_some_iff.mp hsplit
  have hsuffix : t <:+ l.drop skip := ⟨digits ++ [';'], by rw [hdrop, List.append_assoc]; rfl⟩
  rw [← (Prod.mk.inj heq).2]
  exact hsuffix.trans (List.drop_suffix skip l)

/-- What is left behind an entity is the end of the text. -/
theorem suffix_of_entityAt {l tail : Str} {c : Char} (h : entityAt l = some (c, tail)) :
    tail <:+ l := by
  rw [entityAt] at h
  split at h
  · rw [← (Prod.mk.inj (Option.some.inj h)).2]
    exact List.drop_suffix _ l
  · split at h
    · exact suffix_of_numericEntity h
    · split at h
      · exact suffix_of_numericEntity h
      · cases h

/-- A shorter end of a text has fewer bytes. -/
theorem length_asBytes_lt {l tail : Str} (hsuffix : tail <:+ l) (hlt : tail.length < l.length) :
    (asBytes tail).length < (asBytes l).length := by
  obtain ⟨front, rfl⟩ := hsuffix
  cases front with
  | nil => exact absurd hlt (Nat.lt_irrefl _)
  | cons c front =>
    have hpos := c.utf8Size_pos
    rw [List.cons_append, length_asBytes_cons, length_asBytes_append]
    omega

/-- A pass gives the text up to the ampersand and what stands there. -/
theorem htmlEntityDecodeBody_gives (s : Str) : ∃ p, htmlEntityDecodeBody s = .ok p ∧
    p.Gives (fun rest => (asBytes rest).length) htmlEntityDecode s := by
  rw [htmlEntityDecodeBody]
  cases hsplit : splitOnce '&' s with
  | none =>
    have hnot := splitOnce_eq_none_iff.mp hsplit
    rw [findChar_eq_none_of_notMem hnot]
    exact ⟨_, rfl, htmlEntityDecode_of_plain hnot⟩
  | some p =>
    obtain ⟨before, after⟩ := p
    obtain ⟨rfl, hnot⟩ := splitOnce_eq_some_iff.mp hsplit
    have hrun : htmlEntityDecode (before ++ '&' :: after) =
        before ++ entityScanner.run ('&' :: after) := reads_before hnot _
    rw [findChar_append_cons hnot]
    dsimp only
    rw [sliceTo_append, sliceFrom_append, ok_bind, ok_bind, entityArm_eq, ok_bind]
    cases hentity : entityAt ('&' :: after) with
    | some e =>
      obtain ⟨c, tail⟩ := e
      have hlt := length_asBytes_lt (suffix_of_entityAt hentity) (entityAt_lt hentity)
      refine ⟨_, rfl, ?_, ?_⟩
      · show (asBytes tail).length < (asBytes (before ++ '&' :: after)).length
        rw [length_asBytes_append]
        exact Nat.lt_add_left _ hlt
      · rw [hrun, Scanner.run_cons, entityStep hentity, List.append_assoc]
        rfl
    | none =>
      have hstep : entityScanner.step '&' after = (['&'], after) := by
        simp only [entityScanner, if_true, hentity]
      have hone : sliceFrom ('&' :: after) 1 = .ok after := sliceFrom_one (by decide) rfl
      dsimp only
      rw [hone, ok_bind]
      have hlt := length_asBytes_lt (List.suffix_cons '&' after) (Nat.lt_succ_self _)
      refine ⟨_, rfl, ?_, ?_⟩
      · show (asBytes after).length < (asBytes (before ++ '&' :: after)).length
        rw [length_asBytes_append]
        exact Nat.lt_add_left _ hlt
      · rw [hrun, Scanner.run_cons, hstep, List.append_assoc]
        rfl

end Entities

/-! ### The pipeline does not fail -/

theorem urlDecodeUniIndexed_eq (s : Str) : urlDecodeUniIndexed s = .ok (urlDecodeUni s) :=
  indexLoop_eq (follows_urlDecodeUni (asBytes s))

theorem urlDecodeSimpleIndexed_eq (s : Str) : urlDecodeSimpleIndexed s = .ok (urlDecodeSimple s) :=
  indexLoop_eq (follows_urlDecodeSimple (asBytes s))

theorem jsDecodeIndexed_eq (s : Str) : jsDecodeIndexed s = .ok (jsDecode s) :=
  indexLoop_eq (follows_jsDecode (asBytes s))

theorem cssDecodeIndexed_eq (s : Str) : cssDecodeIndexed s = .ok (cssDecode s) :=
  indexLoop_eq (follows_cssDecode (asBytes s))

theorem htmlEntityDecodeSliced_eq (s : Str) :
    htmlEntityDecodeSliced s = .ok (htmlEntityDecode s) :=
  runLoop_eq htmlEntityDecodeBody_gives s

theorem applyOneIndexed_eq (s : Str) (t : Transform) :
    applyOneIndexed s t = .ok (applyOne s t) := by
  cases t with
  | urlDecodeUni => exact urlDecodeUniIndexed_eq s
  | htmlEntityDecode => exact htmlEntityDecodeSliced_eq s
  | jsDecode => exact jsDecodeIndexed_eq s
  | cssDecode => exact cssDecodeIndexed_eq s
  | _ => rfl

/-- The pipeline, index by index, is the pipeline. -/
theorem applyTransformsIndexed_eq (value : Str) (transforms : List Transform) :
    applyTransformsIndexed value transforms = .ok (applyTransforms value transforms) := by
  induction transforms generalizing value with
  | nil => rfl
  | cons t transforms ih =>
    rw [applyTransformsIndexed, List.foldlM_cons, applyOneIndexed_eq, ok_bind]
    exact ih (applyOne value t)

/-- **No request makes a decoder fail**: for every value and all transforms every index and every
slice is in bounds and on a character boundary, and every pass of every loop consumes a byte or
more, as a pass that does not is a fault of the loop. -/
theorem decoders_total (value : Str) (transforms : List Transform) :
    applyTransformsIndexed value transforms = .ok (applyTransforms value transforms) ∧
      urlDecodeSimpleIndexed value = .ok (urlDecodeSimple value) :=
  ⟨applyTransformsIndexed_eq value transforms, urlDecodeSimpleIndexed_eq value⟩

end Crs

end Fywaf
