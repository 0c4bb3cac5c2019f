import Fywaf.Std.CaseTables
import Fywaf.Std.Utf8

/-!
# Characters: white space and case

What `char` and `str` answer about white space and case. Two notions of white space are in use and
they differ: `char::is_whitespace` is the Unicode property, `is_ascii_whitespace` is five
characters and leaves out the vertical tab. Three notions of lower case are in use as well; the
one on `str` looks at the neighbours of a capital sigma.

## Main definitions

* `isWhitespace`, `isAsciiWhitespace`
* `toAsciiLowercase`, `toLowercase`, `toUppercase` — the case functions of `str`

## Main results

* `toAsciiLowercase_idem`, `isWhitespace_toLower` — ASCII folding is stable, and blind to blanks
* `mem_toAsciiLowercase_iff` — folding moves no separator
* `toLowercase_toAsciiLowercase` — the full mapping is blind to ASCII case
-/

namespace Fywaf

/-- `char::is_whitespace`: the Unicode property `White_Space`. -/
def isWhitespace (c : Char) : Bool :=
  let n := c.toNat
  (9 ≤ n && n ≤ 13) || n == 0x20 || n == 0x85 || n == 0xA0 || n == 0x1680 ||
    (0x2000 ≤ n && n ≤ 0x200A) || n == 0x2028 || n == 0x2029 || n == 0x202F || n == 0x205F ||
    n == 0x3000

/-- `char::is_ascii_whitespace`: space, tab, line feed, form feed, carriage return. -/
def isAsciiWhitespace (c : Char) : Bool :=
  c == ' ' || c == '\t' || c == '\n' || c == '\x0c' || c == '\r'

/-- A visible ASCII character. -/
def IsGraphic (c : Char) : Prop := 0x21 ≤ c.toNat ∧ c.toNat ≤ 0x7E

instance (c : Char) : Decidable (IsGraphic c) := inferInstanceAs (Decidable (_ ∧ _))

theorem IsGraphic.not_whitespace {c : Char} (h : IsGraphic c) : isWhitespace c = false := by
  obtain ⟨h₁, h₂⟩ := h
  rw [← Bool.not_eq_true]
  simp only [isWhitespace, Bool.or_eq_true, Bool.and_eq_true, decide_eq_true_eq, beq_iff_eq]
  omega

/-- ASCII white space is white space. -/
theorem isWhitespace_of_isAsciiWhitespace {c : Char} (h : isAsciiWhitespace c = true) :
    isWhitespace c = true := by
  simp only [isAsciiWhitespace, Bool.or_eq_true, beq_iff_eq] at h
  rcases h with (((rfl | rfl) | rfl) | rfl) | rfl
  all_goals decide

/-! ### Case, one scalar value at a time -/

/-- The image of `n` in a table of runs. -/
def runImage (runs : List (ℕ × ℕ × ℕ × ℕ)) (n : ℕ) : Option ℕ :=
  (runs.find? fun (first, last, stride, _) =>
      first ≤ n && n ≤ last && (n - first) % stride == 0).map
    fun (first, _, _, image) => image + (n - first)

/-- Case mapping outside ASCII: the special mappings win over the runs. -/
def mapCase (special : List (ℕ × List ℕ)) (runs : List (ℕ × ℕ × ℕ × ℕ)) (c : Char) : Str :=
  match special.lookup c.toNat with
  | some image => image.map Char.ofNat
  | none =>
    match runImage runs c.toNat with
    | some n => [Char.ofNat n]
    | none => [c]

/-- `char::to_lowercase`. -/
def charToLowercase (c : Char) : Str :=
  if c.toNat < 0x80 then [c.toLower] else mapCase lowerSpecial lowerRuns c

/-- `char::to_uppercase`. -/
def charToUppercase (c : Char) : Str :=
  if c.toNat < 0x80 then [c.toUpper] else mapCase upperSpecial upperRuns c

/-- Membership in a table of closed ranges. -/
def inRanges (ranges : List (ℕ × ℕ)) (c : Char) : Bool :=
  ranges.any fun (first, last) => first ≤ c.toNat && c.toNat ≤ last

/-- The property `Cased`. -/
def isCased (c : Char) : Bool := inRanges casedRanges c

/-- The property `Case_Ignorable`. -/
def isCaseIgnorable (c : Char) : Bool := inRanges caseIgnorableRanges c

/-! ### Case of a text -/

/-- `str::to_ascii_lowercase`. -/
def toAsciiLowercase (s : Str) : Str := s.map Char.toLower

/-- Skipping what case ignores, is the next character cased? -/
def caseIgnorableThenCased (s : Str) : Bool :=
  match s.dropWhile isCaseIgnorable with
  | c :: _ => isCased c
  | [] => false

/-- The lowercase of a capital sigma between `before` (nearest first) and `after`: final when it
ends a word. -/
def mapUppercaseSigma (before after : Str) : Char :=
  if caseIgnorableThenCased before && !caseIgnorableThenCased after then 'ς' else 'σ'

/-- `to_lowercase` of the rest of a text, given what stands before it (nearest first). -/
def toLowercaseAfter : Str → Str → Str
  | _, [] => []
  | before, c :: after =>
    (if c = 'Σ' then [mapUppercaseSigma before after] else charToLowercase c) ++
      toLowercaseAfter (c :: before) after

/-- `str::to_lowercase`. -/
def toLowercase (s : Str) : Str := toLowercaseAfter [] s

/-- `str::to_uppercase`. -/
def toUppercase (s : Str) : Str := s.flatMap charToUppercase

/-! ### ASCII case -/

/-- ASCII folding as arithmetic on the scalar value. -/
theorem toNat_toLower (c : Char) :
    c.toLower.toNat = if 65 ≤ c.toNat ∧ c.toNat ≤ 90 then c.toNat + 32 else c.toNat := by
  have hA : ('A'.val : UInt32).toNat = 65 := rfl
  have hZ : ('Z'.val : UInt32).toNat = 90 := rfl
  have hiff : (c.val ≥ 'A'.val ∧ c.val ≤ 'Z'.val) ↔ (65 ≤ c.toNat ∧ c.toNat ≤ 90) := by
    rw [ge_iff_le, UInt32.le_iff_toNat_le, UInt32.le_iff_toNat_le, hA, hZ]
    rfl
  unfold Char.toLower
  by_cases h : c.val ≥ 'A'.val ∧ c.val ≤ 'Z'.val
  · rw [dif_pos h, if_pos (hiff.mp h)]
    have hn := hiff.mp h
    have hv : c.val.toNat = c.toNat := rfl
    change (c.val + ('a'.val - 'A'.val)).toNat = _
    rw [UInt32.toNat_add, hv, show ('a'.val - 'A'.val : UInt32).toNat = 32 from rfl]
    omega
  · rw [dif_neg h, if_neg (fun hc => h (hiff.mpr hc))]

@[simp] theorem toLower_toLower (c : Char) : c.toLower.toLower = c.toLower := by
  refine char_ext_toNat ?_
  rw [toNat_toLower, toNat_toLower]
  split_ifs <;> omega

/-- Folding neither makes nor removes white space. -/
@[simp] theorem isWhitespace_toLower (c : Char) : isWhitespace c.toLower = isWhitespace c := by
  unfold isWhitespace
  rw [toNat_toLower]
  split
  · next h =>
    rw [Bool.eq_iff_iff]
    simp only [Bool.or_eq_true, Bool.and_eq_true, decide_eq_true_eq, beq_iff_eq]
    omega
  · rfl

/-- Folding keeps every character that is not a capital letter, in both directions. -/
theorem toLower_eq_iff {c d : Char} (hd : ¬ (97 ≤ d.toNat ∧ d.toNat ≤ 122))
    (hd' : ¬ (65 ≤ d.toNat ∧ d.toNat ≤ 90)) : c.toLower = d ↔ c = d := by
  have key : c.toLower.toNat = d.toNat ↔ c.toNat = d.toNat := by
    rw [toNat_toLower]
    split <;> omega
  exact ⟨fun h => char_ext_toNat (key.mp (congrArg _ h)),
    fun h => char_ext_toNat (key.mpr (congrArg _ h))⟩

@[simp] theorem toAsciiLowercase_idem (s : Str) :
    toAsciiLowercase (toAsciiLowercase s) = toAsciiLowercase s := by
  simp [toAsciiLowercase, Function.comp_def]

/-- A character that is no letter occurs in a folded text exactly when it occurs in the text. -/
theorem mem_toAsciiLowercase_iff {d : Char} {s : Str} (hd : ¬ (97 ≤ d.toNat ∧ d.toNat ≤ 122))
    (hd' : ¬ (65 ≤ d.toNat ∧ d.toNat ≤ 90)) : d ∈ toAsciiLowercase s ↔ d ∈ s := by
  simp [toAsciiLowercase, toLower_eq_iff hd hd']

/-! ### The full mapping under ASCII case -/

/-- A letter is cased in both its forms and ignorable in none. -/
theorem inRanges_letter : ∀ n ∈ List.range' 65 26,
    (casedRanges.any fun (first, last) => first ≤ n + 32 && n + 32 ≤ last) =
        (casedRanges.any fun (first, last) => first ≤ n && n ≤ last) ∧
      (caseIgnorableRanges.any fun (first, last) => first ≤ n + 32 && n + 32 ≤ last) =
        (caseIgnorableRanges.any fun (first, last) => first ≤ n && n ≤ last) := by
  decide +kernel

theorem isCased_toLower (c : Char) :
    isCased c.toLower = isCased c ∧ isCaseIgnorable c.toLower = isCaseIgnorable c := by
  simp only [isCased, isCaseIgnorable, inRanges, toNat_toLower]
  by_cases h : 65 ≤ c.toNat ∧ c.toNat ≤ 90
  · rw [if_pos h]
    exact inRanges_letter c.toNat (List.mem_range'_1.mpr (by omega))
  · rw [if_neg h]
    exact ⟨rfl, rfl⟩

theorem caseIgnorableThenCased_map (s : Str) :
    caseIgnorableThenCased (s.map Char.toLower) = caseIgnorableThenCased s := by
  have hcomp : isCaseIgnorable ∘ Char.toLower = isCaseIgnorable :=
    funext fun c => (isCased_toLower c).2
  rw [caseIgnorableThenCased, caseIgnorableThenCased, List.dropWhile_map, hcomp]
  cases s.dropWhile isCaseIgnorable with
  | nil => rfl
  | cons c t => exact (isCased_toLower c).1

theorem charToLowercase_toLower (c : Char) : charToLowercase c.toLower = charToLowercase c := by
  have hcode := toNat_toLower c
  by_cases h : 65 ≤ c.toNat ∧ c.toNat ≤ 90
  · rw [if_pos h] at hcode
    rw [charToLowercase, charToLowercase, if_pos (by omega), if_pos (by omega), toLower_toLower]
  · rw [if_neg h] at hcode
    rw [char_ext_toNat hcode]

theorem toLowercaseAfter_map (s : Str) : ∀ before,
    toLowercaseAfter (before.map Char.toLower) (s.map Char.toLower) =
      toLowercaseAfter before s := by
  induction s with
  | nil => exact fun _ => rfl
  | cons c s ih =>
    intro before
    have hsigma : c.toLower = 'Σ' ↔ c = 'Σ' := toLower_eq_iff (by decide) (by decide)
    rw [List.map_cons, toLowercaseAfter, toLowercaseAfter, mapUppercaseSigma, mapUppercaseSigma,
      caseIgnorableThenCased_map, caseIgnorableThenCased_map, charToLowercase_toLower,
      ← List.map_cons, ih]
    simp only [hsigma]

/-- **The full mapping is blind to ASCII case.** -/
theorem toLowercase_toAsciiLowercase (s : Str) :
    toLowercase (toAsciiLowercase s) = toLowercase s :=
  toLowercaseAfter_map s []

end Fywaf
