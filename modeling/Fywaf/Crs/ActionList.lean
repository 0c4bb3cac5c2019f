import Fywaf.Crs.Bytewise
import Fywaf.Crs.Parser

/-!
# The action list

The actions of a rule are what is between commas outside quotes. `split_actions` looks for the
commas among the bytes and makes a character of every byte, so it cuts the text that the bytes
make, which has its quotes, backslashes and commas where the text has them.

## Main definitions

* `Crs.actionList` — the actions of a rule, as text
* `Crs.IsPlainChar` — a character that says nothing about where actions end

## Main results

* `Crs.splitActionsFrom_eq` — the loop over the bytes is one over characters
* `Crs.splitActions_eq` — the parser reads the actions byte by byte
-/

namespace Fywaf

namespace Crs

/-- The actions that are left, given the quotes that are open and the action read so far. -/
def actionsFrom : Bool → Bool → Str → Str → List Str
  | _, _, current, [] => if current = [] then [] else [current]
  | inSingle, inDouble, current, c :: rest =>
    if c = '\'' ∧ !inDouble then actionsFrom (!inSingle) inDouble (current ++ [c]) rest
    else if c = '"' ∧ !inSingle then actionsFrom inSingle (!inDouble) (current ++ [c]) rest
    else if c = '\\' then
      match rest with
      | [] => [current ++ [c]]
      | d :: rest => actionsFrom inSingle inDouble (current ++ [c, d]) rest
    else if c = ',' ∧ !inSingle ∧ !inDouble then current :: actionsFrom inSingle inDouble [] rest
    else actionsFrom inSingle inDouble (current ++ [c]) rest

/-- The actions between commas outside quotes, as text. -/
def actionList (s : Str) : List Str := actionsFrom false false [] s

/-- A character that is no quote, comma or backslash. -/
def IsPlainChar (c : Char) : Prop := c ∉ ['\'', '"', ',', '\\']

instance (c : Char) : Decidable (IsPlainChar c) := inferInstanceAs (Decidable (_ ∉ _))

section Scan

variable {inSingle inDouble : Bool} {s : Str}

/-- A character that hides none behind it. -/
theorem actionsFrom_cons {c : Char} (hc : c ≠ '\\') (current s : Str) :
    actionsFrom inSingle inDouble current (c :: s) =
      if c = '\'' ∧ !inDouble then actionsFrom (!inSingle) inDouble (current ++ [c]) s
      else if c = '"' ∧ !inSingle then actionsFrom inSingle (!inDouble) (current ++ [c]) s
      else if c = ',' ∧ !inSingle ∧ !inDouble then current :: actionsFrom inSingle inDouble [] s
      else actionsFrom inSingle inDouble (current ++ [c]) s := by
  cases s with
  | nil => conv_lhs => rw [actionsFrom, if_neg hc]
  | cons d s => conv_lhs => rw [actionsFrom, if_neg hc]

/-- A backslash hides the character behind it. -/
theorem actionsFrom_escape (current s : Str) (c : Char) :
    actionsFrom inSingle inDouble current ('\\' :: c :: s) =
      actionsFrom inSingle inDouble (current ++ ['\\', c]) s := by
  rw [actionsFrom, if_neg fun h => absurd h.1 (by decide),
    if_neg fun h => absurd h.1 (by decide), if_pos rfl]

/-- Plain text belongs to the action it is in. -/
theorem actionsFrom_plain (hs : ∀ c ∈ s, IsPlainChar c) (current t : Str) :
    actionsFrom inSingle inDouble current (s ++ t) =
      actionsFrom inSingle inDouble (current ++ s) t := by
  induction s generalizing current with
  | nil => rw [List.nil_append, List.append_nil]
  | cons c s ih =>
    have hc := hs c List.mem_cons_self
    simp only [IsPlainChar, List.mem_cons, List.not_mem_nil, not_or, or_false] at hc
    obtain ⟨hsingle, hdouble, hcomma, hescape⟩ := hc
    rw [List.cons_append, actionsFrom_cons hescape, if_neg fun h => hsingle h.1,
      if_neg fun h => hdouble h.1, if_neg fun h => hcomma h.1,
      ih fun d hd => hs d (List.mem_cons_of_mem _ hd), List.append_assoc, List.singleton_append]

end Scan

/-! ### Byte by byte -/

/-- The loop over the bytes is the one over the characters that they become. -/
theorem splitActionsFrom_eq (inSingle inDouble : Bool) (current : Str) (bs : Bytes) :
    splitActionsFrom inSingle inDouble current bs =
      actionsFrom inSingle inDouble current (bs.map byteChar) := by
  have hbackslash : ∀ {b}, byteChar b = '\\' ↔ b = byte '\\' := byteChar_eq_iff (by decide)
  have hcons : ∀ {inSingle inDouble current b rest}, b ≠ byte '\\' →
      actionsFrom inSingle inDouble current ((b :: rest).map byteChar) =
        if b = byte '\'' ∧ !inDouble then
          actionsFrom (!inSingle) inDouble (current ++ [byteChar b]) (rest.map byteChar)
        else if b = byte '"' ∧ !inSingle then
          actionsFrom inSingle (!inDouble) (current ++ [byteChar b]) (rest.map byteChar)
        else if b = byte ',' ∧ !inSingle ∧ !inDouble then
          current :: actionsFrom inSingle inDouble [] (rest.map byteChar)
        else actionsFrom inSingle inDouble (current ++ [byteChar b]) (rest.map byteChar) := by
    intro inSingle inDouble current b rest hb
    have hsingle : byteChar b = '\'' ↔ b = byte '\'' := byteChar_eq_iff (by decide)
    have hdouble : byteChar b = '"' ↔ b = byte '"' := byteChar_eq_iff (by decide)
    have hcomma : byteChar b = ',' ↔ b = byte ',' := byteChar_eq_iff (by decide)
    simp only [List.map_cons, actionsFrom_cons (mt hbackslash.mp hb), hsingle, hdouble, hcomma]
  fun_induction splitActionsFrom inSingle inDouble current bs with
  | case1 => rfl
  | case2 inSingle inDouble current hne => rw [List.map_nil, actionsFrom, if_neg hne]
  | case3 inSingle inDouble current b rest hquote ih =>
    rw [hcons (by rw [hquote.1]; decide), if_pos hquote, ih]
  | case4 inSingle inDouble current b rest hnot hquote ih =>
    rw [hcons (by rw [hquote.1]; decide), if_neg hnot, if_pos hquote, ih]
  | case5 inSingle inDouble current hnot hnot' => rfl
  | case6 inSingle inDouble current c rest hnot hnot' ih =>
    rw [ih, List.map_cons, List.map_cons, hbackslash.mpr rfl, actionsFrom_escape]
  | case7 inSingle inDouble current b rest hnot hnot' hescape hcomma ih =>
    rw [hcons hescape, if_neg hnot, if_neg hnot', if_pos hcomma, ih]
  | case8 inSingle inDouble current b rest hnot hnot' hescape hcomma ih =>
    rw [hcons hescape, if_neg hnot, if_neg hnot', if_neg hcomma, ih]

/-- A byte that is not ASCII becomes a plain character. -/
theorem isPlainChar_byteChar {b : UInt8} (hb : 0x80 ≤ b.toNat) : IsPlainChar (byteChar b) := by
  have hascii : ∀ c ∈ ['\'', '"', ',', '\\'], c.toNat < 0x80 := forall_mem_of_all (by decide)
  intro hmem
  have hlow := hascii _ hmem
  rw [toNat_byteChar] at hlow
  omega

/-- The quotes and the separators are found in the bytes where they are in the text. -/
theorem actionsFrom_bytewise (inSingle inDouble : Bool) (current s : Str) :
    actionsFrom inSingle inDouble (bytewise current) (bytewise s) =
      (actionsFrom inSingle inDouble current s).map bytewise := by
  have hsnoc : ∀ (current : Str) {c : Char}, c.toNat < 0x80 →
      bytewise current ++ [c] = bytewise (current ++ [c]) := by
    intro current c hc
    rw [bytewise_append, bytewise_cons_ascii hc, bytewise_nil]
  have hhigh : ∀ {bs : Bytes}, (∀ b ∈ bs, 0x80 ≤ b.toNat) →
      ∀ c ∈ bs.map byteChar, IsPlainChar c := by
    intro bs hbs
    exact List.forall_mem_map.mpr fun b hb => isPlainChar_byteChar (hbs b hb)
  fun_induction actionsFrom inSingle inDouble current s with
  | case1 inSingle inDouble => rfl
  | case2 inSingle inDouble current hne =>
    rw [bytewise_nil, actionsFrom, if_neg (mt bytewise_eq_nil_iff.mp hne)]
    rfl
  | case3 inSingle inDouble current c rest hquote ih =>
    obtain ⟨rfl, hdouble⟩ := hquote
    rw [bytewise_cons_ascii (by decide), actionsFrom_cons (by decide), if_pos ⟨rfl, hdouble⟩,
      hsnoc current (by decide), ih]
  | case4 inSingle inDouble current c rest hnot hquote ih =>
    obtain ⟨rfl, hsingle⟩ := hquote
    rw [bytewise_cons_ascii (by decide), actionsFrom_cons (by decide), if_neg hnot,
      if_pos ⟨rfl, hsingle⟩, hsnoc current (by decide), ih]
  | case5 inSingle inDouble current hnot hnot' =>
    rw [List.map_singleton, ← hsnoc current (by decide), bytewise_cons_ascii (by decide)]
    rfl
  | case6 inSingle inDouble current d rest hnot hnot' ih =>
    obtain ⟨b, bs, he, hbs, -⟩ := encode_high d
    have hpair : bytewise current ++ ['\\', byteChar b] ++ bs.map byteChar =
        bytewise (current ++ ['\\', d]) := by
      rw [bytewise_append, bytewise_cons_ascii (by decide), bytewise_cons, he, bytewise_nil,
        List.append_nil, List.map_cons, List.append_assoc]
      rfl
    rw [bytewise_cons_ascii (by decide), bytewise_cons, he, List.map_cons, List.cons_append,
      actionsFrom_escape, actionsFrom_plain (hhigh hbs), hpair, ih]
  | case7 inSingle inDouble current c rest hnot hnot' hescape hcomma ih =>
    obtain ⟨rfl, hclosed⟩ := hcomma
    rw [bytewise_cons_ascii (by decide), actionsFrom_cons hescape, if_neg hnot, if_neg hnot',
      if_pos ⟨rfl, hclosed⟩, List.map_cons, ← ih, bytewise_nil]
  | case8 inSingle inDouble current c rest hnot hnot' hescape hcomma ih =>
    by_cases hc : c.toNat < 0x80
    · rw [bytewise_cons_ascii hc, actionsFrom_cons hescape, if_neg hnot, if_neg hnot',
        if_neg hcomma, hsnoc current hc, ih]
    · obtain ⟨b, bs, he, hbs, hlead⟩ := encode_high c
      have hall : ∀ x ∈ String.utf8EncodeChar c, 0x80 ≤ x.toNat := by
        rw [he]
        exact List.forall_mem_cons.mpr ⟨Nat.le_trans (by decide) (hlead (Nat.not_lt.mp hc)), hbs⟩
      rw [bytewise_cons, actionsFrom_plain (hhigh hall), ← ih, bytewise_append, bytewise_cons,
        bytewise_nil, List.append_nil]

/-- **The parser reads the actions byte by byte**: each of them comes out bytewise. -/
theorem splitActions_eq (s : Str) : splitActions s = (actionList s).map bytewise := by
  rw [splitActions, splitActionsFrom_eq]
  exact actionsFrom_bytewise false false [] s

end Crs

end Fywaf
