import Fywaf.Std.Json

/-!
# Reading written JSON back

The writer and the reader of `Std.Json` are a lawful pair: every value, of whatever size and
depth, is read back from the text it is written as, with the strings marked that are written with
escape sequences.

## Main results

* `intOf_decimal`, `readNumber_write` — numbers
* `readString_write` — strings
* `readValue_write` — values, by recursion on the value and a bound on the steps
* `lawful_compactJson`
-/

namespace Fywaf

/-! ### Numbers -/

/-- A positive number is not written with a leading zero. -/
theorem head?_decimal {n : ℕ} (hn : 0 < n) : (decimal n).head? ≠ some '0' := by
  have hdigit : ∀ d < 10, 0 < d → Nat.digitChar d ≠ '0' := by decide
  induction n using Nat.strong_induction_on with
  | _ n ih =>
    rw [decimal, Nat.toDigits_eq_if (by decide)]
    split
    · next hlt =>
      rw [List.head?_cons, ne_eq, Option.some.injEq]
      exact hdigit n hlt hn
    · next hge =>
      rw [List.head?_append_of_ne_nil _ Nat.toDigits_ne_nil]
      exact ih (n / 10) (Nat.div_lt_self hn (by decide)) (by omega)

theorem isIntText_decimal (n : ℕ) : isIntText (decimal n) = true := by
  have hdigits : isDigits (decimal n) = true := by
    rw [isDigits, Bool.and_eq_true, decide_eq_true_iff, List.all_eq_true]
    exact ⟨decimal_ne_nil n, fun c => decimal_digits⟩
  rw [isIntText, hdigits, Bool.true_and]
  rcases Nat.eq_zero_or_pos n with rfl | hn
  · rfl
  · simp [head?_decimal hn]

theorem ofDigitChars_decimal (n : ℕ) : Nat.ofDigitChars 10 (decimal n) 0 = n :=
  Nat.ofDigitChars_ten_toDigits

theorem head?_decimal_ne {n : ℕ} {c : Char} (hc : c.isDigit = false) :
    (decimal n).head? ≠ some c := by
  intro h
  have := decimal_digits (List.mem_of_mem_head? h)
  rw [hc] at this
  cases this

theorem intOf_decimal {n : ℕ} (h : n < 2 ^ 64) : intOf (decimal n) = some (false, n) := by
  rw [intOf, if_neg (head?_decimal_ne (by decide))]
  simp only [ofDigitChars_decimal, isIntText_decimal, h, and_self, if_true]

theorem intOf_minus_decimal {n : ℕ} (h : 0 < n ∧ n ≤ 2 ^ 63) :
    intOf ('-' :: decimal n) = some (true, n) := by
  rw [intOf, if_pos List.head?_cons]
  simp only [List.tail_cons, ofDigitChars_decimal, isIntText_decimal, h, and_self, if_true]

theorem isNumberChar_of_isDigit {c : Char} (h : c.isDigit = true) : isNumberChar c = true := by
  rw [isNumberChar, h]
  rfl

/-- A number is written with number characters, at least one. -/
theorem Number.write_chars (n : Number) :
    n.write ≠ [] ∧ ∀ c ∈ n.write, isNumberChar c = true := by
  cases n with
  | posInt n h =>
    exact ⟨decimal_ne_nil n, fun c hc => isNumberChar_of_isDigit (decimal_digits hc)⟩
  | negInt n h =>
    refine ⟨List.cons_ne_nil _ _, fun c hc => ?_⟩
    rcases List.mem_cons.mp hc with rfl | hc
    · rfl
    · exact isNumberChar_of_isDigit (decimal_digits hc)
  | float text h =>
    have htext := h.1
    rw [isNumberText, Bool.and_eq_true, Bool.and_eq_true, decide_eq_true_iff,
      List.all_eq_true] at htext
    exact ⟨htext.1.1, htext.1.2⟩

/-- What follows a value does not go on with a number. -/
def NoNumberHead (r : Str) : Prop := ∀ c ∈ r.head?, isNumberChar c = false

theorem span_number {w r : Str} (hw : ∀ c ∈ w, isNumberChar c = true) (hr : NoNumberHead r) :
    (w ++ r).takeWhile isNumberChar = w ∧ (w ++ r).dropWhile isNumberChar = r := by
  induction w with
  | nil =>
    cases r with
    | nil => exact ⟨rfl, rfl⟩
    | cons c r =>
      have hc := hr c rfl
      simp [hc]
  | cons c w ih =>
    obtain ⟨htake, hdrop⟩ := ih fun d hd => hw d (List.mem_cons_of_mem _ hd)
    have hc := hw c List.mem_cons_self
    simp [hc, htake, hdrop]

/-- **Numbers are read back.** -/
theorem readNumber_write (n : Number) {r : Str} (hr : NoNumberHead r) :
    readNumber (n.write ++ r) = some (n.token, r) := by
  obtain ⟨htake, hdrop⟩ := span_number n.write_chars.2 hr
  rw [readNumber]
  simp only [htake, hdrop]
  cases n with
  | posInt n h => simp only [Number.write, intOf_decimal h, Number.token]
  | negInt n h => simp only [Number.write, intOf_minus_decimal h, Number.token]
  | float text h => simp only [Number.write, h.2, h.1, Number.token, if_true]

/-! ### Strings -/

theorem toDigit_digitChar {d : ℕ} (h : d < 16) : toDigit 16 (Nat.digitChar d) = some d := by
  have hall : ∀ d < 16, toDigit 16 (Nat.digitChar d) = some d := by decide
  exact hall d h

/-- A control character is read back from its code. -/
theorem readUnicode_control {n : ℕ} (h : n < 0x20) (r : Str) :
    readUnicode ('0' :: '0' :: Nat.digitChar (n / 16) :: Nat.digitChar (n % 16) :: r) =
      some (Char.ofNat n, r) := by
  have hzero : toDigit 16 '0' = some 0 := by decide
  have hvalue : ((0 * 16 + 0) * 16 + n / 16) * 16 + n % 16 = n := by omega
  have hhex : readHex4 ('0' :: '0' :: Nat.digitChar (n / 16) :: Nat.digitChar (n % 16) :: r) =
      some (n, r) := by
    simp only [readHex4, hzero, toDigit_digitChar (show n / 16 < 16 by omega),
      toDigit_digitChar (show n % 16 < 16 by omega), Option.bind_some, Option.map_some, hvalue]
  rw [readUnicode, hhex, Option.bind_some]
  dsimp only
  rw [if_neg (by omega), if_neg (by omega)]

/-- One step of the string reader undoes one character. -/
theorem readString_escapeChar (c : Char) (fuel : ℕ) (r : Str) :
    readString (fuel + 1) (escapeChar c ++ r) =
      (readString fuel r).map fun (s, escaped, r) => (c :: s, needsEscape c || escaped, r) := by
  have hescape : ∀ (e : Str) (d : Char), readEscape (e ++ r) = some (d, r) →
      needsEscape d = true →
      readString (fuel + 1) ('\\' :: (e ++ r)) =
        (readString fuel r).map fun (s, escaped, r) => (d :: s, needsEscape d || escaped, r) := by
    intro e d he hd
    rw [readString, if_neg (by decide), if_pos rfl, he, Option.bind_some]
    simp only [hd, Bool.true_or]
  have hchar : ∀ n, c.toNat = n → Char.ofNat n = c := fun n h => h ▸ Char.ofNat_toNat c
  have hcontrol : c.toNat < 0x20 → needsEscape c = true := fun h => by
    rw [needsEscape, decide_eq_true h, Bool.or_true]
  rw [escapeChar]
  split
  · next h => exact h ▸ hescape ['"'] '"' rfl rfl
  · split
    · next h => exact h ▸ hescape ['\\'] '\\' rfl rfl
    · split
      · next h => exact h ▸ hescape ['n'] '\n' rfl rfl
      · split
        · next h => exact h ▸ hescape ['r'] '\r' rfl rfl
        · split
          · next h => exact h ▸ hescape ['t'] '\t' rfl rfl
          · split
            · next h =>
              exact hchar 8 h ▸ hescape ['b'] (Char.ofNat 8) rfl rfl
            · split
              · next h =>
                exact hchar 12 h ▸ hescape ['f'] (Char.ofNat 12) rfl rfl
              · split
                · next h =>
                  refine hescape ['u', '0', '0', _, _] c ?_ (hcontrol h)
                  have := readUnicode_control h r
                  rw [hchar _ rfl] at this
                  exact this
                · next hquote hslash _ _ _ _ _ hlow =>
                  have hplain : needsEscape c = false := by
                    simp [needsEscape, hquote, hslash, hlow]
                  rw [List.singleton_append, readString, if_neg hquote, if_neg hslash,
                    if_neg hlow]
                  simp only [hplain, Bool.false_or]

theorem length_le_flatMap_escapeChar (s : Str) : s.length ≤ (s.flatMap escapeChar).length := by
  have hpos : ∀ c, 1 ≤ (escapeChar c).length := fun c => by
    rw [escapeChar]
    repeat' split
    all_goals simp only [List.length_cons, Nat.le_add_left]
  induction s with
  | nil => exact Nat.le_refl _
  | cons c s ih =>
    rw [List.flatMap_cons, List.length_append, List.length_cons]
    have := hpos c
    omega

/-- **Strings are read back**, and are marked when a character needs an escape sequence. -/
theorem readString_write (s r : Str) : ∀ {fuel : ℕ}, s.length < fuel →
    readString fuel (s.flatMap escapeChar ++ '"' :: r) = some (s, s.any needsEscape, r) := by
  induction s with
  | nil =>
    intro fuel hfuel
    obtain ⟨fuel, rfl⟩ := Nat.exists_eq_add_of_lt hfuel
    rw [List.length_nil, Nat.zero_add, List.flatMap_nil, List.nil_append, readString, if_pos rfl]
    rfl
  | cons c s ih =>
    intro fuel hfuel
    rw [List.length_cons] at hfuel
    obtain ⟨fuel, rfl⟩ : ∃ n, fuel = n + 1 := ⟨fuel - 1, by omega⟩
    rw [List.flatMap_cons, List.append_assoc, readString_escapeChar, ih (by omega),
      Option.map_some, List.any_cons]

/-! ### Values -/

theorem skipBlanks_cons {c : Char} (hc : isJsonBlank c = false) (r : Str) :
    skipBlanks (c :: r) = c :: r := by
  rw [skipBlanks, List.dropWhile_cons_of_neg (by rw [hc]; decide)]

theorem not_blank_of_isNumberChar {c : Char} (h : isNumberChar c = true) :
    isJsonBlank c = false ∧ c ∉ ['n', 't', 'f', '"', '[', '\x7b', ']'] := by
  have hblank : ∀ d ∈ [' ', '\n', '\r', '\t', 'n', 't', 'f', '"', '[', '\x7b', ']'],
      isNumberChar d = false := forall_mem_of_all (by decide)
  have hne : ∀ d ∈ [' ', '\n', '\r', '\t', 'n', 't', 'f', '"', '[', '\x7b', ']'], c ≠ d := by
    rintro d hd rfl
    rw [hblank c hd] at h
    cases h
  refine ⟨?_, fun hmem => hne c (List.mem_append_right [' ', '\n', '\r', '\t'] hmem) rfl⟩
  simp only [isJsonBlank, beq_eq_false_iff_ne.mpr (hne ' ' (by decide)),
    beq_eq_false_iff_ne.mpr (hne '\n' (by decide)), beq_eq_false_iff_ne.mpr (hne '\r' (by decide)),
    beq_eq_false_iff_ne.mpr (hne '\t' (by decide)), Bool.or_self]

/-- A value starts with neither white space nor a closing bracket. -/
theorem Json.write_head (j : Json) :
    ∃ c t, j.write = c :: t ∧ isJsonBlank c = false ∧ c ≠ ']' := by
  cases j with
  | null => exact ⟨'n', "ull".toList, rfl, rfl, by decide⟩
  | bool b =>
    cases b
    · exact ⟨'f', "alse".toList, rfl, rfl, by decide⟩
    · exact ⟨'t', "rue".toList, rfl, rfl, by decide⟩
  | number n =>
    obtain ⟨hne, hchars⟩ := n.write_chars
    obtain ⟨c, t, ht⟩ := List.exists_cons_of_ne_nil hne
    obtain ⟨hblank, hnot⟩ := not_blank_of_isNumberChar (hchars c (by rw [ht]; simp))
    exact ⟨c, t, ht, hblank, fun h => hnot (by simp [h])⟩
  | string s => exact ⟨'"', _, rfl, rfl, by decide⟩
  | array items => exact ⟨'[', _, rfl, rfl, by decide⟩
  | object fields => exact ⟨'\x7b', _, rfl, rfl, by decide⟩

theorem skipBlanks_write (j : Json) (r : Str) : skipBlanks (j.write ++ r) = j.write ++ r := by
  obtain ⟨c, t, ht, hc, -⟩ := j.write_head
  rw [ht, List.cons_append, skipBlanks_cons hc]

theorem readWord_append (word r : Str) (token : Token) :
    readWord word token (word ++ r) = some (token, r) := by
  rw [readWord, stripPrefix_eq_some_iff.mpr rfl, Option.map_some]

section Read

variable {fuel : ℕ} {r : Str}

/-- The first character says what is read. -/
theorem readValue_cons {c : Char} (hc : isJsonBlank c = false) : readValue (fuel + 1) (c :: r) =
    if c = 'n' then readWord "null".toList .null (c :: r)
    else if c = 't' then readWord "true".toList (.bool true) (c :: r)
    else if c = 'f' then readWord "false".toList (.bool false) (c :: r)
    else if c = '"' then
      (readString r.length r).map fun (s, escaped, r) => (.string s escaped, r)
    else if c = '[' then
      if (skipBlanks r).head? = some ']' then some (.array [], (skipBlanks r).tail)
      else (readItems fuel r).map fun (items, r) => (.array items, r)
    else if c = '\x7b' then
      if (skipBlanks r).head? = some '\x7d' then some (.object [], (skipBlanks r).tail)
      else (readFields fuel r).map fun (fields, r) => (.object fields, r)
    else readNumber (c :: r) := by
  rw [readValue, skipBlanks_cons hc]

/-- The words, the strings and the numbers are read back. -/
theorem readValue_scalar {j : Json} (hr : NoNumberHead r)
    (hj : (∀ items, j ≠ .array items) ∧ ∀ fields, j ≠ .object fields) :
    readValue (fuel + 1) (j.write ++ r) = some (j.tokens, r) := by
  rw [readValue, skipBlanks_write]
  cases j with
  | null =>
    exact readWord_append "null".toList r .null
  | bool b =>
    cases b
    · exact readWord_append "false".toList r (.bool false)
    · exact readWord_append "true".toList r (.bool true)
  | number n =>
    obtain ⟨hne, hchars⟩ := n.write_chars
    obtain ⟨c, t, ht⟩ := List.exists_cons_of_ne_nil hne
    obtain ⟨-, hnot⟩ := not_blank_of_isNumberChar (hchars c (by rw [ht]; simp))
    simp only [List.mem_cons, List.not_mem_nil, or_false, not_or] at hnot
    have hread := readNumber_write n hr
    rw [Json.write_number]
    rw [ht, List.cons_append] at hread ⊢
    simp only [hnot, if_false]
    exact hread
  | string s =>
    rw [Json.write_string, writeString, List.cons_append, List.cons_append]
    have hread : readString (s.flatMap escapeChar ++ ['"'] ++ r).length
        (s.flatMap escapeChar ++ ['"'] ++ r) = some (s, s.any needsEscape, r) := by
      rw [List.append_assoc]
      refine readString_write s r ?_
      have := length_le_flatMap_escapeChar s
      simp only [List.length_append, List.length_cons]
      omega
    simp only [show ¬ ('"' = 'n') by decide, show ¬ ('"' = 't') by decide,
      show ¬ ('"' = 'f') by decide, if_false, if_true, hread]
    rfl
  | array items => exact absurd rfl (hj.1 items)
  | object fields => exact absurd rfl (hj.2 fields)

theorem readItems_cons {item : Json} {items : List Json} (hne : items ≠ [])
    (hitem : readValue fuel (item.write ++ ',' :: (Json.writeItems items ++ r)) =
      some (item.tokens, ',' :: (Json.writeItems items ++ r)))
    (hitems : readItems fuel (Json.writeItems items ++ r) = some (Json.itemTokens items, r)) :
    readItems (fuel + 1) (Json.writeItems (item :: items) ++ r) =
      some (Json.itemTokens (item :: items), r) := by
  rw [Json.writeItems, List.append_assoc, List.cons_append, readItems, hitem]
  · simp only [skipBlanks_cons (show isJsonBlank ',' = false from rfl), hitems, Option.map_some,
      Json.itemTokens]
  · exact hne

end Read

/-- The items do not start with a closing bracket. -/
theorem head?_skipBlanks_writeItems {items : List Json} (hne : items ≠ []) (r : Str) :
    (skipBlanks (Json.writeItems items ++ r)).head? ≠ some ']' := by
  obtain ⟨item, items, rfl⟩ := List.exists_cons_of_ne_nil hne
  obtain ⟨c, t, ht, hc, hbracket⟩ := item.write_head
  have hhead : ∃ u, Json.writeItems (item :: items) = item.write ++ u := by
    cases items with
    | nil => exact ⟨_, rfl⟩
    | cons => exact ⟨_, rfl⟩
  obtain ⟨u, hu⟩ := hhead
  rw [hu, ht, List.append_assoc, List.cons_append, skipBlanks_cons hc, List.head?_cons, ne_eq,
    Option.some.injEq]
  exact hbracket

/-- Behind an opening bracket come the items. -/
theorem readValue_array {items : List Json} {fuel : ℕ} {r : Str}
    (hitems : items ≠ [] →
      readItems fuel (Json.writeItems items ++ r) = some (Json.itemTokens items, r)) :
    readValue (fuel + 1) ((Json.array items).write ++ r) = some ((Json.array items).tokens, r) := by
  rw [Json.write_array, List.cons_append, readValue_cons rfl]
  by_cases hne : items = []
  · subst hne
    rfl
  · have hread := hitems hne
    have hbracket := head?_skipBlanks_writeItems hne r
    simp only [show ¬ ('[' = 'n') by decide, show ¬ ('[' = 't') by decide,
      show ¬ ('[' = 'f') by decide, show ¬ ('[' = '"') by decide, if_false, if_true, hbracket,
      hread]
    rfl

/-- The fields start with the name of the first. -/
theorem writeFields_cons (name : Str) (item : Json) (fields : List (Str × Json)) :
    ∃ t, Json.writeFields ((name, item) :: fields) =
        '"' :: (name.flatMap escapeChar ++ '"' :: ':' :: (item.write ++ t)) ∧
      ((fields = [] ∧ t = ['\x7d']) ∨ (fields ≠ [] ∧ t = ',' :: Json.writeFields fields)) := by
  cases fields with
  | nil => exact ⟨['\x7d'], by simp [Json.writeFields, writeString], Or.inl ⟨rfl, rfl⟩⟩
  | cons field fields =>
    exact ⟨',' :: Json.writeFields (field :: fields), by simp [Json.writeFields, writeString],
      Or.inr ⟨List.cons_ne_nil _ _, rfl⟩⟩

/-- Behind an opening brace come the fields. -/
theorem readValue_object {fields : List (Str × Json)} {fuel : ℕ} {r : Str}
    (hfields : fields ≠ [] →
      readFields fuel (Json.writeFields fields ++ r) = some (Json.fieldTokens fields, r)) :
    readValue (fuel + 1) ((Json.object fields).write ++ r) =
      some ((Json.object fields).tokens, r) := by
  rw [Json.write_object, List.cons_append, readValue_cons rfl]
  cases fields with
  | nil => rfl
  | cons field fields =>
    have hread := hfields (List.cons_ne_nil _ _)
    obtain ⟨t, ht, -⟩ := writeFields_cons field.1 field.2 fields
    have hbrace : (skipBlanks (Json.writeFields (field :: fields) ++ r)).head? ≠ some '\x7d' := by
      rw [show field :: fields = (field.1, field.2) :: fields from rfl, ht, List.cons_append,
        skipBlanks_cons rfl, List.head?_cons]
      decide
    simp only [show ¬ ('\x7b' = 'n') by decide, show ¬ ('\x7b' = 't') by decide,
      show ¬ ('\x7b' = 'f') by decide, show ¬ ('\x7b' = '"') by decide,
      show ¬ ('\x7b' = '[') by decide, if_false, if_true, hbrace, hread]
    rfl

/-- A name is read back. -/
theorem readString_name (name r : Str) :
    readString (name.flatMap escapeChar ++ '"' :: r).length
      (name.flatMap escapeChar ++ '"' :: r) = some (name, name.any needsEscape, r) := by
  refine readString_write name r ?_
  have := length_le_flatMap_escapeChar name
  simp only [List.length_append, List.length_cons]
  omega

theorem noNumberHead_cons {c : Char} (hc : isNumberChar c = false) (r : Str) :
    NoNumberHead (c :: r) := by
  rintro d ⟨⟩
  exact hc

mutual

/-- **Values are read back**, when the steps are enough for the text. -/
theorem readValue_write : ∀ (j : Json) {fuel : ℕ} {r : Str}, 2 * j.write.length ≤ fuel →
    NoNumberHead r → readValue fuel (j.write ++ r) = some (j.tokens, r)
  | .array items, fuel, r, hfuel, _ => by
    rw [Json.write_array, List.length_cons] at hfuel
    obtain ⟨fuel, rfl⟩ : ∃ n, fuel = n + 1 := ⟨fuel - 1, by omega⟩
    exact readValue_array fun hne => readItems_write items hne (by omega)
  | .object fields, fuel, r, hfuel, _ => by
    rw [Json.write_object, List.length_cons] at hfuel
    obtain ⟨fuel, rfl⟩ : ∃ n, fuel = n + 1 := ⟨fuel - 1, by omega⟩
    exact readValue_object fun hne => readFields_write fields hne (by omega)
  | .null, fuel + 1, r, _, hr => readValue_scalar hr ⟨by simp, by simp⟩
  | .bool b, fuel + 1, r, _, hr => readValue_scalar hr ⟨by simp, by simp⟩
  | .number n, fuel + 1, r, _, hr => readValue_scalar hr ⟨by simp, by simp⟩
  | .string s, fuel + 1, r, _, hr => readValue_scalar hr ⟨by simp, by simp⟩
  | .null, 0, _, hfuel, _ => by cases hfuel
  | .bool false, 0, _, hfuel, _ => by cases hfuel
  | .bool true, 0, _, hfuel, _ => by cases hfuel
  | .number n, 0, _, hfuel, _ => by
    have := List.length_pos_iff.mpr n.write_chars.1
    rw [Json.write_number] at hfuel
    omega
  | .string s, 0, _, hfuel, _ => by cases hfuel

theorem readItems_write : ∀ (items : List Json) {fuel : ℕ} {r : Str}, items ≠ [] →
    2 * (Json.writeItems items).length ≤ fuel →
    readItems fuel (Json.writeItems items ++ r) = some (Json.itemTokens items, r)
  | [], _, _, hne, _ => absurd rfl hne
  | [item], fuel, r, _, hfuel => by
    rw [Json.writeItems, List.length_append, List.length_singleton] at hfuel
    obtain ⟨fuel, rfl⟩ : ∃ n, fuel = n + 1 := ⟨fuel - 1, by omega⟩
    rw [Json.writeItems, List.append_assoc, List.singleton_append, readItems,
      readValue_write item (by omega) (noNumberHead_cons rfl r)]
    simp only [skipBlanks_cons (show isJsonBlank ']' = false from rfl), Json.itemTokens]
  | item :: item' :: items, fuel, r, _, hfuel => by
    have hne : item' :: items ≠ [] := List.cons_ne_nil _ _
    have hwrite : Json.writeItems (item :: item' :: items) =
        item.write ++ ',' :: Json.writeItems (item' :: items) := rfl
    rw [hwrite, List.length_append, List.length_cons] at hfuel
    obtain ⟨fuel, rfl⟩ : ∃ n, fuel = n + 1 := ⟨fuel - 1, by omega⟩
    exact readItems_cons hne (readValue_write item (by omega) (noNumberHead_cons rfl _))
      (readItems_write (item' :: items) hne (by omega))

theorem readFields_write : ∀ (fields : List (Str × Json)) {fuel : ℕ} {r : Str}, fields ≠ [] →
    2 * (Json.writeFields fields).length ≤ fuel →
    readFields fuel (Json.writeFields fields ++ r) = some (Json.fieldTokens fields, r)
  | [], _, _, hne, _ => absurd rfl hne
  | (name, item) :: fields, fuel, r, _, hfuel => by
    obtain ⟨t, ht, hrest⟩ := writeFields_cons name item fields
    rw [ht, List.length_cons, List.length_append, List.length_cons, List.length_cons,
      List.length_append] at hfuel
    obtain ⟨fuel, rfl⟩ : ∃ n, fuel = n + 1 := ⟨fuel - 1, by omega⟩
    rw [ht, List.cons_append, List.append_assoc, List.cons_append, List.cons_append,
      List.append_assoc, readFields, skipBlanks_cons rfl]
    simp only [readString_name, skipBlanks_cons (show isJsonBlank ':' = false from rfl)]
    rcases hrest with ⟨rfl, rfl⟩ | ⟨hne, rfl⟩
    · rw [List.singleton_append, readValue_write item (by omega) (noNumberHead_cons rfl r)]
      simp only [skipBlanks_cons (show isJsonBlank '\x7d' = false from rfl), Json.fieldTokens]
    · rw [List.length_cons] at hfuel
      rw [List.cons_append, readValue_write item (by omega) (noNumberHead_cons rfl _)]
      simp only [skipBlanks_cons (show isJsonBlank ',' = false from rfl),
        readFields_write fields hne (show 2 * (Json.writeFields fields).length ≤ fuel by omega),
        Option.map_some, Json.fieldTokens]

end

/-- **The writer and the reader are a lawful pair.** -/
theorem lawful_compactJson : compactJson.Lawful := fun j => by
  change readJson j.write = some j.tokens
  have hread := readValue_write j (Nat.le_refl _) (r := []) fun c hc => by cases hc
  rw [List.append_nil] at hread
  rw [readJson, hread]
  rfl

/-! ### Depth -/

mutual

/-- Reading back does not change how deep a value is nested. -/
theorem depth_tokens : ∀ j : Json, j.tokens.depth = j.depth
  | .null => rfl
  | .bool _ => rfl
  | .number (.posInt _ _) => rfl
  | .number (.negInt _ _) => rfl
  | .number (.float _ _) => rfl
  | .string _ => rfl
  | .array items => congrArg (· + 1) (itemsDepth_itemTokens items)
  | .object fields => congrArg (· + 1) (fieldsDepth_fieldTokens fields)

theorem itemsDepth_itemTokens : ∀ items : List Json,
    Token.itemsDepth (Json.itemTokens items) = Json.itemsDepth items
  | [] => rfl
  | item :: items => congrArg₂ max (depth_tokens item) (itemsDepth_itemTokens items)

theorem fieldsDepth_fieldTokens : ∀ fields : List (Str × Json),
    Token.fieldsDepth (Json.fieldTokens fields) = Json.fieldsDepth fields
  | [] => rfl
  | (_, item) :: fields => congrArg₂ max (depth_tokens item) (fieldsDepth_fieldTokens fields)

end

end Fywaf
