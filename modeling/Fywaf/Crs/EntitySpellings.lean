import Fywaf.Crs.Spellings

/-!
# HTML entities in a mixture

A character may be written as itself, by name, or as a decimal or hexadecimal reference with any
number of leading zeros, and each character of a text in its own way. `htmlEntityDecode` reads
every such text as the characters it spells: digits end at the semicolon behind them, so that no
reference takes anything of the text that follows.

## Main definitions

* `Crs.entityNames`, `Crs.EntitySpells` — the ways to write a character

## Main results

* `Crs.htmlEntityDecode_of_spells` — a text in any mixture of spellings is decoded
-/

namespace Fywaf

namespace Crs

/-- The characters with a name. -/
def entityNames : List (Char × Str) := [
  ('<', "lt".toList), ('>', "gt".toList), ('&', "amp".toList), ('"', "quot".toList),
  ('\'', "apos".toList)]

/-- The ways to write a character: as it is, unless it is an ampersand; by its name, if it has one;
and by its number, in decimal or hexadecimal. -/
inductive EntitySpells (c : Char) : Str → Prop
  | literal (hplain : c ≠ '&') : EntitySpells c [c]
  | named (name : Str) (hname : (c, name) ∈ entityNames) : EntitySpells c ('&' :: (name ++ [';']))
  | decimal (digits : Str) (hvalue : parseNat 10 digits = some c.toNat) :
    EntitySpells c ('&' :: '#' :: (digits ++ [';']))
  | hexadecimal (x : Char) (hx : x = 'x' ∨ x = 'X') (digits : Str)
    (hvalue : parseNat 16 digits = some c.toNat) :
    EntitySpells c ('&' :: '#' :: x :: (digits ++ [';']))

/-- An entity that is found is what the step reads. -/
theorem entityStep {l rest : Str} {c : Char} (h : entityAt ('&' :: l) = some (c, rest)) :
    entityScanner.step '&' l = ([c], rest) := by
  simp only [entityScanner, if_true, h]

theorem entityAt_named {c : Char} {name : Str} (h : (c, name) ∈ entityNames) (rest : Str) :
    entityAt ('&' :: (name ++ ';' :: rest)) = some (c, rest) := by
  simp only [entityNames, List.mem_cons, List.not_mem_nil, or_false, Prod.mk.injEq] at h
  rcases h with ⟨rfl, rfl⟩ | ⟨rfl, rfl⟩ | ⟨rfl, rfl⟩ | ⟨rfl, rfl⟩ | ⟨rfl, rfl⟩
  all_goals rfl

/-- The digits of a reference end at the semicolon behind them. -/
theorem numericEntity_of_digits {radix : ℕ} {c : Char} {digits : Str}
    (hsemi : toDigit radix ';' = none) (hvalue : parseNat radix digits = some c.toNat)
    (front rest : Str) :
    numericEntity radix front.length (front ++ (digits ++ ';' :: rest)) = some (c, rest) := by
  have hlt : c.toNat < 2 ^ 32 := (toNat_lt c).trans (by decide)
  rw [numericEntity, List.drop_left, splitOnce_append (not_mem_of_parseNat hsemi hvalue),
    Option.bind_some]
  simp only [fromStrRadix_of_parseNat hvalue hlt, Option.bind_some, charFromU32_toNat,
    Option.map_some]

/-- Behind a number sign there is no name. -/
theorem entityAt_number (l : Str) : entityAt ('&' :: '#' :: l) =
    if "&#x".toList.isPrefixOf ('&' :: '#' :: l) ∨ "&#X".toList.isPrefixOf ('&' :: '#' :: l) then
      numericEntity 16 3 ('&' :: '#' :: l)
    else numericEntity 10 2 ('&' :: '#' :: l) := rfl

theorem entityAt_hexadecimal {c x : Char} {digits : Str} (hx : x = 'x' ∨ x = 'X')
    (h : parseNat 16 digits = some c.toNat) (rest : Str) :
    entityAt ('&' :: '#' :: x :: (digits ++ ';' :: rest)) = some (c, rest) := by
  rw [entityAt_number, if_pos]
  · exact numericEntity_of_digits (by decide) h ['&', '#', x] rest
  · rcases hx with rfl | rfl
    · exact Or.inl rfl
    · exact Or.inr rfl

theorem entityAt_decimal {c : Char} {digits : Str} (h : parseNat 10 digits = some c.toNat)
    (rest : Str) : entityAt ('&' :: '#' :: (digits ++ ';' :: rest)) = some (c, rest) := by
  obtain ⟨d, digits, rfl⟩ := List.exists_cons_of_ne_nil (parseNat_eq_some_iff.mp h).1
  have hd : ∀ x : Char, toDigit 10 x = none → x ≠ d := by
    rintro x hx rfl
    exact not_mem_of_parseNat hx h List.mem_cons_self
  rw [entityAt_number, if_neg]
  · exact numericEntity_of_digits (by decide) h ['&', '#'] rest
  · simp [List.isPrefixOf, hd 'x' (by decide), hd 'X' (by decide)]

/-- **Each spelling is read whole**, whatever follows it. -/
theorem reads_of_entitySpells {c : Char} {piece : Str} (h : EntitySpells c piece) :
    entityScanner.Reads piece [c] := by
  cases h with
  | literal hplain =>
    refine Scanner.reads_of_step _ fun rest => ?_
    simp only [entityScanner, if_neg hplain, List.nil_append]
  | named name hname =>
    refine Scanner.reads_of_step _ fun rest => entityStep ?_
    rw [List.append_assoc]
    exact entityAt_named hname rest
  | decimal digits hvalue =>
    refine Scanner.reads_of_step _ fun rest => entityStep ?_
    rw [List.cons_append, List.append_assoc]
    exact entityAt_decimal hvalue rest
  | hexadecimal x hx digits hvalue =>
    refine Scanner.reads_of_step _ fun rest => entityStep ?_
    rw [List.cons_append, List.cons_append, List.append_assoc]
    exact entityAt_hexadecimal hx hvalue rest

/-- **A text in any mixture of spellings is decoded** to the characters it spells. -/
theorem htmlEntityDecode_of_spells {s : Str} {pieces : List Str}
    (h : List.Forall₂ EntitySpells s pieces) : htmlEntityDecode pieces.flatten = s := by
  have hreads : ∀ c piece, EntitySpells c piece → entityScanner.Reads (id piece) [c] :=
    fun _ _ => reads_of_entitySpells
  have hrun : entityScanner.run (pieces.flatMap id) = s.flatMap fun c => [c] :=
    entityScanner.run_flatMap hreads h
  rwa [List.flatMap_id, List.flatMap_singleton'] at hrun

/-- `<é&`, then a semicolon and an apostrophe. -/
theorem htmlEntityDecode_mixed :
    htmlEntityDecode "&lt;é&#38;;&#X0027;".toList = "<é&;'".toList := by
  have hspells : List.Forall₂ EntitySpells "<é&;'".toList
      ["&lt;".toList, "é".toList, "&#38;".toList, ";".toList, "&#X0027;".toList] :=
    .cons (.named "lt".toList (by decide)) (.cons (.literal (by decide))
      (.cons (.decimal "38".toList (by decide)) (.cons (.literal (by decide))
        (.cons (.hexadecimal 'X' (.inr rfl) "0027".toList (by decide)) .nil))))
  exact htmlEntityDecode_of_spells hspells

end Crs

end Fywaf
