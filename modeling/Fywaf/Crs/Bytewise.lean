import Fywaf.Crs.Transforms

/-!
# Bytes read as characters

The source often takes a text apart byte by byte and pushes each byte as a character. A text that
goes through such a loop comes out with every byte as a Latin-1 character: ASCII as it was,
anything else longer than before.

## Main definitions

* `Crs.bytewise` — every byte of a text as a character of its own
* `Crs.IsAscii`

## Main results

* `Crs.bytewise_eq_self_iff` — exactly ASCII comes out as it was
* `Crs.trim_bytewise_eq_self_iff` — and trimming does not make up for it
-/

namespace Fywaf

namespace Crs

/-- Every byte of the text as a character of its own. -/
def bytewise (s : Str) : Str := (asBytes s).map byteChar

/-- Every character is ASCII. -/
def IsAscii (s : Str) : Prop := ∀ c ∈ s, c.toNat < 0x80

instance (s : Str) : Decidable (IsAscii s) :=
  decidable_of_iff (s.all (fun c => decide (c.toNat < 0x80)) = true) (by simp [IsAscii])

variable {s t : Str} {c : Char}

@[simp] theorem bytewise_nil : bytewise [] = [] := rfl

theorem bytewise_append (s t : Str) : bytewise (s ++ t) = bytewise s ++ bytewise t := by
  rw [bytewise, asBytes_append, List.map_append]
  rfl

theorem toNat_byteChar (b : UInt8) : (byteChar b).toNat = b.toNat := by
  have hvalid : b.toNat.isValidChar := Or.inl (b.toNat_lt.trans (by decide))
  have haux : byteChar b = Char.ofNatAux b.toNat hvalid := dif_pos hvalid
  rw [haux]
  rfl

theorem byteChar_byte (h : c.toNat < 0x80) : byteChar (byte c) = c := by
  refine char_ext_toNat ?_
  rw [toNat_byteChar, byte, toNat_ofNat_of_lt (by omega)]

theorem byteChar_eq_iff {b : UInt8} (hc : c.toNat < 0x80) :
    byteChar b = c ↔ b = byte c := by
  constructor
  · rintro rfl
    rw [byte, toNat_byteChar, UInt8.ofNat_toNat]
  · rintro rfl
    exact byteChar_byte hc

/-- An ASCII character is one byte. -/
theorem asBytes_cons_ascii (h : c.toNat < 0x80) (s : Str) :
    asBytes (c :: s) = byte c :: asBytes s := by
  rw [asBytes_cons, encode_ascii h]
  rfl

theorem bytewise_cons (c : Char) (s : Str) :
    bytewise (c :: s) = (String.utf8EncodeChar c).map byteChar ++ bytewise s := by
  rw [bytewise, asBytes_cons, List.map_append]
  rfl

theorem bytewise_cons_ascii (h : c.toNat < 0x80) (s : Str) :
    bytewise (c :: s) = c :: bytewise s := by
  rw [bytewise, asBytes_cons_ascii h, List.map_cons, byteChar_byte h]
  rfl

/-- Equal as bytes, ASCII characters are equal. -/
theorem byte_eq_byte_iff {d : Char} (hc : c.toNat < 0x80) (hd : d.toNat < 0x80) :
    byte c = byte d ↔ c = d := by
  constructor
  · intro h
    rw [← byteChar_byte hc, h, byteChar_byte hd]
  · intro h
    rw [h]

/-- Behind the first byte of a character there is no ASCII, and in front none unless it is. -/
theorem encode_high (c : Char) : ∃ b bs, String.utf8EncodeChar c = b :: bs ∧
    (∀ x ∈ bs, 0x80 ≤ x.toNat) ∧ (0x80 ≤ c.toNat → 0xC2 ≤ b.toNat) := by
  rcases encode_cases c with ⟨h, b₁, he, e₁⟩ | ⟨h, _, b₁, b₂, he, e₁, e₂⟩ |
    ⟨h, _, b₁, b₂, b₃, he, e₁, e₂, e₃⟩ | ⟨h, _, b₁, b₂, b₃, b₄, he, e₁, e₂, e₃, e₄⟩
  all_goals
    refine ⟨b₁, _, he, fun x hx => ?_, fun hc => by omega⟩
    simp only [List.mem_cons, List.not_mem_nil, or_false] at hx
  · rw [hx]; omega
  · rcases hx with rfl | rfl <;> omega
  · rcases hx with rfl | rfl | rfl <;> omega

/-- The first byte of a longer character. -/
theorem exists_bytewise_cons (h : 0x80 ≤ c.toNat) (s : Str) :
    ∃ b t, bytewise (c :: s) = byteChar b :: t ∧ 0xC2 ≤ b.toNat := by
  obtain ⟨b, bs, he, -, hlead⟩ := encode_high c
  rw [bytewise, asBytes_cons, he, List.cons_append, List.map_cons]
  exact ⟨b, _, rfl, hlead h⟩

/-- What starts with ASCII bytewise starts so as it is. -/
theorem prefix_of_prefix_bytewise (hs : IsAscii s) : ∀ {t}, s <+: bytewise t → s <+: t := by
  induction s with
  | nil => exact fun _ => List.nil_prefix
  | cons c s ih =>
    intro t h
    have hc := hs c List.mem_cons_self
    cases t with
    | nil => exact absurd (List.prefix_nil.mp h) (List.cons_ne_nil c s)
    | cons d t =>
      by_cases hd : d.toNat < 0x80
      · rw [bytewise_cons_ascii hd] at h
        obtain ⟨rfl, hrest⟩ := List.cons_prefix_cons.mp h
        exact List.cons_prefix_cons.mpr
          ⟨rfl, ih (fun e he => hs e (List.mem_cons_of_mem _ he)) hrest⟩
      · obtain ⟨b, u, hu, hb⟩ := exists_bytewise_cons (Nat.not_lt.mp hd) t
        rw [hu] at h
        have hcb := (List.cons_prefix_cons.mp h).1
        rw [hcb, toNat_byteChar] at hc
        omega

/-- An ASCII character among the bytes is one of the text. -/
theorem mem_of_mem_bytewise (hc : c.toNat < 0x80) (h : c ∈ bytewise s) : c ∈ s := by
  obtain ⟨b, hb, rfl⟩ := List.mem_map.mp h
  obtain ⟨d, hd, hmem⟩ := List.mem_flatMap.mp hb
  rw [toNat_byteChar] at hc
  have hbyte : b = byte (byteChar b) := by
    rw [byte, toNat_byteChar, UInt8.ofNat_toNat]
  rw [hbyte] at hmem
  rwa [(ascii_mem_encode_iff (by rw [toNat_byteChar]; exact hc)).mp hmem]

theorem bytewise_of_isAscii (h : IsAscii s) : bytewise s = s := by
  induction s with
  | nil => rfl
  | cons c s ih =>
    rw [bytewise_cons_ascii (h c List.mem_cons_self),
      ih fun d hd => h d (List.mem_cons_of_mem _ hd)]

/-! ### Lengths -/

theorem length_bytewise_cons (c : Char) (s : Str) :
    (bytewise (c :: s)).length = c.utf8Size + (bytewise s).length := by
  rw [bytewise, List.length_map, asBytes_cons, List.length_append, String.length_utf8EncodeChar,
    bytewise, List.length_map]

theorem length_le_length_bytewise (s : Str) : s.length ≤ (bytewise s).length := by
  induction s with
  | nil => exact Nat.le_refl _
  | cons c s ih =>
    have := c.utf8Size_pos
    rw [length_bytewise_cons, List.length_cons]
    omega

theorem bytewise_eq_nil_iff : bytewise s = [] ↔ s = [] := by
  constructor
  · intro h
    have hlen := length_le_length_bytewise s
    rw [h, List.length_nil, Nat.le_zero] at hlen
    exact List.eq_nil_of_length_eq_zero hlen
  · intro h
    rw [h, bytewise_nil]

theorem utf8Size_eq_one_iff : c.utf8Size = 1 ↔ c.toNat < 0x80 := by
  rw [Char.utf8Size_eq_one_iff, UInt32.le_iff_toNat_le, ← Nat.lt_succ_iff]
  rfl

/-- Only ASCII keeps its length. -/
theorem isAscii_of_length_le (h : (bytewise s).length ≤ s.length) : IsAscii s := by
  induction s with
  | nil => exact fun c hc => by cases hc
  | cons c s ih =>
    have hrest := length_le_length_bytewise s
    have hpos := c.utf8Size_pos
    rw [length_bytewise_cons, List.length_cons] at h
    intro d hd
    rcases List.mem_cons.mp hd with rfl | hd
    · exact utf8Size_eq_one_iff.mp (by omega)
    · exact ih (by omega) d hd

/-- **Exactly ASCII comes out as it was.** -/
theorem bytewise_eq_self_iff : bytewise s = s ↔ IsAscii s :=
  ⟨fun h => isAscii_of_length_le (by rw [h]), bytewise_of_isAscii⟩

/-! ### Trimming -/

/-- The first byte of a longer character is no white space. -/
theorem isWhitespace_byteChar {b : UInt8} (hb : 0xC2 ≤ b.toNat) :
    isWhitespace (byteChar b) = false := by
  have := b.toNat_lt
  rw [← Bool.not_eq_true]
  simp only [isWhitespace, toNat_byteChar, Bool.or_eq_true, Bool.and_eq_true, decide_eq_true_eq,
    beq_iff_eq]
  omega

/-- The first byte of a character is no white space, unless the character is. -/
theorem encode_lead (hc : isWhitespace c = false) : ∃ b bs, String.utf8EncodeChar c = b :: bs ∧
    isWhitespace (byteChar b) = false ∧ (0x80 ≤ c.toNat → 0xC2 ≤ b.toNat) := by
  by_cases h : c.toNat < 0x80
  · refine ⟨byte c, [], encode_ascii h, ?_, fun h' => by omega⟩
    rw [byteChar_byte h]
    exact hc
  · obtain ⟨b, bs, he, -, hlead⟩ := encode_high c
    exact ⟨b, bs, he, isWhitespace_byteChar (hlead (Nat.not_lt.mp h)), hlead⟩

/-- What starts with ASCII behind the blanks bytewise starts so as it is. -/
theorem prefix_dropWhile_of_bytewise (hs : IsAscii s) (hne : s ≠ []) : ∀ {t},
    s <+: (bytewise t).dropWhile isWhitespace → s <+: t.dropWhile isWhitespace := by
  intro t
  induction t with
  | nil => exact id
  | cons c t ih =>
    intro h
    by_cases hc : c.toNat < 0x80
    · rw [bytewise_cons_ascii hc] at h
      by_cases hblank : isWhitespace c = true
      · rw [List.dropWhile_cons_of_pos hblank] at h ⊢
        exact ih h
      · rw [List.dropWhile_cons_of_neg hblank] at h ⊢
        exact prefix_of_prefix_bytewise hs (by rwa [bytewise_cons_ascii hc])
    · obtain ⟨b, u, hu, hb⟩ := exists_bytewise_cons (Nat.not_lt.mp hc) t
      rw [hu, List.dropWhile_cons_of_neg (by simp [isWhitespace_byteChar hb])] at h
      obtain ⟨d, s, rfl⟩ := List.exists_cons_of_ne_nil hne
      have hd := hs d List.mem_cons_self
      rw [(List.cons_prefix_cons.mp h).1, toNat_byteChar] at hd
      omega

/-- Trimming at the end keeps everything up to a character that is not trimmed. -/
theorem prefix_rdropWhile {p : Char → Bool} (hc : p c = false) (s t : Str) :
    s ++ [c] <+: (s ++ c :: t).rdropWhile p := by
  rw [List.rdropWhile, List.reverse_append, List.reverse_cons, List.append_assoc,
    List.singleton_append]
  have hkeep : ∃ u, (t.reverse ++ c :: s.reverse).dropWhile p = u ++ c :: s.reverse := by
    induction t.reverse with
    | nil => exact ⟨[], List.dropWhile_cons_of_neg (by simp [hc])⟩
    | cons d l ih =>
      by_cases hd : p d = true
      · obtain ⟨u, hu⟩ := ih
        exact ⟨u, by rw [List.cons_append, List.dropWhile_cons_of_pos hd, hu]⟩
      · exact ⟨d :: l, List.dropWhile_cons_of_neg hd⟩
  obtain ⟨u, hu⟩ := hkeep
  rw [hu, List.reverse_append, List.reverse_cons, List.reverse_reverse]
  exact List.prefix_append _ _

/-- At the front nothing is trimmed, and at the end nothing of the first byte of the last
character. -/
theorem prefix_trim_bytewise (hs : ∀ d ∈ s ++ [c], isWhitespace d = false) {pre post : Bytes}
    {b : UInt8} (hb : isWhitespace (byteChar b) = false)
    (h : asBytes (s ++ [c]) = pre ++ b :: post) :
    pre.map byteChar ++ [byteChar b] <+: trim (bytewise (s ++ [c])) := by
  have hhead : ∀ d ∈ (bytewise (s ++ [c])).head?, isWhitespace d = false := by
    obtain ⟨first, rest, hfirst⟩ : ∃ first rest, s ++ [c] = first :: rest :=
      List.exists_cons_of_ne_nil (List.append_ne_nil_of_right_ne_nil _ (List.cons_ne_nil _ _))
    obtain ⟨lead, tail, he, hlead, -⟩ := encode_lead (hs first (by rw [hfirst]; simp))
    rw [hfirst, bytewise, asBytes_cons, he]
    intro d hd
    obtain rfl : byteChar lead = d := Option.some.inj hd
    exact hlead
  have hfront : (bytewise (s ++ [c])).dropWhile isWhitespace = bytewise (s ++ [c]) := by
    cases hl : bytewise (s ++ [c]) with
    | nil => rfl
    | cons d l =>
      rw [hl] at hhead
      rw [List.dropWhile_cons_of_neg (by simp [hhead d rfl])]
  rw [trim, trimMatches, hfront, bytewise, h, List.map_append, List.map_cons]
  exact prefix_rdropWhile hb _ _

/-- Behind an ASCII character there is nothing to trim. -/
theorem isAscii_of_trim_ascii (hs : ∀ d ∈ s ++ [c], isWhitespace d = false) (hc : c.toNat < 0x80)
    (h : trim (bytewise (s ++ [c])) = s ++ [c]) : IsAscii (s ++ [c]) := by
  have hb : isWhitespace (byteChar (byte c)) = false := by
    rw [byteChar_byte hc]
    exact hs c (by simp)
  have henc : asBytes (s ++ [c]) = asBytes s ++ byte c :: [] := by
    rw [asBytes_append, asBytes_cons_ascii hc, asBytes_nil]
  have hlen := (prefix_trim_bytewise hs hb henc).length_le
  rw [h] at hlen
  refine isAscii_of_length_le ?_
  rw [bytewise_append, bytewise_cons_ascii hc, bytewise_nil]
  simpa [bytewise] using hlen

/-- The first byte of a longer last character would have to be that character, and then its second
byte is no white space either. -/
theorem trim_bytewise_ne (hs : ∀ d ∈ s ++ [c], isWhitespace d = false) (hc : 0x80 ≤ c.toNat) :
    trim (bytewise (s ++ [c])) ≠ s ++ [c] := by
  intro h
  obtain ⟨b, bs, he, hb, hlead⟩ := encode_lead (hs c (by simp))
  have henc : asBytes (s ++ [c]) = asBytes s ++ b :: bs := by
    rw [asBytes_append, asBytes_cons, he, asBytes_nil, List.append_nil]
  have hpre := prefix_trim_bytewise hs hb henc
  rw [h] at hpre
  have hinit : (asBytes s).map byteChar = s := by
    refine bytewise_of_isAscii (isAscii_of_length_le ?_)
    simpa [bytewise] using hpre.length_le
  have hcb : c.toNat = b.toNat := by
    rw [hinit, List.prefix_append_right_inj] at hpre
    rw [← toNat_byteChar, (List.cons_prefix_cons.mp hpre).1]
  have hlt := b.toNat_lt
  have hlead := hlead hc
  rcases encode_cases c with ⟨hc', -⟩ | ⟨-, -, b₁, b₂, he', e₁, e₂⟩ | ⟨hc', -⟩ | ⟨hc', -⟩
  · omega
  · obtain ⟨rfl, rfl⟩ : b = b₁ ∧ bs = [b₂] := by simpa using he.symm.trans he'
    have hb₂ : isWhitespace (byteChar b₂) = false := by
      rw [show b₂ = 0x83 from UInt8.toNat_inj.mp (by rw [e₂]; change _ = 131; omega)]
      decide
    have henc' : asBytes (s ++ [c]) = (asBytes s ++ [b]) ++ b₂ :: [] := by
      rw [henc, List.append_assoc, List.singleton_append]
    have hlong := (prefix_trim_bytewise hs hb₂ henc').length_le
    rw [h, List.map_append, hinit] at hlong
    simp at hlong
  · omega
  · omega

/-- **Trimming does not make up for it**: of the texts without white space exactly ASCII comes out
as it was. -/
theorem trim_bytewise_eq_self_iff (hs : ∀ c ∈ s, isWhitespace c = false) :
    trim (bytewise s) = s ↔ IsAscii s := by
  constructor
  · intro h
    rcases List.eq_nil_or_concat s with rfl | ⟨init, c, rfl⟩
    · exact fun c hc => by cases hc
    rw [List.concat_eq_append] at *
    by_cases hc : c.toNat < 0x80
    · exact isAscii_of_trim_ascii hs hc h
    · exact absurd h (trim_bytewise_ne hs (Nat.not_lt.mp hc))
  · intro h
    rw [bytewise_of_isAscii h, trim, trimMatches_of_cleanEnds (cleanEnds_of_forall hs)]

end Crs

end Fywaf
