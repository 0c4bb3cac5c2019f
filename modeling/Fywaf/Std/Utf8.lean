import Mathlib.Data.List.Basic

/-!
# UTF-8: scalar values and bytes

Rust keeps a `String` as UTF-8 bytes and moves between the two views all the time: header blocks
are found in bytes and parsed as text, bodies are bytes that may or may not be text, offsets are
byte offsets. Here a text is the list of its scalar values, and its bytes are a function of it.

`fromUtf8` reads one encoded scalar value at a time: the lead byte fixes how many bytes belong to
it, and the bytes are accepted when they are the encoding of the scalar value they spell. That
is well-formed UTF-8, overlong forms and surrogates excluded, because nothing but an encoding is
accepted.

## Main definitions

* `Str`, `Bytes` — a Rust text and a Rust byte buffer
* `asBytes`, `fromUtf8` — `str::as_bytes` and `str::from_utf8`

## Main results

* `fromUtf8_asBytes`, `asBytes_of_fromUtf8` — the two views determine each other
* `fromUtf8_eq_some_iff` — the accepted buffers are exactly the encoded texts
* `asBytes_eq_append_cons` — cutting at an ASCII byte cuts the text at its character
-/

namespace Fywaf

/-- A Rust `String` or `&str`, as the list of its scalar values. -/
abbrev Str := List Char

/-- A Rust `Vec<u8>` or `&[u8]`. -/
abbrev Bytes := List UInt8

/-- What every character of a fixed text satisfies, by evaluation along the text. -/
theorem forall_mem_of_all {p : Char → Prop} [DecidablePred p] {s : Str}
    (h : (s.all fun c => decide (p c)) = true) : ∀ c ∈ s, p c :=
  fun c hc => of_decide_eq_true (List.all_eq_true.mp h c hc)

/-- `str::as_bytes`. -/
def asBytes (s : Str) : Bytes := s.flatMap String.utf8EncodeChar

@[simp] theorem asBytes_nil : asBytes [] = [] := rfl

@[simp] theorem asBytes_cons (c : Char) (s : Str) :
    asBytes (c :: s) = String.utf8EncodeChar c ++ asBytes s := rfl

@[simp] theorem asBytes_append (s t : Str) : asBytes (s ++ t) = asBytes s ++ asBytes t :=
  List.flatMap_append

theorem asBytes_flatten (pieces : List Str) :
    asBytes pieces.flatten = pieces.flatMap asBytes := by
  induction pieces with
  | nil => rfl
  | cons piece pieces ih => rw [List.flatten_cons, asBytes_append, ih, List.flatMap_cons]

/-! ### Decoding -/

/-- The number spelled by the payload bits of an encoded scalar value. -/
def payload : Bytes → ℕ
  | [a] => a.toNat
  | [a, b] => a.toNat % 32 * 64 + b.toNat % 64
  | [a, b, c] => a.toNat % 16 * 4096 + b.toNat % 64 * 64 + c.toNat % 64
  | [a, b, c, d] =>
    a.toNat % 8 * 262144 + b.toNat % 64 * 4096 + c.toNat % 64 * 64 + d.toNat % 64
  | _ => 0

/-- The scalar value `bs` encodes, when `bs` is the encoding of one. -/
def scalarOf (bs : Bytes) : Option Char :=
  if String.utf8EncodeChar (Char.ofNat (payload bs)) = bs then some (Char.ofNat (payload bs))
  else none

/-- The scalar value `bs` encodes, in front of the decoded rest. -/
def consScalar (bs : Bytes) (rest : Option Str) : Option Str :=
  (scalarOf bs).bind fun c => rest.map (c :: ·)

/-- `str::from_utf8(..).ok()`: the text a buffer encodes, when it is well-formed UTF-8. -/
def fromUtf8 : Bytes → Option Str
  | [] => some []
  | a :: t₁ =>
    if a.toNat < 0x80 then consScalar [a] (fromUtf8 t₁)
    else
      match t₁ with
      | [] => none
      | b :: t₂ =>
        if a.toNat < 0xE0 then consScalar [a, b] (fromUtf8 t₂)
        else
          match t₂ with
          | [] => none
          | c :: t₃ =>
            if a.toNat < 0xF0 then consScalar [a, b, c] (fromUtf8 t₃)
            else
              match t₃ with
              | [] => none
              | d :: t₄ => consScalar [a, b, c, d] (fromUtf8 t₄)

theorem encode_of_scalarOf {bs : Bytes} {c : Char} (h : scalarOf bs = some c) :
    String.utf8EncodeChar c = bs := by
  rw [scalarOf] at h
  split at h
  · next heq => rw [← Option.some.inj h]; exact heq
  · cases h

theorem scalarOf_encode {c : Char} (h : payload (String.utf8EncodeChar c) = c.toNat) :
    scalarOf (String.utf8EncodeChar c) = some c := by
  simp [scalarOf, h]

theorem consScalar_eq_some_iff {bs : Bytes} {rest : Option Str} {s : Str} :
    consScalar bs rest = some s ↔ ∃ c t, scalarOf bs = some c ∧ rest = some t ∧ c :: t = s := by
  simp [consScalar, Option.bind_eq_some_iff, Option.map_eq_some_iff]

/-- One step of the decoder, given that the rest decodes to its own encoding. -/
theorem asBytes_of_consScalar {bs t : Bytes} {s : Str}
    (ih : ∀ {s}, fromUtf8 t = some s → asBytes s = t)
    (h : consScalar bs (fromUtf8 t) = some s) : asBytes s = bs ++ t := by
  obtain ⟨c, s', hc, hs', rfl⟩ := consScalar_eq_some_iff.mp h
  rw [asBytes_cons, encode_of_scalarOf hc, ih hs']

/-- A buffer that decodes is the encoding of what it decodes to. -/
theorem asBytes_of_fromUtf8 : ∀ {b : Bytes} {s : Str}, fromUtf8 b = some s → asBytes s = b := by
  intro b
  fun_induction fromUtf8 b with
  | case1 => intro s h; cases h; rfl
  | case3 | case5 | case7 => intro s h; cases h
  | case2 _ _ _ ih | case4 _ _ _ _ _ ih | case6 _ _ _ _ _ _ _ ih | case8 _ _ _ _ _ _ _ _ ih =>
    intro s h
    exact asBytes_of_consScalar ih h

/-! ### Decoding an encoding

The four lengths of an encoding, with the bytes as numbers. The arithmetic of one scalar value
is here and nowhere else. -/

section Lengths

variable {a b c d : UInt8} {t : Bytes}

variable (a t) in
/-- The lead byte decides. -/
theorem fromUtf8_cons : fromUtf8 (a :: t) =
    if a.toNat < 0x80 then consScalar [a] (fromUtf8 t)
    else
      match t with
      | [] => none
      | b :: t₂ =>
        if a.toNat < 0xE0 then consScalar [a, b] (fromUtf8 t₂)
        else
          match t₂ with
          | [] => none
          | c :: t₃ =>
            if a.toNat < 0xF0 then consScalar [a, b, c] (fromUtf8 t₃)
            else
              match t₃ with
              | [] => none
              | d :: t₄ => consScalar [a, b, c, d] (fromUtf8 t₄) :=
  fromUtf8.eq_def (a :: t)

theorem fromUtf8_one (ha : a.toNat < 0x80) :
    fromUtf8 (a :: t) = consScalar [a] (fromUtf8 t) := by
  rw [fromUtf8_cons, if_pos ha]

theorem fromUtf8_two (ha : 0x80 ≤ a.toNat) (ha' : a.toNat < 0xE0) :
    fromUtf8 (a :: b :: t) = consScalar [a, b] (fromUtf8 t) := by
  rw [fromUtf8_cons, if_neg (Nat.not_lt.mpr ha)]
  exact if_pos ha'

theorem fromUtf8_three (ha : 0xE0 ≤ a.toNat) (ha' : a.toNat < 0xF0) :
    fromUtf8 (a :: b :: c :: t) = consScalar [a, b, c] (fromUtf8 t) := by
  have hone : ¬ a.toNat < 0x80 := by omega
  rw [fromUtf8_cons, if_neg hone]
  exact (if_neg (Nat.not_lt.mpr ha)).trans (if_pos ha')

theorem fromUtf8_four (ha : 0xF0 ≤ a.toNat) :
    fromUtf8 (a :: b :: c :: d :: t) = consScalar [a, b, c, d] (fromUtf8 t) := by
  have hone : ¬ a.toNat < 0x80 := by omega
  have htwo : ¬ a.toNat < 0xE0 := by omega
  rw [fromUtf8_cons, if_neg hone]
  exact (if_neg htwo).trans (if_neg (Nat.not_lt.mpr ha))

end Lengths

theorem toNat_ofNat_of_lt {n : ℕ} (h : n < 256) : (UInt8.ofNat n).toNat = n := by
  rw [UInt8.toNat_ofNat', Nat.mod_eq_of_lt h]

theorem toNat_lt (c : Char) : c.toNat < 0x110000 := by
  have h := c.valid
  have hv : c.val.toNat = c.toNat := rfl
  rw [← hv]
  rcases h with h | h <;> omega

/-- The encoding of a scalar value, by length, with its bytes as numbers. -/
theorem encode_cases (c : Char) :
    (c.toNat < 0x80 ∧ ∃ b₁, String.utf8EncodeChar c = [b₁] ∧ b₁.toNat = c.toNat) ∨
    (0x80 ≤ c.toNat ∧ c.toNat < 0x800 ∧ ∃ b₁ b₂, String.utf8EncodeChar c = [b₁, b₂] ∧
      b₁.toNat = c.toNat / 64 + 0xC0 ∧ b₂.toNat = c.toNat % 64 + 0x80) ∨
    (0x800 ≤ c.toNat ∧ c.toNat < 0x10000 ∧ ∃ b₁ b₂ b₃,
      String.utf8EncodeChar c = [b₁, b₂, b₃] ∧ b₁.toNat = c.toNat / 4096 + 0xE0 ∧
      b₂.toNat = c.toNat / 64 % 64 + 0x80 ∧ b₃.toNat = c.toNat % 64 + 0x80) ∨
    (0x10000 ≤ c.toNat ∧ c.toNat < 0x110000 ∧ ∃ b₁ b₂ b₃ b₄,
      String.utf8EncodeChar c = [b₁, b₂, b₃, b₄] ∧ b₁.toNat = c.toNat / 262144 + 0xF0 ∧
      b₂.toNat = c.toNat / 4096 % 64 + 0x80 ∧ b₃.toNat = c.toNat / 64 % 64 + 0x80 ∧
      b₄.toNat = c.toNat % 64 + 0x80) := by
  have hv : c.val.toNat = c.toNat := rfl
  have hmax := toNat_lt c
  by_cases h₁ : c.toNat < 0x80
  · refine Or.inl ⟨h₁, UInt8.ofNat c.toNat, ?_, toNat_ofNat_of_lt (by omega)⟩
    rw [String.utf8EncodeChar, hv, if_pos (by omega)]
  by_cases h₂ : c.toNat < 0x800
  · refine Or.inr (Or.inl ⟨by omega, h₂, UInt8.ofNat (c.toNat / 64 % 32 + 0xC0),
      UInt8.ofNat (c.toNat % 64 + 0x80), ?_, ?_, toNat_ofNat_of_lt (by omega)⟩)
    · rw [String.utf8EncodeChar, hv, if_neg (by omega), if_pos (by omega)]
    · rw [toNat_ofNat_of_lt (by omega)]; omega
  by_cases h₃ : c.toNat < 0x10000
  · refine Or.inr (Or.inr (Or.inl ⟨by omega, h₃, UInt8.ofNat (c.toNat / 4096 % 16 + 0xE0),
      UInt8.ofNat (c.toNat / 64 % 64 + 0x80), UInt8.ofNat (c.toNat % 64 + 0x80), ?_, ?_,
      toNat_ofNat_of_lt (by omega), toNat_ofNat_of_lt (by omega)⟩))
    · rw [String.utf8EncodeChar, hv, if_neg (by omega), if_neg (by omega), if_pos (by omega)]
    · rw [toNat_ofNat_of_lt (by omega)]; omega
  · refine Or.inr (Or.inr (Or.inr ⟨by omega, hmax, UInt8.ofNat (c.toNat / 262144 % 8 + 0xF0),
      UInt8.ofNat (c.toNat / 4096 % 64 + 0x80), UInt8.ofNat (c.toNat / 64 % 64 + 0x80),
      UInt8.ofNat (c.toNat % 64 + 0x80), ?_, ?_, toNat_ofNat_of_lt (by omega),
      toNat_ofNat_of_lt (by omega), toNat_ofNat_of_lt (by omega)⟩))
    · rw [String.utf8EncodeChar, hv, if_neg (by omega), if_neg (by omega), if_neg (by omega)]
    · rw [toNat_ofNat_of_lt (by omega)]; omega

/-- An encoded scalar value is consumed whole, whatever follows it. -/
theorem fromUtf8_encode_append (x : Char) (t : Bytes) :
    fromUtf8 (String.utf8EncodeChar x ++ t) = (fromUtf8 t).map (x :: ·) := by
  have step : ∀ {bs : Bytes}, String.utf8EncodeChar x = bs → payload bs = x.toNat →
      consScalar bs (fromUtf8 t) = (fromUtf8 t).map (x :: ·) := by
    rintro bs rfl h
    rw [consScalar, scalarOf_encode h, Option.bind_some]
  rcases encode_cases x with ⟨h, b₁, he, e₁⟩ | ⟨h, h', b₁, b₂, he, e₁, e₂⟩ |
    ⟨h, h', b₁, b₂, b₃, he, e₁, e₂, e₃⟩ | ⟨h, h', b₁, b₂, b₃, b₄, he, e₁, e₂, e₃, e₄⟩
  · rw [he, List.cons_append, List.nil_append, fromUtf8_one (by omega)]
    exact step he e₁
  · rw [he, List.cons_append, List.cons_append, List.nil_append,
      fromUtf8_two (by omega) (by omega)]
    exact step he (by simp only [payload]; omega)
  · rw [he, List.cons_append, List.cons_append, List.cons_append, List.nil_append,
      fromUtf8_three (by omega) (by omega)]
    exact step he (by simp only [payload]; omega)
  · rw [he, List.cons_append, List.cons_append, List.cons_append, List.cons_append,
      List.nil_append, fromUtf8_four (by omega)]
    exact step he (by simp only [payload]; omega)

/-- **Decoding an encoded text gives the text back**, whatever follows it. -/
theorem fromUtf8_asBytes_append (s : Str) (t : Bytes) :
    fromUtf8 (asBytes s ++ t) = (fromUtf8 t).map (s ++ ·) := by
  induction s with
  | nil => simp
  | cons x s ih =>
    rw [asBytes_cons, List.append_assoc, fromUtf8_encode_append, ih, Option.map_map]
    rfl

@[simp] theorem fromUtf8_asBytes (s : Str) : fromUtf8 (asBytes s) = some s := by
  have h := fromUtf8_asBytes_append s []
  rwa [List.append_nil, fromUtf8, Option.map_some, List.append_nil] at h

theorem asBytes_injective : Function.Injective asBytes := fun s t h => by
  have hs := fromUtf8_asBytes s
  rw [h, fromUtf8_asBytes] at hs
  exact (Option.some.inj hs).symm

/-- The accepted buffers are exactly the encoded texts. -/
theorem fromUtf8_eq_some_iff {b : Bytes} {s : Str} : fromUtf8 b = some s ↔ asBytes s = b :=
  ⟨asBytes_of_fromUtf8, fun h => h ▸ fromUtf8_asBytes s⟩

/-! ### ASCII

Every byte the parsers look for is ASCII, and in UTF-8 an ASCII byte is never part of a longer
encoding. -/

/-- A character below `0x80` is one byte, the same number. -/
theorem encode_ascii {x : Char} (h : x.toNat < 0x80) :
    String.utf8EncodeChar x = [UInt8.ofNat x.toNat] := by
  have hv : x.val.toNat = x.toNat := rfl
  rw [String.utf8EncodeChar, hv, if_pos (by omega)]

theorem char_ext_toNat {x y : Char} (h : x.toNat = y.toNat) : x = y :=
  Char.ext (UInt32.toNat_inj.mp h)

theorem ascii_mem_encode_iff {x y : Char} (hx : x.toNat < 0x80) :
    UInt8.ofNat x.toNat ∈ String.utf8EncodeChar y ↔ x = y := by
  have hx' : (UInt8.ofNat x.toNat).toNat = x.toNat := toNat_ofNat_of_lt (by omega)
  constructor
  · intro h
    rcases encode_cases y with ⟨hy, b₁, he, e₁⟩ | ⟨hy, _, b₁, b₂, he, e₁, e₂⟩ |
      ⟨hy, _, b₁, b₂, b₃, he, e₁, e₂, e₃⟩ | ⟨hy, _, b₁, b₂, b₃, b₄, he, e₁, e₂, e₃, e₄⟩
    all_goals
      rw [he] at h
      simp only [List.mem_cons, List.not_mem_nil, or_false, ← UInt8.toNat_inj, hx'] at h
    · exact char_ext_toNat (h.trans e₁)
    all_goals omega
  · rintro rfl
    rw [encode_ascii hx]
    exact List.mem_singleton_self _

/-- **Cutting at an ASCII byte cuts the text at its character.** -/
theorem asBytes_eq_append_cons {x : Char} (hx : x.toNat < 0x80) {s : Str} {u v : Bytes}
    (h : asBytes s = u ++ UInt8.ofNat x.toNat :: v) :
    ∃ a b, s = a ++ x :: b ∧ asBytes a = u ∧ asBytes b = v := by
  induction s generalizing u with
  | nil => exact absurd h.symm (by simp)
  | cons c s ih =>
    rw [asBytes_cons] at h
    rcases List.append_eq_append_iff.mp h with ⟨u', rfl, hs⟩ | ⟨w, hc, hw⟩
    · obtain ⟨a, b, rfl, ha, hb⟩ := ih hs
      exact ⟨c :: a, b, rfl, by rw [asBytes_cons, ha], hb⟩
    · cases w with
      | nil =>
        obtain ⟨a, b, rfl, ha, hb⟩ := @ih [] hw.symm
        refine ⟨c :: a, b, rfl, ?_, hb⟩
        rw [asBytes_cons, ha, hc, List.append_nil, List.append_nil]
      | cons y w =>
        -- the byte is inside the encoding of `c`, so it is all of it
        rw [List.cons_append, List.cons.injEq] at hw
        have hxc : x = c := (ascii_mem_encode_iff hx).mp (by rw [hc, ← hw.1]; simp)
        subst hxc
        rw [encode_ascii hx] at hc
        have hlen := congrArg List.length hc
        rw [List.length_append, List.length_cons, List.length_nil, List.length_cons] at hlen
        have hu : u = [] := List.length_eq_zero_iff.mp (by omega)
        have hw' : w = [] := List.length_eq_zero_iff.mp (by omega)
        subst hu hw'
        exact ⟨[], s, rfl, rfl, hw.2.symm⟩

end Fywaf
