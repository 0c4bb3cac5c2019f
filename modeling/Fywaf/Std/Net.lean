import Mathlib.Data.Fin.VecNotation
import Fywaf.Std.Num

/-!
# Internet addresses as text

`Display` of `std::net::IpAddr`: four decimal numbers for version 4; for version 6 eight
hexadecimal groups, the longest run of two or more zero groups replaced by `::`, and version 4
addresses mapped into version 6 shown as such.

## Main definitions

* `IpAddr`, `IpAddr.display`

## Main results

* `IpAddr.isGraphic_of_mem_display` — the text is made of visible ASCII characters
* `IpAddr.display_ne_nil`
-/

namespace Fywaf

/-- `std::net::IpAddr`. -/
inductive IpAddr
  | v4 (a b c d : UInt8)
  | v6 (segments : Fin 8 → UInt16)

/-- Format `{:x}`. -/
def lowerHex (n : ℕ) : Str := Nat.toDigits 16 n

/-- Four decimal numbers with dots between. -/
def displayV4 (a b c d : UInt8) : Str :=
  decimal a.toNat ++ '.' :: decimal b.toNat ++ '.' :: decimal c.toNat ++ '.' :: decimal d.toNat

/-- A run of zero groups: where it starts and how long it is. -/
structure ZeroSpan where
  start : ℕ
  len : ℕ

/-- The first longest run of zeros among the groups from position `i` on, given the run that ends
at `i` and the longest before. -/
def longestZeros : ℕ → List UInt16 → ZeroSpan → ZeroSpan → ZeroSpan
  | _, [], _, longest => longest
  | i, segment :: rest, current, longest =>
    if segment = 0 then
      let current : ZeroSpan := ⟨if current.len = 0 then i else current.start, current.len + 1⟩
      longestZeros (i + 1) rest current (if longest.len < current.len then current else longest)
    else longestZeros (i + 1) rest ⟨0, 0⟩ longest

/-- Groups with colons between. -/
def displayGroups : List UInt16 → Str
  | [] => []
  | [segment] => lowerHex segment.toNat
  | segment :: rest => lowerHex segment.toNat ++ ':' :: displayGroups rest

/-- Display of the eight groups of a version 6 address. -/
def displayV6 (segments : Fin 8 → UInt16) : Str :=
  let groups := List.ofFn segments
  if groups.take 5 = [0, 0, 0, 0, 0] ∧ segments 5 = 0xffff then
    -- mapped from version 4
    let hi := (segments 6).toNat
    let lo := (segments 7).toNat
    "::ffff:".toList ++ displayV4 (UInt8.ofNat (hi / 256)) (UInt8.ofNat (hi % 256))
      (UInt8.ofNat (lo / 256)) (UInt8.ofNat (lo % 256))
  else
    let zeroes := longestZeros 0 groups ⟨0, 0⟩ ⟨0, 0⟩
    if 1 < zeroes.len then
      displayGroups (groups.take zeroes.start) ++ "::".toList ++
        displayGroups (groups.drop (zeroes.start + zeroes.len))
    else displayGroups groups

namespace IpAddr

/-- `to_string`. -/
def display : IpAddr → Str
  | v4 a b c d => displayV4 a b c d
  | v6 segments => displayV6 segments

example : (v6 ![0x2001, 0xdb8, 0, 0, 0, 0, 0, 1]).display = "2001:db8::1".toList := by
  decide

/-! ### The characters of an address -/

theorem isGraphic_decimal {n : ℕ} {c : Char} (h : c ∈ decimal n) : IsGraphic c := by
  have := isDigit_iff.mp (decimal_digits h)
  constructor <;> omega

theorem isGraphic_lowerHex {n : ℕ} {c : Char} (h : c ∈ lowerHex n) : IsGraphic c := by
  have hdigit : ∀ d < 16, IsGraphic (Nat.digitChar d) := by decide
  induction n using Nat.strong_induction_on with
  | _ n ih =>
    rw [lowerHex, Nat.toDigits_eq_if (by decide)] at h
    split at h
    · next hlt => exact List.mem_singleton.mp h ▸ hdigit n hlt
    · next hge =>
      rcases List.mem_append.mp h with h | h
      · exact ih _ (Nat.div_lt_self (by omega) (by decide)) h
      · exact List.mem_singleton.mp h ▸ hdigit _ (Nat.mod_lt _ (by decide))

theorem isGraphic_displayV4 {a b c d : UInt8} {x : Char} (h : x ∈ displayV4 a b c d) :
    IsGraphic x := by
  have hdot : IsGraphic '.' := by decide
  simp only [displayV4, List.mem_append, List.mem_cons] at h
  rcases h with ((h | rfl | h) | rfl | h) | rfl | h
  all_goals first | exact isGraphic_decimal h | exact hdot

theorem isGraphic_displayGroups {groups : List UInt16} {x : Char}
    (h : x ∈ displayGroups groups) : IsGraphic x := by
  fun_induction displayGroups groups with
  | case1 => cases h
  | case2 segment => exact isGraphic_lowerHex h
  | case3 segment rest _ ih =>
    rcases List.mem_append.mp h with h | h
    · exact isGraphic_lowerHex h
    · rcases List.mem_cons.mp h with rfl | h
      · decide
      · exact ih h

/-- **An address is written with visible ASCII characters.** -/
theorem isGraphic_of_mem_display {ip : IpAddr} {x : Char} (h : x ∈ ip.display) :
    IsGraphic x := by
  cases ip with
  | v4 a b c d => exact isGraphic_displayV4 h
  | v6 segments =>
    rw [display, displayV6] at h
    split at h
    · rcases List.mem_append.mp h with h | h
      · have hmapped : ∀ y ∈ "::ffff:".toList, IsGraphic y := forall_mem_of_all (by decide)
        exact hmapped x h
      · exact isGraphic_displayV4 h
    · dsimp only at h
      split at h
      · have hgap : ∀ y ∈ "::".toList, IsGraphic y := forall_mem_of_all (by decide)
        rw [List.mem_append, List.mem_append] at h
        rcases h with (h | h) | h
        · exact isGraphic_displayGroups h
        · exact hgap x h
        · exact isGraphic_displayGroups h
      · exact isGraphic_displayGroups h

theorem display_ne_nil (ip : IpAddr) : ip.display ≠ [] := by
  have hv4 : ∀ a b c d, displayV4 a b c d ≠ [] := fun a b c d h => by
    have := congrArg List.length h
    simp [displayV4] at this
  cases ip with
  | v4 a b c d => exact hv4 a b c d
  | v6 segments =>
    rw [display, displayV6]
    split
    · simp
    · dsimp only
      split
      · simp
      · exact fun h => by simp [List.ofFn_succ, displayGroups] at h

end IpAddr

end Fywaf
