import Mathlib.Data.List.Forall2
import Mathlib.Data.Nat.Notation

/-!
# Scanners

A decoder that walks its input once: at each position it looks ahead, consumes the symbol it
stands on and possibly more, and emits some output. `Scanner` keeps the one fact such a loop must
have, that no step gives input back, so that every run ends.

## Main definitions

* `Scanner`, `Scanner.run`

## Main results

* `Scanner.run_cons` — a run is a step and the run of the rest
* `Scanner.run_eq_map` — symbols read for themselves
* `Scanner.run_flatMap` — what is read piece by piece is read whole
* `Scanner.forall_mem_run` — what every step emits, every run emits
-/

namespace Fywaf

/-- One step of a decoder: what it emits for the symbol it stands on and what is left to read. -/
structure Scanner (α β : Type) where
  /-- What is emitted, and the rest of the input. -/
  step : α → List α → List β × List α
  /-- The rest is no longer than what followed the symbol. -/
  le : ∀ a l, (step a l).2.length ≤ l.length

namespace Scanner

variable {α β : Type} (S : Scanner α β)

/-- The run of a scanner, bounded by a number of steps. -/
def runFuel : ℕ → List α → List β
  | 0, _ => []
  | _ + 1, [] => []
  | n + 1, a :: l => (S.step a l).1 ++ runFuel n (S.step a l).2

/-- The run of a scanner: one step per symbol is enough. -/
def run (l : List α) : List β := S.runFuel l.length l

@[simp] theorem run_nil : S.run [] = [] := rfl

theorem runFuel_of_le : ∀ {n m : ℕ} {l : List α}, l.length ≤ n → l.length ≤ m →
    S.runFuel n l = S.runFuel m l
  | 0, 0, _, _, _ => rfl
  | 0, m + 1, [], _, _ => rfl
  | n + 1, 0, [], _, _ => rfl
  | n + 1, m + 1, [], _, _ => rfl
  | n + 1, m + 1, a :: l, hn, hm => by
    have hle := S.le a l
    rw [List.length_cons] at hn hm
    rw [runFuel, runFuel, runFuel_of_le (n := n) (m := m) (by omega) (by omega)]

/-- A run is a step and the run of the rest. -/
theorem run_cons (a : α) (l : List α) :
    S.run (a :: l) = (S.step a l).1 ++ S.run (S.step a l).2 := by
  rw [run, List.length_cons, runFuel, run, S.runFuel_of_le (S.le a l) (Nat.le_refl _)]

/-- What holds of all that a step emits holds of all that a run emits. -/
theorem forall_mem_run {P : β → Prop} (h : ∀ a l, ∀ b ∈ (S.step a l).1, P b) (l : List α) :
    ∀ b ∈ S.run l, P b := by
  have hfuel : ∀ (n : ℕ) (l : List α), ∀ b ∈ S.runFuel n l, P b := by
    intro n
    induction n with
    | zero => exact fun _ _ hb => by cases hb
    | succ n ih =>
      rintro (_ | ⟨a, l⟩) b hb
      · cases hb
      · rcases List.mem_append.mp hb with hb | hb
        · exact h a l b hb
        · exact ih _ b hb
  exact hfuel _ l

/-- Symbols that are each read for themselves. -/
theorem run_eq_map {f : α → β} {l : List α} (h : ∀ a ∈ l, ∀ rest, S.step a rest = ([f a], rest)) :
    S.run l = l.map f := by
  induction l with
  | nil => rfl
  | cons a l ih =>
    rw [run_cons, h a List.mem_cons_self, ih fun b hb => h b (List.mem_cons_of_mem _ hb)]
    rfl

/-! ### Reading piece by piece

A decoder undoes an encoder when each piece is read as what it stands for whatever comes behind
it. That is a statement about one step, and the pieces may then be mixed as one likes. -/

/-- `piece` is read as `out`, whatever follows. -/
def Reads (piece : List α) (out : List β) : Prop :=
  ∀ rest, S.run (piece ++ rest) = out ++ S.run rest

/-- A piece that one step consumes. -/
theorem reads_of_step {a : α} {l : List α} {out : List β}
    (h : ∀ rest, S.step a (l ++ rest) = (out, rest)) : S.Reads (a :: l) out := by
  intro rest
  rw [List.cons_append, run_cons, h rest]

/-- **What is read piece by piece is read whole.** -/
theorem run_flatMap {γ δ : Type} {R : γ → δ → Prop} {f : γ → List β} {g : δ → List α}
    (hR : ∀ x y, R x y → S.Reads (g y) (f x)) {xs : List γ} {ys : List δ}
    (h : List.Forall₂ R xs ys) : S.run (ys.flatMap g) = xs.flatMap f := by
  induction h with
  | nil => rfl
  | cons hxy _ ih => rw [List.flatMap_cons, List.flatMap_cons, hR _ _ hxy, ih]

end Scanner

end Fywaf
