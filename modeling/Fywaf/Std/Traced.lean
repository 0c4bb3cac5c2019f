import Fywaf.Std.Checks

/-!
# Computations that keep a log

A function that fails early may have done something before it fails. `Traced` is `Except` with a
log of what was done, kept on failure too. What is said of every entry of the log is said one step
of the function at a time, and for each step it is known that all steps before it succeeded.

## Main definitions

* `Traced`, `Traced.tell`

## Main results

* `Traced.mem_log_bind_iff`, `Traced.result_bind` — the log and the result of two steps
* `mapError_bind`, `bind_congr_of_ok` — a function and the same with other errors
-/

namespace Fywaf

variable {ε ε' τ α β : Type}

/-- The log of a computation and how it ended. -/
structure Traced (ε τ α : Type) where
  log : List τ
  result : Except ε α

namespace Traced

/-- Enter something in the log. -/
def tell (t : τ) : Traced ε τ Unit := ⟨[t], .ok ()⟩

/-- A step that enters nothing. -/
def lift (x : Except ε α) : Traced ε τ α := ⟨[], x⟩

/-- Two steps, the second only when the first has not failed. -/
def andThen (x : Traced ε τ α) (f : α → Traced ε τ β) : Traced ε τ β :=
  match x.result with
  | .ok a => ⟨x.log ++ (f a).log, (f a).result⟩
  | .error e => ⟨x.log, .error e⟩

instance : Monad (Traced ε τ) where
  pure a := ⟨[], .ok a⟩
  bind := andThen

variable {x : Traced ε τ α} {f : α → Traced ε τ β} {t : τ}

@[simp] theorem log_pure (a : α) : (pure a : Traced ε τ α).log = [] := rfl

@[simp] theorem result_pure (a : α) : (pure a : Traced ε τ α).result = .ok a := rfl

@[simp] theorem log_lift (y : Except ε α) : (lift y : Traced ε τ α).log = [] := rfl

@[simp] theorem result_lift (y : Except ε α) : (lift y : Traced ε τ α).result = y := rfl

@[simp] theorem log_tell (t : τ) : (tell t : Traced ε τ Unit).log = [t] := rfl

@[simp] theorem result_tell (t : τ) : (tell t : Traced ε τ Unit).result = .ok () := rfl

/-- The result of two steps. -/
theorem result_bind (x : Traced ε τ α) (f : α → Traced ε τ β) :
    (x >>= f).result = x.result >>= fun a => (f a).result := by
  change (andThen x f).result = _
  rw [andThen]
  cases x.result with
  | ok a => rfl
  | error e => rfl

/-- **The log of two steps**: what the second enters is entered after the first has succeeded. -/
theorem mem_log_bind_iff :
    t ∈ (x >>= f).log ↔ t ∈ x.log ∨ ∃ a, x.result = .ok a ∧ t ∈ (f a).log := by
  change t ∈ (andThen x f).log ↔ _
  rw [andThen]
  cases h : x.result with
  | ok a => simp
  | error e => simp

end Traced

/-! ### Other errors -/

theorem mapError_bind (x : Except ε α) (f : α → Except ε β) (g : ε → ε') :
    (x >>= f).mapError g = x.mapError g >>= fun a => (f a).mapError g := by
  cases x with
  | ok a => rfl
  | error e => rfl

@[simp] theorem mapError_orFail (x : Option α) (e : ε) (g : ε → ε') :
    (orFail x e).mapError g = orFail x (g e) := by
  cases x with
  | none => rfl
  | some a => rfl

@[simp] theorem mapError_failIf (p : Prop) [Decidable p] (e : ε) (g : ε → ε') :
    (failIf p e).mapError g = failIf p (g e) := by
  rw [failIf, failIf]
  split
  · rfl
  · rfl

theorem mapError_eq_ok_iff {x : Except ε α} {g : ε → ε'} {a : α} :
    x.mapError g = .ok a ↔ x = .ok a := by
  cases x with
  | ok a' => exact Iff.intro (fun h => by cases h; rfl) (fun h => by cases h; rfl)
  | error e => exact iff_of_false (fun h => by cases h) (fun h => by cases h)

theorem mapError_eq_error_iff {x : Except ε α} {g : ε → ε'} {e' : ε'} :
    x.mapError g = .error e' ↔ ∃ e, x = .error e ∧ g e = e' := by
  cases x with
  | ok a => exact iff_of_false (fun h => by cases h) (by rintro ⟨_, ⟨⟩, -⟩)
  | error e => simp only [Except.mapError, Except.error.injEq, exists_eq_left']

theorem orFail_some_bind (a : α) (e : ε) (f : α → Except ε β) :
    orFail (some a) e >>= f = f a := rfl

theorem failIf_congr {p q : Prop} [Decidable p] [Decidable q] (h : p ↔ q) (e : ε) :
    failIf p e = failIf q e := by
  rw [failIf, failIf]
  by_cases hq : q
  · rw [if_pos (h.mpr hq), if_pos hq]
  · rw [if_neg (mt h.mp hq), if_neg hq]

theorem map_bind_left {γ : Type} (x : Except ε α) (g : α → β) (f : β → Except ε γ) :
    x.map g >>= f = x >>= fun a => f (g a) := by
  cases x with
  | ok a => rfl
  | error e => rfl

/-- What follows a step may be replaced where the step has succeeded. -/
theorem bind_congr_of_ok {x : Except ε α} {f g : α → Except ε β}
    (h : ∀ a, x = .ok a → f a = g a) : x >>= f = x >>= g := by
  cases x with
  | ok a => exact h a rfl
  | error e => rfl

end Fywaf
