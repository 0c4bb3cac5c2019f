import Fywaf.Std.Map

/-!
# Remembered answers

A function that is costly to compute keeps the values it has found in a table. The table must not
show: every entry is the value at its own key, an invariant that every question keeps, so a run of
questions has the answers that a table emptied before each of them would give.

## Main definitions

* `answers` — what a machine answers to one question after the other
* `AnswersAs` — an action that answers the same whatever the state has remembered
* `Coherent` — every entry of a table is the value at its key

## Main results

* `answers_eq_map` — an invariant under which each answer is known gives all the answers
* `AnswersAs.bind` — an action after an action
* `Coherent.insert` — a value found is entered under its key
-/

namespace Fywaf

variable {σ α β κ ν : Type}

/-! ### Runs of questions -/

/-- The answers of a machine to one question after the other, each asked in the state that the ones
before it have left. -/
def answers (ask : σ → α → β × σ) : σ → List α → List β
  | _, [] => []
  | s, a :: l => (ask s a).1 :: answers ask (ask s a).2 l

/-- **An invariant gives the answers**: when under it each question has one answer and keeps it, a
run has the answers of its questions taken one by one. -/
theorem answers_eq_map {ask : σ → α → β × σ} {spec : α → β} {inv : σ → Prop}
    (hask : ∀ s a, inv s → (ask s a).1 = spec a ∧ inv (ask s a).2) :
    ∀ (l : List α) (s : σ), inv s → answers ask s l = l.map spec := by
  intro l
  induction l with
  | nil => exact fun _ _ => rfl
  | cons a l ih =>
    intro s hs
    obtain ⟨hanswer, hkept⟩ := hask s a hs
    rw [answers, hanswer, ih _ hkept, List.map_cons]

/-! ### Actions -/

section Actions

variable {γ : Type} {inv : σ → Prop}

/-- From every state in which the invariant holds, an action has this answer and keeps the
invariant. -/
def AnswersAs (inv : σ → Prop) (action : StateM σ β) (answer : β) : Prop :=
  ∀ s, inv s → (action.run s).1 = answer ∧ inv (action.run s).2

namespace AnswersAs

theorem pure (b : β) : AnswersAs inv (Pure.pure b) b := fun _ hs => ⟨rfl, hs⟩

/-- **An action after an action**: the second is run on what the first answers. -/
theorem bind {first : StateM σ β} {next : β → StateM σ γ} {b : β} {c : γ}
    (hfirst : AnswersAs inv first b) (hnext : AnswersAs inv (next b) c) :
    AnswersAs inv (first >>= next) c := by
  intro s hs
  obtain ⟨hanswer, hkept⟩ := hfirst s hs
  have hrun := hnext _ hkept
  rw [← hanswer] at hrun
  exact hrun

/-- An action that looks at the state first. -/
theorem get {next : σ → StateM σ β} {b : β} (h : ∀ s, inv s → AnswersAs inv (next s) b) :
    AnswersAs inv (MonadState.get >>= next) b :=
  fun s hs => h s hs s hs

/-- Questions that are asked until the first yes, one after the other. -/
theorem any {ask : α → StateM σ Bool} {p : α → Bool} (hask : ∀ a, AnswersAs inv (ask a) (p a))
    (l : List α) : AnswersAs inv (l.anyM ask) (l.any p) := by
  induction l with
  | nil => exact .pure false
  | cons a l ih =>
    refine (hask a).bind ?_
    rw [List.any_cons]
    cases p a with
    | true => exact .pure true
    | false => exact ih

/-- Questions that are asked until the first no, one after the other. -/
theorem all {ask : α → StateM σ Bool} {p : α → Bool} (hask : ∀ a, AnswersAs inv (ask a) (p a))
    (l : List α) : AnswersAs inv (l.allM ask) (l.all p) := by
  induction l with
  | nil => exact .pure true
  | cons a l ih =>
    refine (hask a).bind ?_
    rw [List.all_cons]
    cases p a with
    | true => exact ih
    | false => exact .pure false

end AnswersAs

end Actions

/-! ### Tables of values -/

section Table

variable [LinearOrder κ] {f : κ → Option ν} {m : BTreeMap κ ν}

/-- Every entry is the value of the function at its key. -/
def Coherent (f : κ → Option ν) (m : BTreeMap κ ν) : Prop :=
  ∀ k v, m.get? k = some v → f k = some v

theorem coherent_empty : Coherent f BTreeMap.empty := by
  intro k v h
  cases h

theorem Coherent.insert (h : Coherent f m) {k : κ} {v : ν} (hv : f k = some v) :
    Coherent f (m.insert k v) := by
  intro k' v' hget
  rw [BTreeMap.get?_insert] at hget
  by_cases hk : k' = k
  · rw [if_pos hk] at hget
    rw [hk, hv, hget]
  · rw [if_neg hk] at hget
    exact h k' v' hget

end Table

end Fywaf
