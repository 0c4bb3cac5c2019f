import Mathlib.Data.List.Forall2

/-!
# Checks

A function that fails early is a sequence of checks: a value that must be there, a condition that
must not hold. Each check has one lemma that says what passing it means, so that the success of
the whole sequence can be taken apart from the first check on.

## Main definitions

* `orFail`, `failIf`, `insertNew`
* `FailsOnly` — which errors a sequence of checks can have

## Main results

* `bind_eq_ok_iff`, `map_eq_ok_iff`, `mapM_eq_ok_iff`
* `orFail_eq_ok_iff`, `failIf_eq_ok_iff`, `insertNew_eq_ok_iff`, `toOption_eq_some_iff`
* `exists_foldlM_ok_iff` — a loop that compares each element with those before it
* `foldlM_eq_ok_iff_forall₂`, `foldlM_eq_error_iff` — a loop that stops at a failure
* `FailsOnly.bind`, `FailsOnly.orFail`, `FailsOnly.failIf`
-/

namespace Fywaf

variable {ε α β : Type}

/-- The value, or the error when there is none. -/
def orFail (x : Option α) (e : ε) : Except ε α :=
  match x with
  | some a => .ok a
  | none => .error e

/-- The error when the condition holds. -/
def failIf (p : Prop) [Decidable p] (e : ε) : Except ε Unit := if p then .error e else .ok ()

theorem ok_bind (a : α) (f : α → Except ε β) : Except.ok a >>= f = f a := rfl

theorem bind_eq_ok_iff {x : Except ε α} {f : α → Except ε β} {b : β} :
    x >>= f = .ok b ↔ ∃ a, x = .ok a ∧ f a = .ok b := by
  cases x with
  | error e => exact iff_of_false (fun h => by cases h) (by rintro ⟨a, ⟨⟩, -⟩)
  | ok a =>
    constructor
    · intro h
      exact ⟨a, rfl, h⟩
    · rintro ⟨a', ⟨⟩, h⟩
      exact h

theorem map_eq_ok_iff {x : Except ε α} {f : α → β} {b : β} :
    x.map f = .ok b ↔ ∃ a, x = .ok a ∧ f a = b := by
  cases x with
  | error e => exact iff_of_false (fun h => by cases h) (by rintro ⟨a, ⟨⟩, -⟩)
  | ok a => simp only [Except.map, Except.ok.injEq, exists_eq_left']

theorem exists_map_ok_iff {x : Except ε α} {f : α → β} :
    (∃ b, x.map f = .ok b) ↔ ∃ a, x = .ok a := by
  cases x <;> simp [Except.map]

/-- A list is mapped element by element. -/
theorem mapM_eq_ok_iff {f : α → Except ε β} {l : List α} {m : List β} :
    l.mapM f = .ok m ↔ List.Forall₂ (fun a b => f a = .ok b) l m := by
  induction l generalizing m with
  | nil =>
    rw [List.mapM_nil, List.forall₂_nil_left_iff]
    exact ⟨fun h => (Except.ok.inj h).symm, fun h => congrArg Except.ok h.symm⟩
  | cons a l ih =>
    rw [List.mapM_cons, bind_eq_ok_iff, List.forall₂_cons_left_iff]
    refine exists_congr fun b => ?_
    rw [bind_eq_ok_iff]
    constructor
    · rintro ⟨hb, bs, hbs, h⟩
      exact ⟨bs, hb, ih.mp hbs, (Except.ok.inj h).symm⟩
    · rintro ⟨bs, hb, hbs, rfl⟩
      exact ⟨hb, bs, ih.mpr hbs, rfl⟩

/-- Every element can be given a partner on its own. -/
theorem exists_forall₂_iff {R : α → β → Prop} {l : List α} :
    (∃ m, List.Forall₂ R l m) ↔ ∀ a ∈ l, ∃ b, R a b := by
  induction l with
  | nil => exact iff_of_true ⟨[], List.Forall₂.nil⟩ (List.forall_mem_nil _)
  | cons a l ih =>
    rw [List.forall_mem_cons, ← ih]
    constructor
    · rintro ⟨m, hm⟩
      obtain ⟨b, bs, hb, hbs, rfl⟩ := List.forall₂_cons_left_iff.mp hm
      exact ⟨⟨b, hb⟩, bs, hbs⟩
    · rintro ⟨⟨b, hb⟩, bs, hbs⟩
      exact ⟨b :: bs, List.Forall₂.cons hb hbs⟩

/-- A list is mapped when every element is. -/
theorem exists_mapM_ok_iff {f : α → Except ε β} {l : List α} :
    (∃ m, l.mapM f = .ok m) ↔ ∀ a ∈ l, ∃ b, f a = .ok b := by
  simp only [mapM_eq_ok_iff]
  exact exists_forall₂_iff

/-- Every element of a list has a partner. -/
theorem exists_of_forall₂_left {R : α → β → Prop} {l : List α} {m : List β}
    (h : List.Forall₂ R l m) {a : α} (ha : a ∈ l) : ∃ b ∈ m, R a b := by
  induction h with
  | nil => cases ha
  | cons hab _ ih =>
    rcases List.mem_cons.mp ha with rfl | ha
    · exact ⟨_, List.mem_cons_self, hab⟩
    · obtain ⟨b, hb, hr⟩ := ih ha
      exact ⟨b, List.mem_cons_of_mem _ hb, hr⟩

theorem exists_of_forall₂_right {R : α → β → Prop} {l : List α} {m : List β}
    (h : List.Forall₂ R l m) {b : β} (hb : b ∈ m) : ∃ a ∈ l, R a b :=
  exists_of_forall₂_left (List.Forall₂.flip h : List.Forall₂ (flip R) m l) hb

theorem toOption_eq_some_iff {x : Except ε α} {a : α} : x.toOption = some a ↔ x = .ok a := by
  cases x with
  | error e => exact iff_of_false (fun h => by cases h) (fun h => by cases h)
  | ok a' => simp only [Except.toOption, Except.ok.injEq, Option.some.injEq]

/-- What is seen of a result is seen of the one it has. -/
theorem map_toOption_eq_some_iff {x : Except ε α} {f : α → β} {b : β} :
    x.toOption.map f = some b ↔ ∃ a, x = .ok a ∧ f a = b := by
  rw [Option.map_eq_some_iff]
  simp only [toOption_eq_some_iff]

theorem orFail_eq_ok_iff {x : Option α} {e : ε} {a : α} : orFail x e = .ok a ↔ x = some a := by
  cases x with
  | none => exact iff_of_false (fun h => by cases h) (fun h => by cases h)
  | some a' => simp only [orFail, Except.ok.injEq, Option.some.injEq]

theorem failIf_eq_ok_iff {p : Prop} [Decidable p] {e : ε} {u : Unit} :
    failIf p e = .ok u ↔ ¬ p := by
  rw [failIf]
  split
  · next h => exact iff_of_false (fun h => by cases h) (not_not_intro h)
  · next h => exact iff_of_true rfl h

/-! ### Comparing with those before -/

/-- The element is put into the set, or fails when it is there. -/
def insertNew [DecidableEq α] (seen : List α) (a : α) (e : ε) : Except ε (List α) := do
  failIf (a ∈ seen) e
  return a :: seen

theorem insertNew_eq_ok_iff [DecidableEq α] {seen seen' : List α} {a : α} {e : ε} :
    insertNew seen a e = .ok seen' ↔ a ∉ seen ∧ seen' = a :: seen := by
  rw [insertNew, bind_eq_ok_iff]
  constructor
  · rintro ⟨u, hnew, hseen⟩
    exact ⟨failIf_eq_ok_iff.mp hnew, (Except.ok.inj hseen).symm⟩
  · rintro ⟨hnew, rfl⟩
    exact ⟨(), failIf_eq_ok_iff.mpr hnew, rfl⟩

section Visited

variable {σ : Type} {f : σ → α → Except ε σ} {state : List α → σ} {P : α → Prop} {R : α → α → Prop}

theorem exists_foldlM_visited_iff
    (hstep : ∀ visited a s, f (state visited) a = .ok s ↔
      (P a ∧ ∀ b ∈ visited, R b a) ∧ s = state (a :: visited))
    (l visited : List α) : (∃ s, l.foldlM f (state visited) = .ok s) ↔
      (∀ a ∈ l, P a ∧ ∀ b ∈ visited, R b a) ∧ l.Pairwise R := by
  induction l generalizing visited with
  | nil => exact iff_of_true ⟨_, rfl⟩ ⟨List.forall_mem_nil _, List.Pairwise.nil⟩
  | cons a l ih =>
    have hcons : (∃ s, (a :: l).foldlM f (state visited) = .ok s) ↔
        (P a ∧ ∀ b ∈ visited, R b a) ∧ ∃ s, l.foldlM f (state (a :: visited)) = .ok s := by
      simp only [List.foldlM_cons, bind_eq_ok_iff, hstep]
      constructor
      · rintro ⟨s, s', ⟨ha, rfl⟩, hl⟩
        exact ⟨ha, s, hl⟩
      · rintro ⟨ha, s, hl⟩
        exact ⟨s, _, ⟨ha, rfl⟩, hl⟩
    rw [hcons, ih, List.forall_mem_cons, List.pairwise_cons]
    simp only [List.forall_mem_cons]
    constructor
    · rintro ⟨ha, hl, hpairs⟩
      exact ⟨⟨ha, fun b hb => ⟨(hl b hb).1, (hl b hb).2.2⟩⟩, fun b hb => (hl b hb).2.1, hpairs⟩
    · rintro ⟨⟨ha, hl⟩, hfirst, hpairs⟩
      exact ⟨ha, fun b hb => ⟨(hl b hb).1, hfirst b hb, (hl b hb).2⟩, hpairs⟩

/-- **A loop that remembers what it has visited** goes through when every element passes on its
own and beside each one in front of it. -/
theorem exists_foldlM_ok_iff
    (hstep : ∀ visited a s, f (state visited) a = .ok s ↔
      (P a ∧ ∀ b ∈ visited, R b a) ∧ s = state (a :: visited)) (l : List α) :
    (∃ s, l.foldlM f (state []) = .ok s) ↔ (∀ a ∈ l, P a) ∧ l.Pairwise R := by
  have hfirst : ∀ a, (P a ∧ ∀ b ∈ [], R b a) ↔ P a :=
    fun _ => and_iff_left (List.forall_mem_nil _)
  simp only [exists_foldlM_visited_iff hstep l [], hfirst]

end Visited

/-! ### Loops that stop at a failure -/

section Loop

variable {σ : Type} {f : σ → α → Except ε σ}

/-- A loop whose turns put together the state from something found for each element. -/
theorem foldlM_eq_ok_iff_forall₂ {R : α → β → Prop} {g : σ → α × β → σ}
    (hstep : ∀ s a s', f s a = .ok s' ↔ ∃ b, R a b ∧ s' = g s (a, b)) {l : List α} {s s' : σ} :
    l.foldlM f s = .ok s' ↔ ∃ m, List.Forall₂ R l m ∧ s' = (l.zip m).foldl g s := by
  induction l generalizing s with
  | nil =>
    simp only [List.foldlM_nil, List.forall₂_nil_left_iff, exists_eq_left, List.zip_nil_left,
      List.foldl_nil]
    exact ⟨fun h => (Except.ok.inj h).symm, fun h => congrArg Except.ok h.symm⟩
  | cons a l ih =>
    simp only [List.foldlM_cons, bind_eq_ok_iff, hstep, ih, List.forall₂_cons_left_iff]
    constructor
    · rintro ⟨_, ⟨b, hb, rfl⟩, m, hm, rfl⟩
      exact ⟨b :: m, ⟨b, m, hb, hm, rfl⟩, rfl⟩
    · rintro ⟨_, ⟨b, m, hb, hm, rfl⟩, rfl⟩
      exact ⟨_, ⟨b, hb, rfl⟩, m, hm, rfl⟩

/-- **A loop fails in the first turn that fails.** -/
theorem foldlM_eq_error_iff {l : List α} {s : σ} {e : ε} : l.foldlM f s = .error e ↔
    ∃ pre a post s', l = pre ++ a :: post ∧ pre.foldlM f s = .ok s' ∧ f s' a = .error e := by
  induction l generalizing s with
  | nil => exact iff_of_false (fun h => by cases h) (by rintro ⟨_ | ⟨b, pre⟩, a, post, s', ⟨⟩, -⟩)
  | cons a l ih =>
    rw [List.foldlM_cons]
    constructor
    · intro h
      cases ha : f s a with
      | error e' =>
        rw [ha] at h
        exact ⟨[], a, l, s, rfl, rfl, ha.trans (congrArg Except.error (Except.error.inj h))⟩
      | ok s₁ =>
        rw [ha, ok_bind] at h
        obtain ⟨pre, b, post, s', rfl, hpre, hb⟩ := ih.mp h
        refine ⟨a :: pre, b, post, s', rfl, ?_, hb⟩
        rw [List.foldlM_cons, ha, ok_bind, hpre]
    · rintro ⟨_ | ⟨b, pre⟩, c, post, s', hl, hpre, hc⟩
      · obtain ⟨rfl, rfl⟩ := List.cons_eq_cons.mp hl
        obtain rfl : s = s' := Except.ok.inj hpre
        rw [hc]
        rfl
      · obtain ⟨rfl, rfl⟩ := List.cons_eq_cons.mp hl
        rw [List.foldlM_cons, bind_eq_ok_iff] at hpre
        obtain ⟨s₁, ha, hpre⟩ := hpre
        rw [ha, ok_bind]
        exact ih.mpr ⟨pre, c, post, s', rfl, hpre, hc⟩

end Loop

/-! ### Failing -/

/-- Every error satisfies `P`. -/
def FailsOnly (P : ε → Prop) (x : Except ε α) : Prop := ∀ e, x = .error e → P e

namespace FailsOnly

variable {P : ε → Prop}

theorem ok (a : α) : FailsOnly P (.ok a) := fun _ h => by cases h

/-- The second of two checks may count on the first. -/
theorem bind {x : Except ε α} {f : α → Except ε β} (hx : FailsOnly P x)
    (hf : ∀ a, x = .ok a → FailsOnly P (f a)) : FailsOnly P (x >>= f) := by
  intro e h
  cases x with
  | error e' =>
    cases h
    exact hx _ rfl
  | ok a => exact hf a rfl e h

theorem orFail {x : Option α} {e : ε} (h : x = none → P e) : FailsOnly P (orFail x e) := by
  intro e' h'
  cases x with
  | none =>
    cases h'
    exact h rfl
  | some a => cases h'

theorem failIf {p : Prop} [Decidable p] {e : ε} (h : p → P e) : FailsOnly P (failIf p e) := by
  intro e' h'
  rw [Fywaf.failIf] at h'
  split at h'
  · next hp =>
    cases h'
    exact h hp
  · cases h'

end FailsOnly

end Fywaf
