import Mathlib.Algebra.BigOperators.Group.Finset.Basic
import Mathlib.Algebra.BigOperators.Fin
import Mathlib.Algebra.Order.BigOperators.Group.Finset

/-!
# Forward skips

A sequence of entries is read once. An entry may place a label, or act; an acting entry may jump
forward to a label, and then everything up to that label is passed over, other jumps included. A
reader needs one variable for that, the label it is waiting for.

The same thing said without a reader: an entry acts when it can and when every earlier acting jump
has met its label before it. `actsAt_iff` is the equivalence, and the sums below are what a
reader that accumulates a weight over the acting entries computes.

## Main definitions

* `Skips` — what the entries of a sequence are
* `Skips.Open`, `Skips.Effective` — the reading without a state
* `Skips.next`, `Skips.ActsAt`, `Skips.acting` — the reader
* `Skips.Closed` — entries that leave no jump open
* `Skips.Extends` — a reader that acts more often and jumps alike

## Main results

* `Skips.stateAfter_of_closed` — what is closed leaves nothing to wait for
* `Skips.stateAfter_eq_some_iff` — what the reader is waiting for, in terms of the entries
* `Skips.actsAt_iff` — the reader acts exactly at the effective entries
* `Skips.mem_acting_iff`, `Skips.sum_acting` — accumulating over the acting entries
* `Skips.find?_acting_eq_some_iff` — the first acting entry of a kind
* `Skips.Extends.acting_sublist` — who acts more often acts wherever the other one did
-/

namespace Fywaf

/-- What the entries of a sequence are to a reader that skips. -/
structure Skips (α L : Type) where
  /-- The label an entry places. -/
  label : α → Option L
  /-- The entry acts when it is reached. -/
  fires : α → Bool
  /-- The label an acting entry jumps to. -/
  target : α → Option L

namespace Skips

variable {α L : Type} (S : Skips α L)

/-! ### Open jumps -/

/-- Position `j` jumps to `m`, and `m` has not been placed between `j` and `i`. -/
def Open (l : List α) (i j : ℕ) (m : L) : Prop :=
  (∃ b, l[j]? = some b ∧ S.target b = some m) ∧
    ∀ k, j < k → k < i → ∀ c, l[k]? = some c → S.label c ≠ some m

variable {S} in
theorem Open.of_succ {l : List α} {i j : ℕ} {m : L} (h : S.Open l (i + 1) j m) :
    S.Open l i j m :=
  ⟨h.1, fun k hk hki => h.2 k hk (Nat.lt_succ_of_lt hki)⟩

variable {S} in
theorem Open.succ {l : List α} {i j : ℕ} {m : L} {a : α} (h : S.Open l i j m)
    (ha : l[i]? = some a) (hm : S.label a ≠ some m) : S.Open l (i + 1) j m := by
  refine ⟨h.1, fun k hk hki c hc => ?_⟩
  rcases Nat.lt_succ_iff_lt_or_eq.mp hki with hlt | rfl
  · exact h.2 k hk hlt c hc
  · rw [ha, Option.some.injEq] at hc
    exact hc ▸ hm

variable {S} in
/-- The open jumps behind an entry: the one the entry makes, and those that were open before it and
are not to the label it places. -/
theorem exists_open_succ_iff {l : List α} {i : ℕ} {a : α} (ha : l[i]? = some a) {p : ℕ → Prop}
    {m : L} : (∃ j < i + 1, p j ∧ S.Open l (i + 1) j m) ↔
      (p i ∧ S.target a = some m) ∨ ((∃ j < i, p j ∧ S.Open l i j m) ∧ S.label a ≠ some m) := by
  constructor
  · rintro ⟨j, hj, hp, hopen⟩
    rcases Nat.lt_succ_iff_lt_or_eq.mp hj with hlt | rfl
    · exact Or.inr ⟨⟨j, hlt, hp, hopen.of_succ⟩, hopen.2 i hlt (Nat.lt_succ_self i) a ha⟩
    · obtain ⟨b, hb, hm⟩ := hopen.1
      rw [ha, Option.some.injEq] at hb
      exact Or.inl ⟨hp, hb ▸ hm⟩
  · rintro (⟨hp, hm⟩ | ⟨⟨j, hj, hp, hopen⟩, hlabel⟩)
    · refine ⟨i, Nat.lt_succ_self i, hp, ⟨a, ha, hm⟩, fun k hk hki => ?_⟩
      omega
    · exact ⟨j, Nat.lt_succ_of_lt hj, hp, hopen.succ ha hlabel⟩

/-- The entry at `i` can act, and every earlier effective jump has met its label before `i`. -/
def Effective (l : List α) (i : ℕ) : Prop :=
  (∃ a, l[i]? = some a ∧ S.fires a = true) ∧
    ¬ ∃ j, ∃ _ : j < i, Effective l j ∧ ∃ m, S.Open l i j m
termination_by i

/-! ### The reader -/

variable [DecidableEq L]

/-- The label waited for after an entry, given the one waited for before it. -/
def next : Option L → α → Option L
  | some m, a => if S.label a = some m then none else some m
  | none, a => if S.fires a then S.target a else none

/-- The label waited for after a sequence. -/
def stateAfter (st : Option L) (l : List α) : Option L := l.foldl S.next st

/-- The entries that act, in order. -/
def acting : Option L → List α → List α
  | _, [] => []
  | st, a :: l =>
    if st = none ∧ S.fires a = true then a :: acting (S.next st a) l else acting (S.next st a) l

/-- The reader acts at position `i`. -/
def ActsAt (st : Option L) (l : List α) (i : ℕ) : Prop :=
  S.stateAfter st (l.take i) = none ∧ ∃ a, l[i]? = some a ∧ S.fires a = true

instance (st : Option L) (l : List α) (i : ℕ) : Decidable (S.ActsAt st l i) :=
  decidable_of_iff (S.stateAfter st (l.take i) = none ∧ (l[i]?.any S.fires) = true) <| by
    simp [ActsAt, Option.any_eq_true]

/-- An entry that places no label and jumps nowhere does not change what is waited for. -/
theorem next_of_plain {a : α} (hlabel : S.label a = none) (htarget : S.target a = none)
    (st : Option L) : S.next st a = st := by
  cases st with
  | none => rw [next, htarget, ite_self]
  | some m => rw [next, hlabel, if_neg (Option.some_ne_none m).symm]

theorem stateAfter_take_succ {st : Option L} {l : List α} {i : ℕ} {a : α} (h : l[i]? = some a) :
    S.stateAfter st (l.take (i + 1)) = S.next (S.stateAfter st (l.take i)) a := by
  rw [List.take_add_one, h]
  simp [stateAfter, List.foldl_append]

/-- Behind every entry that jumps is the label that it jumps to. -/
def Closed : List α → Prop
  | [] => True
  | a :: l => (∀ m, S.fires a = true → S.target a = some m → ∃ c ∈ l, S.label c = some m) ∧ Closed l

/-- **Nothing is waited for behind closed entries**, unless it was before them and is not among
them. -/
theorem stateAfter_of_closed {l : List α} (h : S.Closed l) : ∀ {st : Option L},
    (∀ m, st = some m → ∃ c ∈ l, S.label c = some m) → S.stateAfter st l = none := by
  induction l with
  | nil =>
    intro st hst
    refine Option.eq_none_iff_forall_ne_some.mpr fun m hm => ?_
    obtain ⟨c, hc, -⟩ := hst m hm
    cases hc
  | cons a l ih =>
    intro st hst
    refine ih h.2 fun m hm => ?_
    cases st with
    | none =>
      rw [next] at hm
      split at hm
      · next hfires => exact h.1 m hfires hm
      · cases hm
    | some m' =>
      rw [next] at hm
      split at hm
      · cases hm
      · next hlabel =>
        obtain rfl : m' = m := Option.some.inj hm
        obtain ⟨c, hc, hcm⟩ := hst m' rfl
        rcases List.mem_cons.mp hc with rfl | hc
        · exact absurd hcm hlabel
        · exact ⟨c, hc, hcm⟩

/-! ### Waiting, in terms of the entries -/

variable {S}

/-- **What the reader is waiting for**: the label of an acting jump that is still open. -/
theorem stateAfter_eq_some_iff {l : List α} : ∀ {i : ℕ}, i ≤ l.length → ∀ {m : L},
    (S.stateAfter none (l.take i) = some m ↔ ∃ j < i, S.ActsAt none l j ∧ S.Open l i j m) := by
  intro i
  induction i with
  | zero => intro _ m; simp [stateAfter]
  | succ i ih =>
    intro hi m
    obtain ⟨a, ha⟩ : ∃ a, l[i]? = some a := ⟨l[i], List.getElem?_eq_getElem hi⟩
    have hacts : S.ActsAt none l i ↔
        S.stateAfter none (l.take i) = none ∧ S.fires a = true := by simp [ActsAt, ha]
    rw [S.stateAfter_take_succ ha, exists_open_succ_iff ha, ← ih (Nat.le_of_succ_le hi), hacts]
    cases hst : S.stateAfter none (l.take i) with
    | none =>
      -- nothing is waited for, so only a jump from here can be
      rw [next]
      split <;> simp [*]
    | some m' =>
      -- no jump is made while one is waited for, and the label it goes to ends it
      rw [next]
      split
      · next hlabel =>
        refine iff_of_false (fun h => by cases h) ?_
        rintro (⟨⟨h, -⟩, -⟩ | ⟨h, hne⟩)
        · cases h
        · exact hne (hlabel.trans h)
      · next hlabel =>
        rw [Option.some.injEq]
        constructor
        · rintro rfl
          exact Or.inr ⟨rfl, hlabel⟩
        · rintro (⟨⟨h, -⟩, -⟩ | ⟨h, -⟩)
          · cases h
          · exact h

/-- **The reader acts exactly at the effective entries.** -/
theorem actsAt_iff (l : List α) (i : ℕ) : S.ActsAt none l i ↔ S.Effective l i := by
  induction i using Nat.strong_induction_on with
  | _ i ih =>
    rw [Effective, ActsAt, and_comm]
    refine and_congr_right fun ⟨a, ha, _⟩ => ?_
    have hle : i ≤ l.length := Nat.le_of_lt (List.getElem?_eq_some_iff.mp ha).1
    rw [Option.eq_none_iff_forall_ne_some, not_exists]
    simp only [ne_eq, stateAfter_eq_some_iff hle, not_exists]
    constructor
    · rintro h j hj ⟨heff, m, hopen⟩
      exact h m j ⟨hj, (ih j hj).mpr heff, hopen⟩
    · rintro h m j ⟨hj, hact, hopen⟩
      exact h j hj ⟨(ih j hj).mp hact, m, hopen⟩

/-! ### Accumulating over the acting entries -/

theorem actsAt_zero {st : Option L} {a : α} {l : List α} :
    S.ActsAt st (a :: l) 0 ↔ st = none ∧ S.fires a = true := by
  simp [ActsAt, stateAfter]

theorem actsAt_succ {st : Option L} {a : α} {l : List α} {i : ℕ} :
    S.ActsAt st (a :: l) (i + 1) ↔ S.ActsAt (S.next st a) l i := by
  simp [ActsAt, stateAfter]

/-- The acting entries are the entries at the positions where the reader acts. -/
theorem mem_acting_iff {l : List α} : ∀ {st : Option L} {b : α},
    b ∈ S.acting st l ↔ ∃ i, S.ActsAt st l i ∧ l[i]? = some b := by
  induction l with
  | nil => simp [acting, ActsAt]
  | cons a l ih =>
    intro st b
    have hsplit : (∃ i, S.ActsAt st (a :: l) i ∧ (a :: l)[i]? = some b) ↔
        ((st = none ∧ S.fires a = true) ∧ a = b) ∨ b ∈ S.acting (S.next st a) l := by
      rw [ih, ← Nat.or_exists_add_one]
      simp [actsAt_zero, actsAt_succ]
    rw [hsplit, acting]
    split
    · next h => simp [h, eq_comm]
    · next h => simp [h]

/-- Who acts in a sequence and behind it. -/
theorem acting_append {st : Option L} (l l' : List α) :
    S.acting st (l ++ l') = S.acting st l ++ S.acting (S.stateAfter st l) l' := by
  induction l generalizing st with
  | nil => rfl
  | cons a l ih =>
    have hafter : S.stateAfter st (a :: l) = S.stateAfter (S.next st a) l := rfl
    rw [List.cons_append, acting, acting, ih, hafter]
    split
    · rw [List.cons_append]
    · rfl

/-- An entry that is reached with nothing waited for acts when it can. -/
theorem mem_acting_of_stateAfter {st : Option L} {before after : List α} {a : α}
    (hst : S.stateAfter st before = none) (hfires : S.fires a = true) :
    a ∈ S.acting st (before ++ a :: after) := by
  rw [acting_append, hst, acting, if_pos ⟨rfl, hfires⟩]
  exact List.mem_append_right _ List.mem_cons_self

/-- A weight summed along the run is the weight summed over the acting positions. -/
theorem sum_acting (w : α → ℕ) {l : List α} : ∀ {st : Option L},
    ((S.acting st l).map w).sum =
      ∑ i ∈ Finset.range l.length, if S.ActsAt st l i then l[i]?.elim 0 w else 0 := by
  induction l with
  | nil => simp [acting]
  | cons a l ih =>
    intro st
    rw [List.length_cons, Finset.sum_range_succ']
    simp only [actsAt_succ, actsAt_zero, List.getElem?_cons_succ, List.getElem?_cons_zero,
      Option.elim_some]
    rw [← ih, acting]
    split
    · rw [List.map_cons, List.sum_cons, Nat.add_comm]
    · rw [Nat.add_zero]

/-- **The first acting entry of a kind** is the one at the least position. -/
theorem find?_acting_eq_some_iff {p : α → Bool} {b : α} {l : List α} : ∀ {st : Option L},
    (S.acting st l).find? p = some b ↔ ∃ i, S.ActsAt st l i ∧ l[i]? = some b ∧ p b = true ∧
      ∀ j < i, S.ActsAt st l j → ∀ c, l[j]? = some c → p c = false := by
  induction l with
  | nil => simp [acting, ActsAt]
  | cons a l ih =>
    intro st
    -- either the first entry is the one, or it is passed over
    have hsplit : (∃ i, S.ActsAt st (a :: l) i ∧ (a :: l)[i]? = some b ∧ p b = true ∧
        ∀ j < i, S.ActsAt st (a :: l) j → ∀ c, (a :: l)[j]? = some c → p c = false) ↔
        ((st = none ∧ S.fires a = true) ∧ a = b ∧ p b = true) ∨
          ((st = none ∧ S.fires a = true → p a = false) ∧
            (S.acting (S.next st a) l).find? p = some b) := by
      rw [ih, ← Nat.or_exists_add_one]
      simp only [actsAt_zero, actsAt_succ, List.getElem?_cons_zero, List.getElem?_cons_succ,
        Option.some.injEq, Nat.not_lt_zero, false_imp_iff, implies_true, and_true]
      refine or_congr_right ⟨?_, ?_⟩
      · rintro ⟨i, hacts, hb, hp, hbefore⟩
        refine ⟨fun h => hbefore 0 (Nat.succ_pos i) (actsAt_zero.mpr h) a rfl, i, hacts, hb, hp,
          fun j hj hj' c hc => ?_⟩
        exact hbefore (j + 1) (Nat.succ_lt_succ hj) (actsAt_succ.mpr hj') c hc
      · rintro ⟨hfirst, i, hacts, hb, hp, hbefore⟩
        refine ⟨i, hacts, hb, hp, fun j hj hj' c hc => ?_⟩
        cases j with
        | zero => exact Option.some.inj hc ▸ hfirst (actsAt_zero.mp hj')
        | succ j => exact hbefore j (Nat.lt_of_succ_lt_succ hj) (actsAt_succ.mp hj') c hc
    rw [hsplit, acting]
    by_cases hact : st = none ∧ S.fires a = true
    · rw [if_pos hact, List.find?_cons]
      cases hp : p a with
      | true =>
        refine ⟨fun h => Or.inl ⟨hact, Option.some.inj h, Option.some.inj h ▸ hp⟩, ?_⟩
        rintro (⟨-, rfl, -⟩ | ⟨hnot, -⟩)
        · rfl
        · exact Bool.noConfusion (hnot hact)
      | false =>
        refine ⟨fun h => Or.inr ⟨fun _ => rfl, h⟩, ?_⟩
        rintro (⟨-, rfl, hb⟩ | ⟨-, h⟩)
        · rw [hb] at hp
          cases hp
        · exact h
    · simp only [hact, if_false, false_and, false_or, false_imp_iff, true_and]

/-! ### Acting more often -/

/-- On the entries of `l`, the second reader acts whenever the first one does, and the two make the
same jumps. -/
structure Extends (S S' : Skips α L) (l : List α) : Prop where
  label : ∀ a ∈ l, S'.label a = S.label a
  target : ∀ a ∈ l, S'.target a = S.target a
  fires : ∀ a ∈ l, S.fires a = true → S'.fires a = true
  jumps : ∀ a ∈ l, S.target a ≠ none → S'.fires a = S.fires a

namespace Extends

variable {S' : Skips α L} {a : α} {l : List α}

omit [DecidableEq L] in
theorem tail (h : Extends S S' (a :: l)) : Extends S S' l where
  label b hb := h.label b (List.mem_cons_of_mem _ hb)
  target b hb := h.target b (List.mem_cons_of_mem _ hb)
  fires b hb := h.fires b (List.mem_cons_of_mem _ hb)
  jumps b hb := h.jumps b (List.mem_cons_of_mem _ hb)

/-- The two readers wait for the same label. -/
theorem next_eq (h : Extends S S' (a :: l)) (st : Option L) : S'.next st a = S.next st a := by
  have ha : a ∈ a :: l := List.mem_cons_self
  cases st with
  | some m => rw [next, next, h.label a ha]
  | none =>
    rw [next, next, h.target a ha]
    by_cases ht : S.target a = none
    · rw [ht, ite_self, ite_self]
    · rw [h.jumps a ha ht]

/-- **Who acts more often acts wherever the other one did.** -/
theorem acting_sublist {l : List α} : ∀ {st : Option L}, Extends S S' l →
    (S.acting st l).Sublist (S'.acting st l) := by
  induction l with
  | nil => exact fun _ => List.Sublist.refl _
  | cons a l ih =>
    intro st h
    have hrest : (S.acting (S.next st a) l).Sublist (S'.acting (S.next st a) l) := ih h.tail
    rw [acting, acting, h.next_eq]
    by_cases hact : st = none ∧ S.fires a = true
    · rw [if_pos hact, if_pos ⟨hact.1, h.fires a List.mem_cons_self hact.2⟩]
      exact hrest.cons_cons a
    · rw [if_neg hact]
      split
      · exact hrest.cons a
      · exact hrest

end Extends

end Skips

end Fywaf
