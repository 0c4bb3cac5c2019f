import Mathlib.Data.List.Infix
import Mathlib.Data.Nat.Notation

/-!
# Blocks of lines ended by two symbols

A block of lines where each line ends with the same two different symbols, as CR LF in HTTP, and a
blank line ends the block. Cutting at the pair undoes joining with it as long as no line contains
it; and the first blank line is the end of the block as long as no line is empty. Neither fact
asks anything about single occurrences of the two symbols.

A laxer reader ends a line at the second symbol alone and drops the first one before it if it is
there. It sees the same lines exactly when the second symbol never stands alone.

## Main definitions

* `splitPair`, `NoPair`, `joinPair` — cutting at a pair, and joining with it
* `findSub` — the first occurrence of a sequence
* `Paired`, `splitLax` — the second symbol never stands alone; the laxer reader

## Main results

* `splitPair_append` — cutting is done on both sides of a pair independently
* `splitPair_joinPair` — cutting undoes joining
* `findSub_eq_some_iff` — what the first occurrence is
* `findSub_blank_iff` — the first blank line is where the block ends exactly when no line after the
  first is empty
* `splitLax_eq_iff` — when the laxer reader sees the same lines
-/

namespace Fywaf

variable {α : Type} {a b : α}

/-! ### Sequences without the pair -/

/-- The pair does not occur. -/
def NoPair (a b : α) (l : List α) : Prop := ¬ [a, b] <:+: l

instance [DecidableEq α] (l : List α) : Decidable (NoPair a b l) :=
  inferInstanceAs (Decidable (¬ _))

theorem NoPair.of_infix {l m : List α} (h : NoPair a b m) (hl : l <:+: m) : NoPair a b l :=
  fun h' => h (h'.trans hl)

theorem NoPair.of_not_mem {l : List α} (h : b ∉ l) : NoPair a b l :=
  fun h' => h (h'.subset (List.mem_cons_of_mem _ List.mem_cons_self))

theorem noPair_nil : NoPair a b [] := by simp [NoPair]

theorem noPair_singleton (x : α) : NoPair a b [x] := fun h => by
  have := h.length_le
  simp at this

theorem noPair_cons_cons {x y : α} {l : List α} :
    NoPair a b (x :: y :: l) ↔ ¬ (x = a ∧ y = b) ∧ NoPair a b (y :: l) := by
  rw [NoPair, NoPair, List.infix_cons_iff, not_or, List.cons_prefix_cons, List.cons_prefix_cons]
  simp only [List.nil_prefix, and_true]
  exact and_congr_left fun _ => not_congr (and_congr eq_comm eq_comm)

theorem noPair_append_cons {c : α} (hca : c ≠ a) (hcb : c ≠ b) {m : List α} : ∀ {l : List α},
    NoPair a b (l ++ c :: m) ↔ NoPair a b l ∧ NoPair a b m
  | [] => by
    cases m with
    | nil => simp [noPair_nil, noPair_singleton]
    | cons y m => simp [noPair_cons_cons, hca, noPair_nil]
  | [x] => by
    have ih := noPair_append_cons hca hcb (l := []) (m := m)
    rw [List.nil_append] at ih
    rw [List.singleton_append, noPair_cons_cons, ih]
    simp [hcb, noPair_nil, noPair_singleton]
  | x :: y :: l => by
    rw [List.cons_append, List.cons_append, noPair_cons_cons, noPair_cons_cons, ← List.cons_append,
      noPair_append_cons hca hcb, and_assoc]

theorem noPair_cons {c : α} (hca : c ≠ a) (hcb : c ≠ b) {m : List α} :
    NoPair a b (c :: m) ↔ NoPair a b m :=
  (noPair_append_cons hca hcb (l := [])).trans (and_iff_right noPair_nil)

theorem pair_prefix_append_iff {l m : List α} (hab : a ≠ b) (h : NoPair a b l) :
    [a, b] <+: l ++ a :: m ↔ l = [] ∧ [b] <+: m := by
  match l, h with
  | [], _ => simp
  | [x], _ => simp [Ne.symm hab]
  | x :: y :: l, h =>
    have := (noPair_cons_cons.mp h).1
    simp only [List.cons_append, List.cons_prefix_cons, List.nil_prefix, and_true]
    exact ⟨fun h => absurd ⟨h.1.symm, h.2.symm⟩ this, fun h => by cases h.1⟩

/-! ### Joining with the pair -/

/-- Joining with the pair between the pieces. -/
def joinPair (a b : α) (ls : List (List α)) : List α := [a, b].intercalate ls

theorem joinPair_cons_cons (l m : List α) (ls : List (List α)) :
    joinPair a b (l :: m :: ls) = l ++ a :: b :: joinPair a b (m :: ls) := by
  simp [joinPair, List.intercalate]

/-- Lines that are each followed by the pair are joined lines followed by the pair. -/
theorem flatMap_append_pair : ∀ {ls : List (List α)}, ls ≠ [] →
    (ls.flatMap fun l => l ++ [a, b]) = joinPair a b ls ++ [a, b]
  | [], h => absurd rfl h
  | [l], _ => by simp [joinPair, List.intercalate]
  | l :: m :: ls, _ => by
    rw [List.flatMap_cons, flatMap_append_pair (List.cons_ne_nil m ls), joinPair_cons_cons]
    simp

theorem joinPair_singleton (l : List α) : joinPair a b [l] = l := by
  simp [joinPair, List.intercalate]

/-! ### Cutting at the pair -/

variable [DecidableEq α]

/-- `str::split` at the pair `a`, `b`. -/
def splitPair (a b : α) : List α → List (List α)
  | [] => [[]]
  | [x] => [[x]]
  | x :: y :: l =>
    if x = a ∧ y = b then [] :: splitPair a b l
    else (splitPair a b (y :: l)).modifyHead (x :: ·)

theorem splitPair_ne_nil (l : List α) : splitPair a b l ≠ [] := by
  fun_induction splitPair a b l <;> simp_all

theorem splitPair_of_noPair {l : List α} (h : NoPair a b l) : splitPair a b l = [l] := by
  fun_induction splitPair a b l with
  | case1 => rfl
  | case2 x => rfl
  | case3 x y l hxy ih => exact absurd hxy (noPair_cons_cons.mp h).1
  | case4 x y l hxy ih => rw [ih (noPair_cons_cons.mp h).2, List.modifyHead_cons]

/-- **Cutting is done on both sides of a pair independently.** -/
theorem splitPair_append (hab : a ≠ b) (l m : List α) :
    splitPair a b (l ++ a :: b :: m) = splitPair a b l ++ splitPair a b m := by
  fun_induction splitPair a b l with
  | case1 => simp [splitPair]
  | case2 x =>
    have hba : ¬ (x = a ∧ a = b) := fun h => hab h.2
    simp [splitPair, hba]
  | case3 x y l hxy ih =>
    obtain ⟨rfl, rfl⟩ := hxy
    simpa [splitPair] using ih
  | case4 x y l hxy ih =>
    rw [List.cons_append, List.cons_append, splitPair, if_neg hxy, ← List.cons_append, ih]
    obtain ⟨v, vs, hv⟩ := List.exists_cons_of_ne_nil (splitPair_ne_nil (a := a) (b := b) (y :: l))
    rw [hv, List.cons_append, List.modifyHead_cons, List.modifyHead_cons, List.cons_append]

theorem splitPair_cons_noPair (hab : a ≠ b) {l : List α} (h : NoPair a b l) (m : List α) :
    splitPair a b (l ++ a :: b :: m) = l :: splitPair a b m := by
  rw [splitPair_append hab, splitPair_of_noPair h]
  rfl

/-- In front of the first `a` nothing is cut. -/
theorem splitPair_append_left {x : List α} (h : a ∉ x) (m : List α) :
    splitPair a b (x ++ m) = (splitPair a b m).modifyHead (x ++ ·) := by
  obtain ⟨v, vs, hv⟩ := List.exists_cons_of_ne_nil (splitPair_ne_nil (a := a) (b := b) m)
  rw [hv, List.modifyHead_cons]
  induction x with
  | nil => exact hv
  | cons y x ih =>
    rw [List.mem_cons, not_or] at h
    have ih := ih h.2
    have hcut : splitPair a b (y :: (x ++ m)) =
        (splitPair a b (x ++ m)).modifyHead (y :: ·) := by
      cases hxm : x ++ m with
      | nil => rfl
      | cons z l => rw [splitPair, if_neg fun h' => h.1 h'.1.symm]
    rw [List.cons_append, hcut, ih, List.modifyHead_cons, List.cons_append]

/-- Joined sequences are cut one by one. -/
theorem splitPair_joinPair_flatMap (hab : a ≠ b) : ∀ {ls : List (List α)}, ls ≠ [] →
    splitPair a b (joinPair a b ls) = ls.flatMap (splitPair a b)
  | [], h => absurd rfl h
  | [l], _ => by rw [joinPair_singleton, List.flatMap_singleton]
  | l :: m :: ls, _ => by
    rw [joinPair_cons_cons, splitPair_append hab,
      splitPair_joinPair_flatMap hab (List.cons_ne_nil m ls)]
    rfl

/-- A piece does not contain the pair. -/
theorem noPair_of_mem_splitPair {l x : List α} (h : x ∈ splitPair a b l) : NoPair a b x := by
  fun_induction splitPair a b l generalizing x with
  | case1 => rw [List.mem_singleton.mp h]; exact noPair_nil
  | case2 y => rw [List.mem_singleton.mp h]; exact noPair_singleton y
  | case3 y z l hyz ih =>
    rcases List.mem_cons.mp h with rfl | h
    · exact noPair_nil
    · exact ih h
  | case4 y z l hyz ih =>
    obtain ⟨v, vs, hv⟩ := List.exists_cons_of_ne_nil (splitPair_ne_nil (a := a) (b := b) (z :: l))
    rw [hv, List.modifyHead_cons, List.mem_cons] at h
    rcases h with rfl | h
    · have hvn := ih (by rw [hv]; exact List.mem_cons_self)
      -- the first piece starts where the rest starts, or is empty before a pair
      cases v with
      | nil => exact noPair_singleton y
      | cons w v =>
        have hw : w = z := by
          cases l with
          | nil => rw [splitPair] at hv; cases hv; rfl
          | cons u l =>
            rw [splitPair] at hv
            split at hv
            · cases hv
            · obtain ⟨q, qs, hq⟩ :=
                List.exists_cons_of_ne_nil (splitPair_ne_nil (a := a) (b := b) (u :: l))
              rw [hq, List.modifyHead_cons] at hv
              cases hv
              rfl
        subst hw
        exact noPair_cons_cons.mpr ⟨hyz, hvn⟩
    · exact ih (by rw [hv]; exact List.mem_cons_of_mem _ h)

/-- The pieces joined again give the sequence. -/
theorem joinPair_splitPair (l : List α) : joinPair a b (splitPair a b l) = l := by
  fun_induction splitPair a b l with
  | case1 => exact joinPair_singleton _
  | case2 x => exact joinPair_singleton _
  | case3 x y l hxy ih =>
    obtain ⟨v, vs, hv⟩ := List.exists_cons_of_ne_nil (splitPair_ne_nil (a := a) (b := b) l)
    rw [hv] at ih ⊢
    rw [joinPair_cons_cons, ih, hxy.1, hxy.2]
    rfl
  | case4 x y l hxy ih =>
    obtain ⟨v, vs, hv⟩ := List.exists_cons_of_ne_nil (splitPair_ne_nil (a := a) (b := b) (y :: l))
    rw [hv] at ih ⊢
    rw [List.modifyHead_cons]
    cases vs with
    | nil => rw [joinPair_singleton] at ih ⊢; rw [ih]
    | cons w vs => rw [joinPair_cons_cons] at ih ⊢; rw [List.cons_append, ih]

/-- **Cutting undoes joining** when no line contains the pair. -/
theorem splitPair_joinPair (hab : a ≠ b) : ∀ {ls : List (List α)}, ls ≠ [] →
    (∀ l ∈ ls, NoPair a b l) → splitPair a b (joinPair a b ls) = ls
  | [], h, _ => absurd rfl h
  | [l], _, h => by rw [joinPair_singleton, splitPair_of_noPair (h l List.mem_cons_self)]
  | l :: m :: ls, _, h => by
    rw [joinPair_cons_cons, splitPair_cons_noPair hab (h l List.mem_cons_self),
      splitPair_joinPair hab (List.cons_ne_nil m ls) fun x hx => h x (List.mem_cons_of_mem _ hx)]

/-! ### The first occurrence of a sequence -/

/-- The position of the first occurrence of `pat`. -/
def findSub (pat : List α) : List α → Option ℕ
  | [] => if pat = [] then some 0 else none
  | x :: l => if pat <+: x :: l then some 0 else (findSub pat l).map (· + 1)

/-- **The first occurrence**: it is one, and there is none before its last symbol. -/
theorem findSub_eq_some_iff {pat l : List α} {i : ℕ} : findSub pat l = some i ↔
    pat <+: l.drop i ∧ i ≤ l.length ∧ ∀ j < i, ¬ pat <+: l.drop j := by
  fun_induction findSub pat l generalizing i with
  | case1 hp =>
    rw [Option.some.injEq]
    constructor
    · rintro rfl
      exact ⟨by rw [hp]; exact List.nil_prefix, Nat.le_refl _,
        fun j hj => absurd hj (Nat.not_lt_zero j)⟩
    · rintro ⟨-, hi, -⟩
      exact (Nat.le_zero.mp hi).symm
  | case2 hp =>
    constructor
    · intro h; cases h
    · rintro ⟨h, -, -⟩
      rw [List.drop_nil, List.prefix_nil] at h
      exact absurd h hp
  | case3 x l hp =>
    rw [Option.some.injEq]
    constructor
    · rintro rfl
      exact ⟨hp, Nat.zero_le _, fun j hj => absurd hj (Nat.not_lt_zero j)⟩
    · rintro ⟨-, -, hmin⟩
      by_contra hne
      exact hmin 0 (Nat.pos_of_ne_zero (Ne.symm hne)) hp
  | case4 x l hp ih =>
    rw [Option.map_eq_some_iff]
    constructor
    · rintro ⟨i, hi, rfl⟩
      obtain ⟨hat, hle, hmin⟩ := ih.mp hi
      refine ⟨hat, Nat.succ_le_succ hle, fun j hj => ?_⟩
      cases j with
      | zero => exact hp
      | succ j => exact hmin j (Nat.lt_of_succ_lt_succ hj)
    · rintro ⟨hat, hle, hmin⟩
      cases i with
      | zero => exact absurd hat hp
      | succ i =>
        exact ⟨i, ih.mpr ⟨hat, Nat.le_of_succ_le_succ hle,
          fun j hj => hmin (j + 1) (Nat.succ_lt_succ hj)⟩, rfl⟩

/-- The occurrence that was found cuts the sequence. -/
theorem eq_of_findSub {pat l : List α} {i : ℕ} (h : findSub pat l = some i) :
    l = l.take i ++ pat ++ l.drop (i + pat.length) := by
  obtain ⟨⟨r, hr⟩, -, -⟩ := findSub_eq_some_iff.mp h
  rw [← List.drop_drop, ← hr, List.drop_left, List.append_assoc, hr, List.take_append_drop]

/-- More input does not move the first occurrence. -/
theorem findSub_append_of_some {pat l : List α} {i : ℕ} (h : findSub pat l = some i)
    (m : List α) : findSub pat (l ++ m) = some i := by
  have hcut := congrArg List.length (eq_of_findSub h)
  rw [findSub_eq_some_iff] at h ⊢
  obtain ⟨hat, hle, hmin⟩ := h
  rw [List.length_append, List.length_append, List.length_take, List.length_drop,
    Nat.min_eq_left hle] at hcut
  refine ⟨?_, by rw [List.length_append]; omega, fun j hj hpre => hmin j hj ?_⟩
  · rw [List.drop_append_of_le_length hle]
    exact hat.trans (List.prefix_append _ _)
  · rw [List.drop_append_of_le_length (by omega)] at hpre
    refine List.prefix_of_prefix_length_le hpre (List.prefix_append _ _) ?_
    rw [List.length_drop]
    have := hat.length_le
    rw [List.length_drop] at this
    omega

/-- Input that reaches past the first occurrence contains it at the same place. -/
theorem findSub_of_append {pat l m : List α} {i : ℕ} (h : findSub pat (l ++ m) = some i)
    (hlen : i + pat.length ≤ l.length) : findSub pat l = some i := by
  rw [findSub_eq_some_iff] at h ⊢
  obtain ⟨hat, -, hmin⟩ := h
  refine ⟨?_, by omega, fun j hj hpre => hmin j hj ?_⟩
  · rw [List.drop_append_of_le_length (by omega)] at hat
    refine List.prefix_of_prefix_length_le hat (List.prefix_append _ _) ?_
    rw [List.length_drop]
    omega
  · rw [List.drop_append_of_le_length (by omega)]
    exact hpre.trans (List.prefix_append _ _)

theorem findSub_append_iff {pat l m : List α} {i : ℕ} (h : findSub pat (l ++ m) = some i) :
    (∃ j, findSub pat l = some j) ↔ i + pat.length ≤ l.length := by
  constructor
  · rintro ⟨j, hj⟩
    have hij : i = j := Option.some.inj (h.symm.trans (findSub_append_of_some hj m))
    subst hij
    have := congrArg List.length (eq_of_findSub hj)
    have hle := (findSub_eq_some_iff.mp hj).2.1
    rw [List.length_append, List.length_append, List.length_take, Nat.min_eq_left hle] at this
    omega
  · exact fun hlen => ⟨i, findSub_of_append h hlen⟩

/-! ### The end of a block -/

/-- One line of a block: the blank line is behind it, or further on. -/
theorem findSub_blank_cons (hab : a ≠ b) {l : List α} (h : NoPair a b l) (m : List α) :
    findSub [a, b, a, b] (l ++ a :: b :: m) =
      if [a, b] <+: m then some l.length
      else (findSub [a, b, a, b] m).map (· + (l.length + 2)) := by
  have hback : ¬ [a, b, a, b] <+: b :: m := fun hp => hab (List.cons_prefix_cons.mp hp).1
  induction l with
  | nil =>
    rw [List.nil_append, findSub, findSub, if_neg hback]
    by_cases hm : [a, b] <+: m
    · rw [if_pos (by simpa using hm), if_pos hm]; rfl
    · rw [if_neg (by simpa using hm), if_neg hm, Option.map_map]; rfl
  | cons x l ih =>
    have hfront : ¬ [a, b, a, b] <+: x :: (l ++ a :: b :: m) := fun hp => by
      have hp : [a, b] <+: (x :: l) ++ a :: b :: m :=
        (List.prefix_append [a, b] [a, b]).trans hp
      exact absurd ((pair_prefix_append_iff hab h).mp hp).1 (List.cons_ne_nil x l)
    rw [List.cons_append, findSub, if_neg hfront, ih (h.of_infix (List.suffix_cons x l).isInfix)]
    split
    · rfl
    · rw [Option.map_map, List.length_cons]
      exact congrArg (Option.map · _) (funext fun n => by simp only [Function.comp_apply]; omega)

/-- **The end of a block**: the first blank line is the one that ends the block exactly when no
line after the first is empty. -/
theorem findSub_blank_iff (hab : a ≠ b) (rest : List α) : ∀ {ls : List (List α)}, ls ≠ [] →
    (∀ l ∈ ls, NoPair a b l) →
    (findSub [a, b, a, b] (joinPair a b ls ++ a :: b :: a :: b :: rest) =
      some (joinPair a b ls).length ↔ ∀ l ∈ ls.tail, l ≠ [])
  | [], hne, _ => absurd rfl hne
  | [l], _, h => by
    rw [joinPair_singleton, findSub_blank_cons hab (h l List.mem_cons_self), if_pos (by simp)]
    simp
  | l :: m :: ls, _, h => by
    have hm := h m (List.mem_cons_of_mem _ List.mem_cons_self)
    have hls : ∀ x ∈ m :: ls, NoPair a b x := fun x hx => h x (List.mem_cons_of_mem _ hx)
    have ih := findSub_blank_iff hab rest (List.cons_ne_nil m ls) hls
    -- the next line is empty exactly when a pair stands there
    have hblank : [a, b] <+: joinPair a b (m :: ls) ++ a :: b :: a :: b :: rest ↔ m = [] := by
      cases ls with
      | nil => rw [joinPair_singleton, pair_prefix_append_iff hab hm]; simp
      | cons m' ls =>
        rw [joinPair_cons_cons, List.append_assoc, List.cons_append,
          pair_prefix_append_iff hab hm]
        simp
    rw [joinPair_cons_cons, List.append_assoc, List.cons_append, List.cons_append,
      findSub_blank_cons hab (h l List.mem_cons_self), List.tail_cons, List.forall_mem_cons]
    by_cases hnil : m = []
    · rw [if_pos (hblank.mpr hnil)]
      simp [hnil]
    · rw [List.tail_cons] at ih
      rw [if_neg (mt hblank.mp hnil), ← ih]
      simp only [Option.map_eq_some_iff, hnil, ne_eq, not_false_eq_true, true_and,
        List.length_append, List.length_cons]
      constructor
      · rintro ⟨n, hn, heq⟩
        rw [hn, Option.some.injEq]
        omega
      · intro hn
        exact ⟨_, hn, by omega⟩

/-! ### The second symbol alone -/

/-- In front of every `b` stands an `a`; `prev` is what stands in front of the sequence. -/
def PairedAfter (a b : α) : Option α → List α → Prop
  | _, [] => True
  | prev, x :: l => (x = b → prev = some a) ∧ PairedAfter a b (some x) l

/-- In front of every `b` stands an `a`. -/
def Paired (a b : α) (l : List α) : Prop := PairedAfter a b none l

instance pairedAfterDecidable : ∀ (prev : Option α) (l : List α),
    Decidable (PairedAfter a b prev l)
  | _, [] => isTrue trivial
  | _, x :: l =>
    haveI := pairedAfterDecidable (some x) l
    inferInstanceAs (Decidable (_ ∧ _))

instance (l : List α) : Decidable (Paired a b l) :=
  inferInstanceAs (Decidable (PairedAfter _ _ _ _))

omit [DecidableEq α] in
theorem pairedAfter_of_not_mem {l : List α} : ∀ {prev : Option α}, b ∉ l →
    PairedAfter a b prev l := by
  induction l with
  | nil => exact fun _ => trivial
  | cons x l ih =>
    intro prev h
    rw [List.mem_cons, not_or] at h
    exact ⟨fun hx => absurd hx.symm h.1, ih h.2⟩

omit [DecidableEq α] in
/-- What stands in front of a sequence matters only when it is an `a`. -/
theorem pairedAfter_some_iff {c : α} (hca : c ≠ a) {l : List α} :
    PairedAfter a b (some c) l ↔ Paired a b l := by
  cases l with
  | nil => exact Iff.rfl
  | cons x l => simp [Paired, PairedAfter, hca]

omit [DecidableEq α] in
/-- A symbol that is neither cuts the condition in two. -/
theorem pairedAfter_append_cons {c : α} (hca : c ≠ a) (hcb : c ≠ b) {m : List α} (l : List α) :
    ∀ {prev : Option α}, PairedAfter a b prev (l ++ c :: m) ↔
      PairedAfter a b prev l ∧ Paired a b m := by
  induction l with
  | nil => intro prev; simp [PairedAfter, hcb, pairedAfter_some_iff hca]
  | cons x l ih =>
    intro prev
    rw [List.cons_append, PairedAfter, PairedAfter, ih, and_assoc]

omit [DecidableEq α] in
theorem paired_append_cons {c : α} (hca : c ≠ a) (hcb : c ≠ b) {l m : List α} :
    Paired a b (l ++ c :: m) ↔ Paired a b l ∧ Paired a b m :=
  pairedAfter_append_cons hca hcb l

omit [DecidableEq α] in
theorem paired_cons {c : α} (hca : c ≠ a) (hcb : c ≠ b) {m : List α} :
    Paired a b (c :: m) ↔ Paired a b m :=
  (paired_append_cons hca hcb (l := [])).trans (and_iff_right trivial)

/-- A `b` is never alone exactly when cutting at the pair removes them all. -/
theorem paired_iff_pieces (hab : a ≠ b) (l : List α) :
    Paired a b l ↔ ∀ p ∈ splitPair a b l, b ∉ p := by
  fun_induction splitPair a b l with
  | case1 => simp [Paired, PairedAfter]
  | case2 x => simp [Paired, PairedAfter, eq_comm]
  | case3 x y l hxy ih =>
    obtain ⟨rfl, rfl⟩ := hxy
    have hback := pairedAfter_some_iff (b := y) (Ne.symm hab) (l := l)
    simp [Paired, PairedAfter, hab, hback, ← ih]
  | case4 x y l hxy ih =>
    obtain ⟨v, vs, hv⟩ := List.exists_cons_of_ne_nil (splitPair_ne_nil (a := a) (b := b) (y :: l))
    rw [hv, List.forall_mem_cons] at ih
    have hfront : Paired a b (x :: y :: l) ↔ x ≠ b ∧ Paired a b (y :: l) := by
      simp only [Paired, PairedAfter, reduceCtorEq, imp_false, Option.some.injEq]
      refine and_congr_right fun _ => and_congr_left fun _ => ?_
      exact ⟨fun h hy => hxy ⟨h hy, hy⟩, fun h hy => absurd hy h⟩
    rw [hv, List.modifyHead_cons, List.forall_mem_cons, hfront, ih, List.mem_cons, not_or,
      and_assoc]
    exact and_congr_left fun _ => ne_comm

/-- One last symbol taken off, when it is `c`. -/
def chomp (c : α) (l : List α) : List α := if l.getLast? = some c then l.dropLast else l

theorem chomp_append_singleton (c : α) (l : List α) : chomp c (l ++ [c]) = l := by
  simp [chomp]

theorem mem_of_mem_chomp {c x : α} {l : List α} (h : x ∈ chomp c l) : x ∈ l := by
  rw [chomp] at h
  split at h
  · exact List.mem_of_mem_dropLast h
  · exact h

/-- The laxer reader: a line ends at `b`, and an `a` before it is dropped. -/
def splitLax (a b : α) (l : List α) : List (List α) := (l.splitOn b).map (chomp a)

omit [DecidableEq α] in
/-- A piece holds no separator. -/
theorem not_of_mem_splitOnP {p : α → Bool} {s w : List α} (h : w ∈ s.splitOnP p) :
    ∀ c ∈ w, p c = false := by
  induction s generalizing w with
  | nil => rw [List.splitOnP_nil, List.mem_singleton] at h; simp [h]
  | cons c s ih =>
    rw [List.splitOnP_cons_eq_if_modifyHead] at h
    obtain ⟨v, vs, hv⟩ := List.exists_cons_of_ne_nil (List.splitOnP_ne_nil p s)
    split at h
    · rcases List.mem_cons.mp h with rfl | h
      · simp
      · exact ih h
    · next hc =>
      rw [hv, List.modifyHead_cons, List.mem_cons] at h
      rcases h with rfl | h
      · intro d hd
        rcases List.mem_cons.mp hd with rfl | hd
        · exact eq_false_of_ne_true hc
        · exact ih (by rw [hv]; exact List.mem_cons_self) d hd
      · exact ih (by rw [hv]; exact List.mem_cons_of_mem _ h)

theorem splitLax_append (l m : List α) : splitLax a b (l ++ a :: b :: m) =
    ((l ++ [a]).splitOn b).map (chomp a) ++ splitLax a b m := by
  rw [splitLax, List.append_cons, List.splitOn_append_cons_self, List.map_append]
  rfl

/-- Lines without the second symbol are the laxer reader's lines. -/
theorem splitLax_of_pieces (hab : a ≠ b) : ∀ {ls : List (List α)}, (∀ l ∈ ls, b ∉ l) →
    splitLax a b (joinPair a b (ls ++ [[]])) = ls ++ [[]]
  | [], _ => by simp [splitLax, joinPair_singleton, chomp]
  | l :: ls, h => by
    obtain ⟨m, ms, hm⟩ := List.exists_cons_of_ne_nil (List.append_ne_nil_of_right_ne_nil ls
      (List.cons_ne_nil ([] : List α) []))
    have hl : b ∉ l ++ [a] := by
      rw [List.mem_append, List.mem_singleton, not_or]
      exact ⟨h l List.mem_cons_self, Ne.symm hab⟩
    rw [List.cons_append, hm, joinPair_cons_cons, splitLax_append, List.splitOn_eq_singleton hl,
      List.map_singleton, chomp_append_singleton, ← hm,
      splitLax_of_pieces hab fun x hx => h x (List.mem_cons_of_mem _ hx)]
    rfl

/-- **The laxer reader sees the same lines exactly when no `b` is alone**, in a block whose last
line is ended. -/
theorem splitLax_eq_iff (hab : a ≠ b) (l : List α) :
    splitLax a b (l ++ [a, b]) = splitPair a b (l ++ [a, b]) ↔ ∀ p ∈ splitPair a b l, b ∉ p := by
  have hsplit : splitPair a b (l ++ [a, b]) = splitPair a b l ++ [[]] := splitPair_append hab l []
  rw [hsplit]
  constructor
  · intro h p hp
    have hmem : p ∈ splitLax a b (l ++ [a, b]) := h ▸ List.mem_append_left _ hp
    obtain ⟨q, hq, rfl⟩ := List.mem_map.mp hmem
    intro hb
    have := not_of_mem_splitOnP hq b (mem_of_mem_chomp hb)
    simp at this
  · intro h
    rw [← joinPair_splitPair (a := a) (b := b) (l ++ [a, b]), hsplit, splitLax_of_pieces hab h]

end Fywaf
