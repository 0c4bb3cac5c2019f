import Mathlib.Data.List.Sort
import Mathlib.Data.Char
import Mathlib.Data.List.Lex
import Fywaf.Std.Utf8

/-!
# Maps

`HashMap` and `BTreeMap` as association lists that carry their invariant. A hash map has no key
twice and yields its entries in an order nobody may rely on: `HashOrder` is such an order, chosen
per map, and what depends on an iteration takes one as an argument. An ordered map keeps its
entries sorted by key.

## Main definitions

* `HashMap`, with `insert`, `insertAll` and `get?`
* `lastOf` — the value a sequence of insertions leaves for a key
* `HashOrder` — an iteration order
* `BTreeMap`, with `insert`, `insertAll` and `get?`

## Main results

* `HashMap.get?_insert`, `HashMap.get?_eq_some_iff`
* `HashMap.get?_insertAll`, `BTreeMap.get?_insertAll` — a sequence of insertions, key by key
* `lastOf_eq_some_iff` — without repeated keys the order of the sequence does not matter
-/

namespace Fywaf

variable {κ ν : Type}

/-- `std::collections::HashMap`: entries without a repeated key. -/
structure HashMap (κ ν : Type) where
  /-- The entries, in no particular order. -/
  entries : List (κ × ν)
  /-- No key occurs twice. -/
  nodup : (entries.map Prod.fst).Nodup
  deriving DecidableEq

/-- The last value a sequence of pairs has for a key. -/
def lastOf [DecidableEq κ] (k : κ) : List (κ × ν) → Option ν
  | [] => none
  | e :: l => (lastOf k l).or (if e.1 = k then some e.2 else none)

section LastOf

variable [DecidableEq κ] {k : κ}

@[simp] theorem lastOf_nil : lastOf k ([] : List (κ × ν)) = none := rfl

theorem lastOf_cons (e : κ × ν) (l : List (κ × ν)) :
    lastOf k (e :: l) = (lastOf k l).or (if e.1 = k then some e.2 else none) := rfl

/-- The value of the first insertion is what is left without the others. -/
theorem lastOf_or_ite (e : κ × ν) (l : List (κ × ν)) (x : Option ν) :
    (lastOf k l).or (if k = e.1 then some e.2 else x) = (lastOf k (e :: l)).or x := by
  rw [lastOf_cons, Option.or_assoc]
  by_cases h : k = e.1
  · rw [if_pos h, if_pos h.symm]
    rfl
  · rw [if_neg h, if_neg (Ne.symm h)]
    rfl

theorem lastOf_singleton (k' : κ) (v : ν) :
    lastOf k [(k', v)] = if k' = k then some v else none := rfl

theorem lastOf_append (l m : List (κ × ν)) :
    lastOf k (l ++ m) = (lastOf k m).or (lastOf k l) := by
  induction l with
  | nil => simp
  | cons e l ih => rw [List.cons_append, lastOf_cons, lastOf_cons, ih, Option.or_assoc]

/-- In front of an entry nothing counts for its key. -/
theorem lastOf_append_cons_self (l m : List (κ × ν)) (v : ν) :
    lastOf k (l ++ (k, v) :: m) = (lastOf k m).or (some v) := by
  rw [lastOf_append, lastOf_cons, if_pos rfl, Option.or_assoc]
  cases lastOf k m <;> rfl

theorem lastOf_eq_none_iff {l : List (κ × ν)} : lastOf k l = none ↔ ∀ e ∈ l, e.1 ≠ k := by
  induction l with
  | nil => simp
  | cons e l ih => rw [lastOf_cons, Option.or_eq_none_iff, ih, List.forall_mem_cons, and_comm]; simp

/-- The last value is the value of an entry behind which the key does not occur again. -/
theorem lastOf_eq_some_iff_append {l : List (κ × ν)} {v : ν} :
    lastOf k l = some v ↔ ∃ a b, l = a ++ (k, v) :: b ∧ ∀ e ∈ b, e.1 ≠ k := by
  constructor
  · intro h
    induction l with
    | nil => cases h
    | cons e l ih =>
      rw [lastOf_cons, Option.or_eq_some_iff] at h
      rcases h with h | ⟨hnone, h⟩
      · obtain ⟨a, b, rfl, hb⟩ := ih h
        exact ⟨e :: a, b, rfl, hb⟩
      · obtain ⟨k', v'⟩ := e
        split at h
        · next hk =>
          obtain rfl : k' = k := hk
          obtain rfl := Option.some.inj h
          exact ⟨[], l, rfl, lastOf_eq_none_iff.mp hnone⟩
        · cases h
  · rintro ⟨a, b, rfl, hb⟩
    rw [lastOf_append_cons_self, lastOf_eq_none_iff.mpr hb, Option.none_or]

/-- **Without repeated keys the order does not matter.** -/
theorem lastOf_eq_some_iff {l : List (κ × ν)} (h : (l.map Prod.fst).Nodup) {v : ν} :
    lastOf k l = some v ↔ (k, v) ∈ l := by
  rw [lastOf_eq_some_iff_append]
  constructor
  · rintro ⟨a, b, rfl, -⟩
    simp
  · intro hm
    obtain ⟨a, b, rfl⟩ := List.append_of_mem hm
    refine ⟨a, b, rfl, fun e he hk => ?_⟩
    rw [List.map_append, List.map_cons] at h
    have := (List.nodup_cons.mp (List.nodup_append.mp h).2.1).1
    exact this (List.mem_map.mpr ⟨e, he, hk⟩)

/-- Without repeated keys a key has the one value that is left for it. -/
theorem filterMap_key {l : List (κ × ν)} (h : (l.map Prod.fst).Nodup) :
    (l.filterMap fun e => if e.1 = k then some e.2 else none) = (lastOf k l).toList := by
  induction l with
  | nil => rfl
  | cons e l ih =>
    rw [List.map_cons, List.nodup_cons] at h
    rw [List.filterMap_cons, lastOf_cons, ih h.2]
    by_cases hk : e.1 = k
    · have hnone : lastOf k l = none := lastOf_eq_none_iff.mpr fun e' he' heq =>
        h.1 (List.mem_map.mpr ⟨e', he', heq.trans hk.symm⟩)
      simp only [if_pos hk, hnone]
      rfl
    · simp only [if_neg hk, Option.or_none]

theorem lookup_cons_ite (e : κ × ν) (l : List (κ × ν)) :
    (e :: l).lookup k = if k = e.1 then some e.2 else l.lookup k := by
  rw [List.lookup_cons]
  by_cases h : k = e.1
  · rw [if_pos h, beq_iff_eq.mpr h]
  · rw [if_neg h, beq_eq_false_iff_ne.mpr h]

/-- Without a repeated key a lookup finds exactly the entries. -/
theorem lookup_eq_some_iff {l : List (κ × ν)} (h : (l.map Prod.fst).Nodup) {k : κ} {v : ν} :
    l.lookup k = some v ↔ (k, v) ∈ l := by
  induction l with
  | nil => exact iff_of_false (fun h => by cases h) List.not_mem_nil
  | cons e l ih =>
    rw [List.map_cons, List.nodup_cons] at h
    rw [lookup_cons_ite, List.mem_cons]
    by_cases hk : k = e.1
    · have hnot : (k, v) ∉ l := fun hmem => h.1 (hk ▸ List.mem_map.mpr ⟨_, hmem, rfl⟩)
      rw [if_pos hk, Option.some.injEq, or_iff_left hnot, Prod.ext_iff]
      exact ⟨fun hv => ⟨hk, hv.symm⟩, fun hv => hv.2.symm⟩
    · rw [if_neg hk, ih h.2]
      exact (or_iff_right fun heq => hk (congrArg Prod.fst heq)).symm

end LastOf

namespace HashMap

variable [DecidableEq κ]

/-- `HashMap::new`. -/
def empty : HashMap κ ν := ⟨[], List.nodup_nil⟩

/-- `HashMap::get`. -/
def get? (m : HashMap κ ν) (k : κ) : Option ν := m.entries.lookup k

/-- `HashMap::contains_key`. -/
def containsKey (m : HashMap κ ν) (k : κ) : Bool := (m.get? k).isSome

/-- `HashMap::insert`: the last value of a key wins. -/
def insert (m : HashMap κ ν) (k : κ) (v : ν) : HashMap κ ν where
  entries := (k, v) :: m.entries.filter (·.1 ≠ k)
  nodup := by
    rw [List.map_cons, List.nodup_cons]
    refine ⟨?_, m.nodup.sublist (List.filter_sublist.map _)⟩
    intro h
    obtain ⟨e, he, heq⟩ := List.mem_map.mp h
    have := (List.mem_filter.mp he).2
    simp [heq] at this

@[simp] theorem get?_empty (k : κ) : (empty : HashMap κ ν).get? k = none := rfl

theorem lookup_filter_ne (l : List (κ × ν)) {k k' : κ} (h : k' ≠ k) :
    (l.filter (·.1 ≠ k)).lookup k' = l.lookup k' := by
  induction l with
  | nil => rfl
  | cons e l ih =>
    by_cases he : e.1 = k
    · rw [List.filter_cons_of_neg (by simp [he]), ih, List.lookup_cons,
        show (k' == e.1) = false by simpa [he] using h]
    · rw [List.filter_cons_of_pos (by simp [he]), List.lookup_cons, List.lookup_cons, ih]

theorem get?_insert (m : HashMap κ ν) (k k' : κ) (v : ν) :
    (m.insert k v).get? k' = if k' = k then some v else m.get? k' := by
  by_cases h : k' = k
  · simp [get?, insert, h]
  · rw [if_neg h, get?, insert, List.lookup_cons, show (k' == k) = false by simpa using h]
    exact lookup_filter_ne m.entries h

/-- Insertions one after the other. -/
def insertAll (m : HashMap κ ν) : List (κ × ν) → HashMap κ ν
  | [] => m
  | e :: l => (m.insert e.1 e.2).insertAll l

/-- **A sequence of insertions, key by key**: the last value, else what was there before. -/
theorem get?_insertAll (l : List (κ × ν)) : ∀ (m : HashMap κ ν) (k : κ),
    (m.insertAll l).get? k = (lastOf k l).or (m.get? k) := by
  induction l with
  | nil => intro m k; rfl
  | cons e l ih =>
    intro m k
    rw [insertAll, ih, get?_insert, lastOf_or_ite]

/-- A map that was filled from nothing has the last value of each key. -/
theorem get?_insertAll_empty (l : List (κ × ν)) (k : κ) :
    (empty.insertAll l).get? k = lastOf k l := by
  rw [get?_insertAll, get?_empty, Option.or_none]

/-- A lookup finds exactly the entries. -/
theorem get?_eq_some_iff (m : HashMap κ ν) {k : κ} {v : ν} :
    m.get? k = some v ↔ (k, v) ∈ m.entries := lookup_eq_some_iff m.nodup

end HashMap

/-- An iteration order of hash maps: for each map, its entries in some order. -/
structure HashOrder (κ ν : Type) where
  /-- The entries of a map, as `for` yields them. -/
  iter : HashMap κ ν → List (κ × ν)
  /-- Every entry is yielded once. -/
  perm : ∀ m, (iter m).Perm m.entries

namespace HashOrder

variable (ord : HashOrder κ ν) (m : HashMap κ ν)

theorem mem_iter {e : κ × ν} : e ∈ ord.iter m ↔ e ∈ m.entries := (ord.perm m).mem_iff

theorem nodup_iter : ((ord.iter m).map Prod.fst).Nodup :=
  ((ord.perm m).map Prod.fst).nodup_iff.mpr m.nodup

/-- The order in which the model happens to store a map. -/
def stored : HashOrder κ ν := ⟨HashMap.entries, fun _ => List.Perm.refl _⟩

end HashOrder

/-- `std::collections::BTreeMap`: entries sorted by key, none of them twice. -/
structure BTreeMap (κ ν : Type) [LinearOrder κ] where
  /-- The entries, in key order. -/
  entries : List (κ × ν)
  /-- The keys are strictly increasing. -/
  sorted : entries.Pairwise fun e e' => e.1 < e'.1

namespace BTreeMap

variable {κ : Type} [LinearOrder κ]

/-- `BTreeMap::new`. -/
def empty : BTreeMap κ ν := ⟨[], List.Pairwise.nil⟩

/-- `BTreeMap::get`. -/
def get? (m : BTreeMap κ ν) (k : κ) : Option ν := m.entries.lookup k

/-- `BTreeMap::contains_key`. -/
def containsKey (m : BTreeMap κ ν) (k : κ) : Bool := (m.get? k).isSome

/-- An entry put where it belongs; it replaces an entry of the same key. -/
def insertEntry (k : κ) (v : ν) : List (κ × ν) → List (κ × ν)
  | [] => [(k, v)]
  | e :: l =>
    if k < e.1 then (k, v) :: e :: l
    else if e.1 < k then e :: insertEntry k v l
    else (k, v) :: l

theorem mem_insertEntry {k : κ} {v : ν} {e : κ × ν} {l : List (κ × ν)}
    (h : e ∈ insertEntry k v l) : e = (k, v) ∨ e ∈ l := by
  fun_induction insertEntry k v l with
  | case1 => exact Or.inl (List.mem_singleton.mp h)
  | case2 d l _ => exact List.mem_cons.mp h
  | case3 d l _ _ ih =>
    rcases List.mem_cons.mp h with rfl | h
    · exact Or.inr List.mem_cons_self
    · exact (ih h).imp_right (List.mem_cons_of_mem _)
  | case4 d l _ _ => exact (List.mem_cons.mp h).imp_right (List.mem_cons_of_mem _)

theorem pairwise_insertEntry (k : κ) (v : ν) {l : List (κ × ν)}
    (h : l.Pairwise fun e e' => e.1 < e'.1) :
    (insertEntry k v l).Pairwise fun e e' => e.1 < e'.1 := by
  fun_induction insertEntry k v l with
  | case1 => exact List.pairwise_singleton _ _
  | case2 d l hlt =>
    refine List.pairwise_cons.mpr ⟨fun e he => ?_, h⟩
    rcases List.mem_cons.mp he with rfl | he
    · exact hlt
    · exact hlt.trans ((List.pairwise_cons.mp h).1 e he)
  | case3 d l _ hlt ih =>
    rw [List.pairwise_cons] at h
    refine List.pairwise_cons.mpr ⟨fun e he => ?_, ih h.2⟩
    rcases mem_insertEntry he with rfl | he
    · exact hlt
    · exact h.1 e he
  | case4 d l hle hge =>
    obtain rfl : k = d.1 := le_antisymm (not_lt.mp hge) (not_lt.mp hle)
    rw [List.pairwise_cons] at h ⊢
    exact h

/-- `BTreeMap::insert`: the last value of a key wins. -/
def insert (m : BTreeMap κ ν) (k : κ) (v : ν) : BTreeMap κ ν :=
  ⟨insertEntry k v m.entries, pairwise_insertEntry k v m.sorted⟩

theorem lookup_insertEntry {k k' : κ} {v : ν} (l : List (κ × ν)) :
    (insertEntry k v l).lookup k' = if k' = k then some v else l.lookup k' := by
  fun_induction insertEntry k v l with
  | case1 => rw [lookup_cons_ite]
  | case2 d l _ => rw [lookup_cons_ite]
  | case3 d l _ hlt ih =>
    rw [lookup_cons_ite, lookup_cons_ite, ih]
    by_cases hd : k' = d.1
    · rw [if_pos hd, if_pos hd, if_neg (hd ▸ hlt.ne)]
    · rw [if_neg hd, if_neg hd]
  | case4 d l hle hge =>
    have hk : k = d.1 := le_antisymm (not_lt.mp hge) (not_lt.mp hle)
    rw [lookup_cons_ite, lookup_cons_ite, hk]
    by_cases hd : k' = d.1
    · rw [if_pos hd, if_pos hd]
    · rw [if_neg hd, if_neg hd, if_neg hd]

theorem get?_insert (m : BTreeMap κ ν) (k k' : κ) (v : ν) :
    (m.insert k v).get? k' = if k' = k then some v else m.get? k' := lookup_insertEntry m.entries

/-- Insertions one after the other. -/
def insertAll (m : BTreeMap κ ν) : List (κ × ν) → BTreeMap κ ν
  | [] => m
  | e :: l => (m.insert e.1 e.2).insertAll l

/-- **A sequence of insertions, key by key**: the last value, else what was there before. -/
theorem get?_insertAll (l : List (κ × ν)) : ∀ (m : BTreeMap κ ν) (k : κ),
    (m.insertAll l).get? k = (lastOf k l).or (m.get? k) := by
  induction l with
  | nil => intro m k; rfl
  | cons e l ih =>
    intro m k
    rw [insertAll, ih, get?_insert, lastOf_or_ite]

/-- A lookup finds exactly the entries. -/
theorem get?_eq_some_iff (m : BTreeMap κ ν) {k : κ} {v : ν} :
    m.get? k = some v ↔ (k, v) ∈ m.entries := by
  refine lookup_eq_some_iff ?_
  rw [List.Nodup, List.pairwise_map]
  exact m.sorted.imp fun h => ne_of_lt h

end BTreeMap

end Fywaf
