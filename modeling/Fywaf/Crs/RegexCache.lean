import Fywaf.Crs.Operators
import Fywaf.Std.Memo

/-!
# The regex cache

Compiled patterns are kept in a static map, shared by all rules and all requests. The static comes
in two builds: a cell that holds the map from the start, and on the host a lock around a map that
the first call puts in place. Each call has the map to itself, so a history is a list of calls.

## Main definitions

* `Crs.RegexCache`, `Crs.CacheStatic` — the map and the two statics that hold it
* `Crs.rxMatchCached` — `rx_match` with the map it reads and writes
* `Crs.matchesCached` — `matches`, which passes the static on

## Main results

* `Crs.cachedMatch_spec` — a call answers by its own pattern and keeps the entries right
* `Crs.matchesCached_spec` — so does an operator
* `Crs.rxMatch_transparent` — in every history each call is answered as by a fresh compilation
-/

namespace Fywaf

namespace Crs

/-- `BTreeMap<String, Regex>`: what has been compiled, by pattern. -/
abbrev RegexCache := BTreeMap Str (Str → Bool)

/-- A static that holds the map, and `with_cache`, which runs a closure on it. -/
structure CacheStatic where
  /-- What the static holds. -/
  Cell : Type
  /-- What it holds before the first call. -/
  init : Cell
  /-- The map that a closure finds. -/
  content : Cell → RegexCache
  /-- The static after the closure has left a map behind. -/
  store : RegexCache → Cell
  content_init : content init = .empty
  content_store : ∀ cache, content (store cache) = cache

/-- The cell of the guest. -/
def wasmStatic : CacheStatic where
  Cell := RegexCache
  init := .empty
  content := id
  store := id
  content_init := rfl
  content_store _ := rfl

/-- The lock of the host, empty until `get_or_init` fills it. -/
def hostStatic : CacheStatic where
  Cell := Option RegexCache
  init := none
  content cell := cell.getD .empty
  store := some
  content_init := rfl
  content_store _ := rfl

/-- `with_cache`: the closure has the map to itself while it runs. -/
def CacheStatic.withCache (S : CacheStatic) (f : RegexCache → Bool × RegexCache) (cell : S.Cell) :
    Bool × S.Cell :=
  ((f (S.content cell)).1, S.store (f (S.content cell)).2)

section Cached

variable (regex : RegexNew)

/-- The lookup that ends a call: no entry, no match. -/
def lookupMatch (cache : RegexCache) (pattern value : Str) : Bool :=
  ((cache.get? pattern).map fun re => re value).getD false

/-- The closure of `rx_match`. -/
def cachedMatch (pattern value : Str) (cache : RegexCache) : Bool × RegexCache :=
  if cache.containsKey pattern then (lookupMatch cache pattern value, cache)
  else
    match regex pattern with
    | some re =>
      let cache := cache.insert pattern re
      (lookupMatch cache pattern value, cache)
    -- an unparseable pattern is not remembered
    | none => (false, cache)

variable (S : CacheStatic)

/-- `rx_match` with the static it goes through. -/
def rxMatchCached (cell : S.Cell) (pattern value : Str) : Bool × S.Cell :=
  S.withCache (cachedMatch regex pattern value) cell

/-- `matches` with the static: only `@rx` uses it. -/
def matchesCached : Operator → Str → S.Cell → Bool × S.Cell
  | .rx pattern, value, cell => rxMatchCached regex S cell pattern value
  | .negated inner, value, cell =>
    let r := matchesCached inner value cell
    (!r.1, r.2)
  | op, value, cell => (operatorMatches regex op value, cell)

end Cached

/-! ### Every entry is the compilation of its key -/

variable {regex : RegexNew}

/-- **One call**: it answers by its own pattern, and the entries stay compilations of their
keys. -/
theorem cachedMatch_spec {cache : RegexCache} (h : Coherent regex cache) (pattern value : Str) :
    (cachedMatch regex pattern value cache).1 = rxMatch regex pattern value ∧
      Coherent regex (cachedMatch regex pattern value cache).2 := by
  unfold cachedMatch
  by_cases hkey : cache.containsKey pattern = true
  · rw [if_pos hkey]
    refine ⟨?_, h⟩
    obtain ⟨re, hre⟩ := Option.isSome_iff_exists.mp hkey
    rw [lookupMatch, rxMatch, hre, h pattern re hre]
    rfl
  · rw [if_neg hkey, rxMatch]
    cases hre : regex pattern with
    | none => exact ⟨rfl, h⟩
    | some re =>
      refine ⟨?_, h.insert hre⟩
      show lookupMatch (cache.insert pattern re) pattern value = re value
      rw [lookupMatch, BTreeMap.get?_insert, if_pos rfl]
      rfl

variable {S : CacheStatic}

/-- The invariant, of a static: what it holds is right. -/
def CacheStatic.Valid (S : CacheStatic) (regex : RegexNew) (cell : S.Cell) : Prop :=
  Coherent regex (S.content cell)

theorem CacheStatic.valid_init : S.Valid regex S.init := by
  rw [CacheStatic.Valid, S.content_init]
  exact coherent_empty

theorem rxMatchCached_spec {cell : S.Cell} (h : S.Valid regex cell) (pattern value : Str) :
    (rxMatchCached regex S cell pattern value).1 = rxMatch regex pattern value ∧
      S.Valid regex (rxMatchCached regex S cell pattern value).2 := by
  obtain ⟨hanswer, hkept⟩ := cachedMatch_spec h pattern value
  refine ⟨hanswer, ?_⟩
  rw [CacheStatic.Valid, rxMatchCached, CacheStatic.withCache, S.content_store]
  exact hkept

/-- **An operator** answers with the cache as without it. -/
theorem matchesCached_spec (op : Operator) (value : Str) {cell : S.Cell}
    (h : S.Valid regex cell) :
    (matchesCached regex S op value cell).1 = operatorMatches regex op value ∧
      S.Valid regex (matchesCached regex S op value cell).2 := by
  induction op with
  | rx pattern =>
    rw [matchesCached, operatorMatches]
    exact rxMatchCached_spec h pattern value
  | negated inner ih =>
    obtain ⟨hanswer, hkept⟩ := ih
    rw [matchesCached, operatorMatches, ← hanswer]
    exact ⟨rfl, hkept⟩
  | _ => exact ⟨rfl, h⟩

/-! ### Histories -/

/-- **The cache is transparent**: whatever calls came before, in the guest and on the host, a call
is answered as by compiling its pattern afresh. -/
theorem rxMatch_transparent (regex : RegexNew) (S : CacheStatic) (calls : List (Str × Str)) :
    answers (fun cell call => rxMatchCached regex S cell call.1 call.2) S.init calls =
      calls.map fun call => rxMatch regex call.1 call.2 :=
  have hask : ∀ (cell : S.Cell) (call : Str × Str), S.Valid regex cell →
      (rxMatchCached regex S cell call.1 call.2).1 = rxMatch regex call.1 call.2 ∧
        S.Valid regex (rxMatchCached regex S cell call.1 call.2).2 :=
    fun _ call h => rxMatchCached_spec h call.1 call.2
  answers_eq_map hask calls S.init CacheStatic.valid_init

end Crs

end Fywaf
