import Fywaf.Proxy.Forward
import Fywaf.Proxy.UpstreamUrl
import Fywaf.Std.Slices

/-!
# Rewriting the path

The path of a request is put behind the base path of the upstream. Two cases are special, a base
that is a slash and a target that is one, and the second is looked for in the target with its
query, while the engine sees path and query apart. Nor is the base path as normal as the first
case expects: only one slash is dropped at its end.

## Main definitions

* `Proxy.CommutesWithQuery` — the path is rewritten alike with a query and without
* `Proxy.EndsInSlashes` — the URL has two slashes at the end of its path
* `Proxy.Normalised` — what is printed of an upstream is read back, and the base path can be joined

## Main results

* `Proxy.commutesWithQuery_iff` — exactly when the query makes no difference
* `Proxy.normalised_iff` — exactly which URLs make a normal base path
-/

namespace Fywaf

namespace Proxy

/-! ### The query -/

/-- With a query or without, the same path is sent, and the query that is sent is the one that the
engine was given. -/
structure CommutesWithQuery (basePath p q : Str) : Prop where
  merge : mergeUpstreamPath basePath (p ++ '?' :: q) = mergeUpstreamPath basePath p ++ '?' :: q
  split : splitPathAndQuery (mergeUpstreamPath basePath (p ++ '?' :: q)) =
    (mergeUpstreamPath basePath p, (splitPathAndQuery (p ++ '?' :: q)).2)

section Query

variable {basePath p q : Str}

/-- The target with a slash in front. -/
def absolutePath (t : Str) : Str := if t.head? = some '/' then t else '/' :: t

theorem absolutePath_eq_slash_iff {t : Str} : absolutePath t = ['/'] ↔ t = [] ∨ t = ['/'] := by
  rw [absolutePath]
  split
  · next hslash =>
    refine (or_iff_right ?_).symm
    rintro rfl
    cases hslash
  · next hslash =>
    rw [List.cons_eq_cons]
    constructor
    · exact fun h => Or.inl h.2
    · rintro (rfl | rfl)
      · exact ⟨rfl, rfl⟩
      · exact absurd rfl hslash

/-- A query does not make a target absolute. -/
theorem absolutePath_query (p q : Str) :
    absolutePath (p ++ '?' :: q) = absolutePath p ++ '?' :: q := by
  cases p with
  | nil => rfl
  | cons c p =>
    rw [absolutePath, absolutePath, List.cons_append, List.head?_cons, List.head?_cons,
      apply_ite (· ++ '?' :: q)]
    rfl

/-- **The path that is sent**: a target that is at most a slash is nothing behind a base path. -/
theorem mergeUpstreamPath_eq (basePath t : Str) : mergeUpstreamPath basePath t =
    if basePath = ['/'] then absolutePath t
    else if t = [] ∨ t = ['/'] then basePath
    else basePath ++ absolutePath t := by
  rw [← if_congr absolutePath_eq_slash_iff rfl rfl]
  rfl

theorem splitPathAndQuery_append (hp : '?' ∉ p) (q : Str) :
    splitPathAndQuery (p ++ '?' :: q) = (p, some q) := by
  rw [splitPathAndQuery, splitOnce_append hp]

/-- The path that is sent has no question mark of its own. -/
theorem notMem_mergeUpstreamPath (hbase : '?' ∉ basePath) (hp : '?' ∉ p) :
    '?' ∉ mergeUpstreamPath basePath p := by
  have hincoming : '?' ∉ absolutePath p := by
    rw [absolutePath]
    split
    · exact hp
    · exact List.not_mem_cons_of_ne_of_not_mem (by decide) hp
  rw [mergeUpstreamPath_eq]
  split
  · exact hincoming
  · split
    · exact hbase
    · exact List.not_mem_append hbase hincoming

/-- With a query the target is always something behind a base path. -/
theorem mergeUpstreamPath_query (basePath p q : Str) :
    mergeUpstreamPath basePath (p ++ '?' :: q) =
      (if basePath = ['/'] then absolutePath p else basePath ++ absolutePath p) ++ '?' :: q := by
  have hmore : ¬ (p ++ '?' :: q = [] ∨ p ++ '?' :: q = ['/']) := by
    rw [List.append_eq_singleton_iff]
    simp
  rw [mergeUpstreamPath_eq, if_neg hmore, absolutePath_query, ← List.append_assoc,
    apply_ite (· ++ '?' :: q)]

/-- **Exactly when the query makes no difference**: when the base path is a slash, or the path is
more than that. -/
theorem commutesWithQuery_iff {u : Upstream} (hbase : '?' ∉ u.basePath) (hp : '?' ∉ p) :
    CommutesWithQuery u.basePath p q ↔ u.basePath = ['/'] ∨ (p ≠ [] ∧ p ≠ ['/']) := by
  constructor
  · intro h
    rw [or_iff_not_imp_left, ← not_or]
    intro hroot hslash
    have hlength := congrArg List.length h.merge
    rw [mergeUpstreamPath_query, mergeUpstreamPath_eq, if_neg hroot, if_neg hroot, if_pos hslash,
      absolutePath_eq_slash_iff.mpr hslash] at hlength
    simp at hlength
  · intro h
    have hmerge : mergeUpstreamPath u.basePath (p ++ '?' :: q) =
        mergeUpstreamPath u.basePath p ++ '?' :: q := by
      rw [mergeUpstreamPath_query, mergeUpstreamPath_eq]
      rcases h with hroot | hpath
      · rw [if_pos hroot, if_pos hroot]
      · rw [if_neg (not_or.mpr hpath)]
    refine ⟨hmerge, ?_⟩
    rw [hmerge, splitPathAndQuery_append (notMem_mergeUpstreamPath hbase hp),
      splitPathAndQuery_append hp]

end Query

/-- The root of a site behind a base path. -/
def localApi : Upstream := ⟨"127.0.0.1".toList, 9000, "/api".toList⟩

/-- With a query the root goes to `/api/`, without it to `/api`. -/
theorem root_query_moves : ¬ ∀ (u : Upstream) (p q : Str), '?' ∉ u.basePath → '?' ∉ p →
    CommutesWithQuery u.basePath p q := by
  intro h
  have hmerge := (h localApi ['/'] "x=1".toList (by decide) (by decide)).merge
  exact absurd hmerge (by decide)

theorem commutesWithQuery_v1 : CommutesWithQuery localApi.basePath "/v1".toList "x=1".toList :=
  (commutesWithQuery_iff (u := localApi) (by decide) (by decide)).mpr
    (Or.inr ⟨by decide, by decide⟩)

/-! ### The normal form -/

/-- The URL has two slashes at the end of its path, behind the slash that starts it. -/
def EndsInSlashes (raw : Str) : Prop :=
  ∃ authority p, '/' ∉ authority ∧
    raw = "http://".toList ++ (authority ++ '/' :: (p ++ ['/', '/']))

/-- The path that is sent is both put together, with a slash on either side of the join. -/
def DoublesSlash (basePath t : Str) : Prop :=
  basePath.getLast? = some '/' ∧ t.head? = some '/' ∧
    mergeUpstreamPath basePath t = basePath ++ t

/-- The target starts with exactly one slash. -/
def StartsWithOneSlash (t : Str) : Prop := ∃ rest, t = '/' :: rest ∧ rest.head? ≠ some '/'

/-- The base path is a slash or does not end in one. -/
def IsNormalPath (basePath : Str) : Prop := basePath = ['/'] ∨ basePath.getLast? ≠ some '/'

instance (basePath : Str) : Decidable (IsNormalPath basePath) :=
  inferInstanceAs (Decidable (_ ∨ _))

/-- What is printed of an upstream is read back, its base path is a slash or does not end in one,
and no target doubles the slash at the join. -/
structure Normalised (u : Upstream) : Prop where
  reparse : Upstream.parse ("http://".toList ++ (u.authority ++ u.basePath)) = .ok u
  path : IsNormalPath u.basePath
  join : ∀ t, StartsWithOneSlash t → ¬ DoublesSlash u.basePath t

/-- One slash is dropped at the end of a path. -/
theorem Upstream.trimPath_cons (p : Str) : Upstream.trimPath ('/' :: p) =
    '/' :: if p.getLast? = some '/' then p.dropLast else p := by
  have hlong : 1 < (asBytes ('/' :: p)).length ↔ p ≠ [] := by
    have hone : '/'.utf8Size = 1 := by decide
    rw [length_asBytes_cons, hone]
    cases p with
    | nil => simp
    | cons c p =>
      have hpos := c.utf8Size_pos
      rw [length_asBytes_cons]
      simp
      omega
  rw [Upstream.trimPath, List.head?_cons, if_pos rfl]
  cases p with
  | nil => rfl
  | cons c p =>
    rw [List.getLast?_cons_cons, List.dropLast_cons_cons,
      if_congr (and_iff_right (hlong.mpr (List.cons_ne_nil c p))) rfl rfl]
    exact (apply_ite ('/' :: ·) _ _ _).symm

theorem isNormalPath_cons_iff {p : Str} : IsNormalPath ('/' :: p) ↔ p.getLast? ≠ some '/' := by
  cases p with
  | nil => exact iff_of_true (Or.inl rfl) nofun
  | cons c p =>
    rw [IsNormalPath, List.getLast?_cons_cons]
    exact or_iff_right (by simp)

/-- A normal path is not trimmed any more. -/
theorem IsNormalPath.trimPath {basePath : Str} (h : IsNormalPath basePath)
    (hhead : basePath.head? = some '/') : Upstream.trimPath basePath = basePath := by
  obtain ⟨p, rfl⟩ := List.head?_eq_some_iff.mp hhead
  rw [Upstream.trimPath_cons, if_neg (isNormalPath_cons_iff.mp h)]

/-- What is trimmed is normal unless there were two slashes to drop. -/
theorem isNormalPath_trimPath_iff {path : Str} (hpath : ∀ c ∈ path.head?, c = '/') :
    IsNormalPath (Upstream.trimPath path) ↔ ¬ ∃ p, path = '/' :: (p ++ ['/', '/']) := by
  cases path with
  | nil => exact iff_of_true (Or.inl rfl) nofun
  | cons c p =>
    obtain rfl : c = '/' := hpath c rfl
    rw [Upstream.trimPath_cons, isNormalPath_cons_iff, not_iff_not]
    by_cases hlast : p.getLast? = some '/'
    · obtain ⟨init, rfl⟩ := List.getLast?_eq_some_iff.mp hlast
      rw [if_pos hlast, List.dropLast_concat, List.getLast?_eq_some_iff]
      refine exists_congr fun q => ?_
      rw [List.append_cons q '/' ['/'], List.cons_inj_right, List.append_cancel_right_eq]
    · rw [if_neg hlast]
      refine iff_of_false hlast ?_
      rintro ⟨init, heq⟩
      exact hlast (by rw [(List.cons.inj heq).2]; simp)

theorem endsInSlashes_iff {authority path : Str} (hslash : '/' ∉ authority)
    (hpath : ∀ c ∈ path.head?, c = '/') :
    EndsInSlashes ("http://".toList ++ (authority ++ path)) ↔
      ∃ p, path = '/' :: (p ++ ['/', '/']) := by
  constructor
  · rintro ⟨authority', p, hslash', htext⟩
    have hrest := List.append_cancel_left htext
    have hcut := splitOnce_eq_some_iff.mpr ⟨hrest, hslash'⟩
    cases path with
    | nil =>
      rw [List.append_nil] at hcut
      rw [splitOnce_eq_none_iff.mpr hslash] at hcut
      cases hcut
    | cons c path =>
      obtain rfl : c = '/' := hpath c rfl
      rw [splitOnce_append hslash] at hcut
      exact ⟨p, congrArg ('/' :: ·) (Prod.mk.inj (Option.some.inj hcut)).2⟩
  · rintro ⟨p, rfl⟩
    exact ⟨authority, p, hslash, rfl⟩

/-- A normal base path does not double the slash. -/
theorem IsNormalPath.not_doublesSlash {basePath : Str} (h : IsNormalPath basePath) (t : Str) :
    ¬ DoublesSlash basePath t := by
  rintro ⟨hlast, hhead, hmerge⟩
  rcases h with rfl | hne
  · rw [mergeUpstreamPath_eq, if_pos rfl, absolutePath, if_pos hhead] at hmerge
    simpa using congrArg List.length hmerge
  · exact hne hlast

/-- **Exactly which URLs make a normal base path**: those whose path does not end in two
slashes. -/
theorem normalised_iff {raw : Str} {u : Upstream} (h : Upstream.parse raw = .ok u) :
    Normalised u ↔ ¬ EndsInSlashes raw := by
  obtain ⟨authority, path, rfl, hslash, hpath, -, -, hbase⟩ := Upstream.parse_eq_ok_iff.mp h
  rw [endsInSlashes_iff hslash hpath, ← isNormalPath_trimPath_iff hpath, ← hbase]
  have hhead : u.basePath.head? = some '/' := by
    rw [hbase]
    exact Upstream.head_trimPath path
  constructor
  · exact Normalised.path
  · intro hnormal
    refine ⟨?_, hnormal, fun t _ => hnormal.not_doublesSlash t⟩
    have hstart : ∀ c ∈ u.basePath.head?, c = '/' :=
      fun c hc => (Option.some.inj (hhead.symm.trans hc)).symm
    rw [Upstream.parse_written h hstart, hnormal.trimPath hhead]

/-- The base path of `http://h/a//` is `/a/`, which is not what is read back. -/
theorem slashes_not_normalised : ¬ ∀ (raw : Str) (u : Upstream),
    Upstream.parse raw = .ok u → Normalised u := by
  intro h
  have hparse : Upstream.parse "http://h/a//".toList = .ok ⟨"h".toList, 80, "/a/".toList⟩ := rfl
  have hpath := (h _ _ hparse).path
  exact absurd hpath (by decide)

/-- That of `http://h:9000/a/` is `/a`. -/
theorem one_slash_normalised : Normalised ⟨"h".toList, 9000, "/a".toList⟩ := by
  have hparse : Upstream.parse "http://h:9000/a/".toList =
      .ok ⟨"h".toList, 9000, "/a".toList⟩ := rfl
  have hslash : ∀ c ∈ "/a/".toList.head?, c = '/' := fun c hc => (Option.some.inj hc).symm
  have hsplit : "http://h:9000/a/".toList =
      "http://".toList ++ ("h:9000".toList ++ "/a/".toList) := rfl
  refine (normalised_iff hparse).mpr ?_
  rw [hsplit, endsInSlashes_iff (by decide) hslash, ← isNormalPath_trimPath_iff hslash]
  decide

end Proxy

end Fywaf
