import Fywaf.Crs.HeaderFree

/-!
# Exclusions

A part of the variables field that starts with an exclamation mark takes something away from what
the rule inspects. The parser honours the mark for a single header only; in front of anything else
it passes it over, and the rule then inspects just what was to be left out.

## Main definitions

* `Crs.HasExclusion` — a part of a field that starts with an exclamation mark
* `Crs.NeverAdds` — with the part nothing is inspected that is not without it
* `Crs.Covered` — the other parts name it as well

## Main results

* `Crs.neverAdds_iff` — exactly when an exclusion adds nothing
-/

namespace Fywaf

namespace Crs

/-! ### Fields without a part -/

/-- The variables that the parts name. -/
def parseParts (parts : List Str) : Except Panic (List Variable) :=
  parts.mapM fun part => parseVariable (trim part)

/-- The field has the part between the others, and it starts with an exclamation mark. -/
structure HasExclusion (varsStr : Str) (before : List Str) (part : Str) (after : List Str) :
    Prop where
  parts : varsStr.splitOn '|' = before ++ part :: after
  negated : (trim part).head? = some '!'

/-- The field without the part. -/
def withoutPart (before after : List Str) : Str := ['|'].intercalate (before ++ after)

/-- Whatever the request, a value of the field is a value of the field without the part. -/
def NeverAdds (varsStr : Str) (before after : List Str) : Prop :=
  ∀ vars rest, parseVariables varsStr = .ok vars →
    parseVariables (withoutPart before after) = .ok rest →
    ∀ ctx, ∀ value ∈ resolveVariables vars ctx, value ∈ resolveVariables rest ctx

/-- Parts joined by bars are a field. -/
theorem parseVariables_join {parts : List Str} (hne : parts ≠ [])
    (hbar : ∀ part ∈ parts, '|' ∉ part) :
    parseVariables (['|'].intercalate parts) = parseParts parts := by
  rw [parseVariables, List.splitOn_intercalate '|' hbar hne, parseParts]

/-- The empty field names the header without a name. -/
theorem parseVariables_nil : parseVariables [] = .ok [.requestHeader []] :=
  toOption_eq_some_iff.mp (by decide)

theorem parseParts_append {before after : List Str} {vars : List Variable} :
    parseParts (before ++ after) = .ok vars ↔
      ∃ fore aft, parseParts before = .ok fore ∧ parseParts after = .ok aft ∧
        fore ++ aft = vars := by
  rw [parseParts, List.mapM_append, bind_eq_ok_iff]
  refine exists_congr fun fore => ?_
  rw [bind_eq_ok_iff]
  constructor
  · rintro ⟨hfore, aft, haft, h⟩
    exact ⟨aft, hfore, haft, Except.ok.inj h⟩
  · rintro ⟨aft, hfore, haft, h⟩
    exact ⟨hfore, aft, haft, congrArg Except.ok h⟩

theorem parseParts_cons {part : Str} {parts : List Str} {vars : List Variable} :
    parseParts (part :: parts) = .ok vars ↔
      ∃ var rest, parseVariable (trim part) = .ok var ∧ parseParts parts = .ok rest ∧
        var :: rest = vars := by
  rw [parseParts, List.mapM_cons, bind_eq_ok_iff]
  refine exists_congr fun var => ?_
  rw [bind_eq_ok_iff]
  constructor
  · rintro ⟨hvar, rest, hrest, h⟩
    exact ⟨rest, hvar, hrest, Except.ok.inj h⟩
  · rintro ⟨rest, hvar, hrest, h⟩
    exact ⟨hvar, rest, hrest, congrArg Except.ok h⟩

/-- A field parses when the part and the others do. -/
theorem parseVariables_eq_ok_iff {varsStr part : Str} {before after : List Str}
    (h : varsStr.splitOn '|' = before ++ part :: after) {vars : List Variable} :
    parseVariables varsStr = .ok vars ↔ ∃ fore var aft, parseParts before = .ok fore ∧
      parseVariable (trim part) = .ok var ∧ parseParts after = .ok aft ∧
        fore ++ var :: aft = vars := by
  rw [show parseVariables varsStr = parseParts (varsStr.splitOn '|') from rfl, h, parseParts_append]
  constructor
  · rintro ⟨fore, _, hfore, hcons, rfl⟩
    obtain ⟨var, aft, hvar, haft, rfl⟩ := parseParts_cons.mp hcons
    exact ⟨fore, var, aft, hfore, hvar, haft, rfl⟩
  · rintro ⟨fore, var, aft, hfore, hvar, haft, rfl⟩
    exact ⟨fore, _, hfore, parseParts_cons.mpr ⟨var, aft, hvar, haft, rfl⟩, rfl⟩

/-! ### What the other parts inspect -/

/-- The variables inspect everything that the variable does: they have the same variable, or,
for a single header, all headers, when it is not excluded and is not the user agent, which the
host also passes on its own. An exclusion and XML inspect nothing. -/
def Covered (rest : List Variable) : Variable → Prop
  | .requestHeaderExclude _ => True
  | .xml => True
  | .tx _ => ∃ name, .tx name ∈ rest
  | .requestHeader name =>
    (∃ name', .requestHeader name' ∈ rest ∧ toLowercase name' = toLowercase name) ∨
      (.requestHeaders ∈ rest ∧ toLowercase name ∉ excludeHeaders rest ∧
        toLowercase name ≠ "user-agent".toList)
  | var => var ∈ rest

/-- With fewer exclusions a variable has no fewer values. -/
theorem resolveVariable_mono {ctx : RequestContext} {exclude exclude' : List Str}
    (h : ∀ name ∈ exclude', name ∈ exclude) {var : Variable} {value : Str}
    (hvalue : value ∈ resolveVariable ctx exclude var) :
    value ∈ resolveVariable ctx exclude' var := by
  cases var with
  | requestHeaders =>
    rw [resolveVariable, List.mem_map] at hvalue ⊢
    obtain ⟨e, he, rfl⟩ := hvalue
    obtain ⟨hmem, hnot⟩ := List.mem_filter.mp he
    refine ⟨e, List.mem_filter.mpr ⟨hmem, ?_⟩, rfl⟩
    simp only [Bool.not_eq_true', List.contains_eq_mem, decide_eq_false_iff_not] at hnot ⊢
    exact fun hexclude => hnot (h _ hexclude)
  | _ => exact hvalue

theorem mem_resolveVariables {vars : List Variable} {ctx : RequestContext} {value : Str} :
    value ∈ resolveVariables vars ctx ↔
      ∃ var ∈ vars, value ∈ resolveVariable ctx (excludeHeaders vars) var := List.mem_flatMap

theorem mem_excludeHeaders {vars : List Variable} {name : Str} :
    name ∈ excludeHeaders vars ↔ ∃ name', .requestHeaderExclude name' ∈ vars ∧
      toLowercase name' = name := by
  rw [excludeHeaders, List.mem_filterMap]
  constructor
  · rintro ⟨var, hvar, hname⟩
    cases var with
    | requestHeaderExclude name' => exact ⟨name', hvar, Option.some.inj hname⟩
    | _ => cases hname
  · rintro ⟨name', hvar, hname⟩
    exact ⟨_, hvar, congrArg some hname⟩

/-- The user agent field is the value of the header of that name only. -/
theorem mem_requestHeader {ctx : RequestContext} {exclude : List Str} {name value : Str} :
    value ∈ resolveVariable ctx exclude (.requestHeader name) →
      (∃ e ∈ ctx.headers.entries, toLowercase e.1 = toLowercase name ∧ e.2 = value) ∨
        toLowercase name = "user-agent".toList := by
  intro h
  rw [resolveVariable, List.mem_append, List.mem_map] at h
  rcases h with ⟨e, he, rfl⟩ | h
  · obtain ⟨hmem, heq⟩ := List.mem_filter.mp he
    exact Or.inl ⟨e, hmem, by simpa using heq, rfl⟩
  · refine Or.inr ?_
    split at h
    · next hagent => exact hagent.1
    · cases h

/-- A covered variable adds nothing. -/
theorem mem_of_covered {rest : List Variable} {ctx : RequestContext} {var : Variable}
    (h : Covered rest var) {value : Str}
    (hvalue : value ∈ resolveVariable ctx (excludeHeaders rest) var) :
    value ∈ resolveVariables rest ctx := by
  rw [mem_resolveVariables]
  cases var with
  | requestHeaderExclude name => cases hvalue
  | xml => cases hvalue
  | tx name =>
    obtain ⟨name', hmem⟩ := h
    exact ⟨_, hmem, hvalue⟩
  | requestHeader name =>
    rcases h with ⟨name', hmem, hname⟩ | ⟨hmem, hexclude, hagent⟩
    · refine ⟨_, hmem, ?_⟩
      rw [resolveVariable, hname]
      exact hvalue
    · obtain ⟨e, he, hname, rfl⟩ := (mem_requestHeader hvalue).resolve_right hagent
      refine ⟨_, hmem, ?_⟩
      rw [resolveVariable]
      refine List.mem_map.mpr ⟨e, List.mem_filter.mpr ⟨he, ?_⟩, rfl⟩
      simpa [hname] using hexclude
  | _ => exact ⟨_, h, hvalue⟩

/-! ### Requests that tell variables apart -/

/-- `GET /?k=v`. -/
def queryContext : RequestContext := { plainContext with query := some "k=v".toList }

/-- `GET /` with the body `k=v`. -/
def bodyContext : RequestContext := { plainContext with body := some "k=v".toList }

/-- `GET /` with the user agent `k=v`. -/
def agentContext : RequestContext := { plainContext with userAgent := some "k=v".toList }

/-- What the variables inspect of `queryContext`. -/
def queryValues : Variable → List Str
  | .args => [['v']]
  | .argsNames => [['k']]
  | .requestFilename => [['/']]
  | .requestMethod => [['G', 'E', 'T']]
  | .requestUri => [['/', '?', 'k', '=', 'v']]
  | .tx _ => [[]]
  | _ => []

theorem resolve_queryContext (exclude : List Str) (var : Variable) :
    resolveVariable queryContext exclude var = queryValues var := by
  cases var with
  | requestHeader name => exact ite_self []
  | args | argsNames =>
    rw [resolveVariable]
    decide
  | _ => rfl

/-- Each variable inspects something of its own. -/
theorem eq_of_mem_queryValues {var other : Variable} {value : Str}
    (h : value ∈ queryValues var) (hother : value ∈ queryValues other) :
    other = var ∨ (∃ name, var = .tx name) ∧ ∃ name, other = .tx name := by
  cases var <;> cases other <;> simp_all [queryValues]

/-- Only the body is `k=v`. -/
theorem eq_of_mem_body {exclude : List Str} {var : Variable}
    (h : "k=v".toList ∈ resolveVariable bodyContext exclude var) : var = .requestBody := by
  cases var with
  | requestBody => rfl
  | args | argsNames =>
    rw [resolveVariable] at h
    exact absurd h (by decide)
  | requestFilename | requestMethod | requestUri | tx =>
    exact absurd (List.mem_singleton.mp h) (by decide)
  | requestHeader name =>
    rcases mem_requestHeader h with ⟨e, he, -⟩ | hagent
    · cases he
    · rw [resolveVariable, if_pos ⟨hagent, rfl, rfl⟩] at h
      cases h
  | _ => cases h

/-- Only the user agent is `k=v`. -/
theorem eq_of_mem_agent {exclude : List Str} {var : Variable}
    (h : "k=v".toList ∈ resolveVariable agentContext exclude var) :
    ∃ name, var = .requestHeader name ∧ toLowercase name = "user-agent".toList := by
  cases var with
  | requestHeader name =>
    rcases mem_requestHeader h with ⟨e, he, -⟩ | hagent
    · cases he
    · exact ⟨name, rfl, hagent⟩
  | requestFilename | requestMethod | requestUri | tx =>
    exact absurd (List.mem_singleton.mp h) (by decide)
  | _ => cases h

/-- All headers have the same value. -/
theorem eq_of_mem_headers {name text value : Str} {exclude : List Str} {var : Variable}
    (hvar : var = .requestHeaders ∨ ∃ name', var = .requestHeader name')
    (h : value ∈ resolveVariable (plainContext.withHeader name text) exclude var) :
    value = text := by
  rcases hvar with rfl | ⟨name', rfl⟩
  · rw [resolveVariable, List.mem_map] at h
    obtain ⟨e, he, rfl⟩ := h
    exact congrArg Prod.snd (List.mem_singleton.mp (List.mem_filter.mp he).1)
  · rw [resolveVariable, List.mem_append, List.mem_map] at h
    rcases h with ⟨e, he, rfl⟩ | h
    · exact congrArg Prod.snd (List.mem_singleton.mp (List.mem_filter.mp he).1)
    · split at h <;> cases h

/-- `GET /` with the cookie `k=v`. -/
def cookieContext : RequestContext := plainContext.withHeader "cookie".toList "k=v".toList

/-- Only the cookies are `v`, and only their names `k`. -/
theorem eq_of_mem_cookie {exclude : List Str} {var : Variable} :
    (['v'] ∈ resolveVariable cookieContext exclude var → var = .requestCookies) ∧
      (['k'] ∈ resolveVariable cookieContext exclude var → var = .requestCookiesNames) := by
  have hno : ∀ c : Char, [c] ∈ resolveVariable cookieContext exclude var →
      ¬ (var = .requestHeaders ∨ ∃ name', var = .requestHeader name') := by
    intro c hc hvar
    have hlen : 1 = 3 := congrArg List.length (eq_of_mem_headers hvar hc)
    cases hlen
  cases var with
  | requestCookies =>
    refine ⟨fun _ => rfl, ?_⟩
    intro h
    rw [resolveVariable] at h
    exact absurd h (by decide)
  | requestCookiesNames =>
    refine ⟨?_, fun _ => rfl⟩
    intro h
    rw [resolveVariable] at h
    exact absurd h (by decide)
  | requestHeaders => exact ⟨fun h => (hno _ h (Or.inl rfl)).elim,
      fun h => (hno _ h (Or.inl rfl)).elim⟩
  | requestHeader name => exact ⟨fun h => (hno _ h (Or.inr ⟨name, rfl⟩)).elim,
      fun h => (hno _ h (Or.inr ⟨name, rfl⟩)).elim⟩
  | requestFilename | requestMethod | requestUri | tx =>
    exact ⟨fun h => absurd (List.mem_singleton.mp h) (by decide),
      fun h => absurd (List.mem_singleton.mp h) (by decide)⟩
  | _ => exact ⟨fun h => (by cases h), fun h => (by cases h)⟩

/-- The cookie header is the one header, or there is none. -/
theorem cookieHeader_withHeader (name value : Str) :
    cookieHeader (plainContext.withHeader name value) = some value ∨
      cookieHeader (plainContext.withHeader name value) = none := by
  have hget : ∀ key, (plainContext.withHeader name value).headers.get? key = some value ∨
      (plainContext.withHeader name value).headers.get? key = none := by
    intro key
    have hinsert := BTreeMap.get?_insert BTreeMap.empty name key value
    split at hinsert
    · exact Or.inl hinsert
    · exact Or.inr hinsert
  rw [cookieHeader]
  rcases hget "cookie".toList with hlower | hlower
  · rw [hlower]
    exact Or.inl rfl
  · rw [hlower, Option.none_or]
    exact hget "Cookie".toList

/-- Only headers have the value of the one header. -/
theorem eq_of_mem_header {name : Str} {exclude : List Str} {var : Variable}
    (h : "k=v".toList ∈ resolveVariable (plainContext.withHeader name "k=v".toList) exclude var) :
    (var = .requestHeaders ∧ toLowercase name ∉ exclude) ∨
      ∃ name', var = .requestHeader name' ∧ toLowercase name' = toLowercase name := by
  cases var with
  | requestHeaders =>
    refine Or.inl ⟨rfl, ?_⟩
    rw [resolveVariable, List.mem_map] at h
    obtain ⟨e, he, -⟩ := h
    obtain ⟨hmem, hnot⟩ := List.mem_filter.mp he
    obtain rfl := List.mem_singleton.mp hmem
    simpa using hnot
  | requestHeader name' =>
    refine Or.inr ⟨name', rfl, ?_⟩
    rw [resolveVariable, List.mem_append, List.mem_map] at h
    rcases h with ⟨e, he, -⟩ | h
    · obtain ⟨hmem, heq⟩ := List.mem_filter.mp he
      obtain rfl := List.mem_singleton.mp hmem
      exact (beq_iff_eq.mp heq).symm
    · split at h <;> cases h
  | requestCookies | requestCookiesNames =>
    rw [resolveVariable] at h
    rcases cookieHeader_withHeader name "k=v".toList with hcookie | hcookie
    · rw [hcookie] at h
      exact absurd h (by decide)
    · rw [hcookie] at h
      cases h
  | requestFilename | requestUri =>
    exact absurd (List.mem_singleton.mp h) (show "k=v".toList ≠ plainContext.path by decide)
  | requestMethod =>
    exact absurd (List.mem_singleton.mp h) (show "k=v".toList ≠ plainContext.method by decide)
  | tx name' => exact absurd (List.mem_singleton.mp h) (by decide)
  | _ => cases h

/-- Names made of the letter `a` are left as they are. -/
theorem toLowercase_replicate (n : ℕ) : toLowercase (List.replicate n 'a') =
    List.replicate n 'a' := by
  have hafter : ∀ before, toLowercaseAfter before (List.replicate n 'a') =
      List.replicate n 'a' := by
    induction n with
    | zero => exact fun _ => rfl
    | succ n ih =>
      intro before
      rw [List.replicate_succ, toLowercaseAfter, if_neg (by decide), ih]
      rfl
  exact hafter []

/-- Some name, in lower case, is none of the given ones. -/
theorem exists_fresh_name (names : List Str) : ∃ name, toLowercase name ∉ names := by
  obtain ⟨n, hn⟩ : ∃ n, ∀ name ∈ names, name.length < n := by
    induction names with
    | nil => exact ⟨0, fun name hname => by cases hname⟩
    | cons name names ih =>
      obtain ⟨n, hn⟩ := ih
      refine ⟨name.length + 1 + n, ?_⟩
      intro name' hname'
      rcases List.mem_cons.mp hname' with rfl | hname'
      · omega
      · have := hn name' hname'
        omega
  refine ⟨List.replicate n 'a', ?_⟩
  intro hmem
  have hlt := hn _ hmem
  rw [toLowercase_replicate, List.length_replicate] at hlt
  exact Nat.lt_irrefl n hlt

/-- The header a variable names, folded. -/
def headerName : Variable → Option Str
  | .requestHeader name => some (toLowercase name)
  | _ => none

/-- Every value of the variable is inspected by one of the rest as well. -/
def CoveredBy (rest : List Variable) (exclude : List Str) (var : Variable) : Prop :=
  ∀ ctx, ∀ value ∈ resolveVariable ctx exclude var, ∃ other ∈ rest,
    value ∈ resolveVariable ctx (excludeHeaders rest) other

/-- All headers are inspected only where all headers are named. -/
theorem mem_of_covers_headers {rest : List Variable} {exclude : List Str}
    (hcover : CoveredBy rest exclude .requestHeaders) : .requestHeaders ∈ rest := by
  -- a header that no part names, and none excludes
  obtain ⟨name, hfresh⟩ := exists_fresh_name (exclude ++ rest.filterMap headerName)
  rw [List.mem_append, not_or] at hfresh
  have hvalue : "k=v".toList ∈
      resolveVariable (plainContext.withHeader name "k=v".toList) exclude .requestHeaders := by
    rw [resolveVariable]
    refine List.mem_map.mpr ⟨(name, _), List.mem_filter.mpr ⟨List.mem_singleton.mpr rfl, ?_⟩, rfl⟩
    simpa using hfresh.1
  obtain ⟨other, hother, hmem⟩ := hcover _ _ hvalue
  rcases eq_of_mem_header hmem with ⟨rfl, -⟩ | ⟨name', rfl, hname⟩
  · exact hother
  · exact absurd (List.mem_filterMap.mpr ⟨_, hother, by rw [headerName, hname]⟩) hfresh.2

/-- A single header is inspected where it is named, and where all headers are and it is not
excluded, unless it is the user agent. -/
theorem covered_header {rest : List Variable} {exclude : List Str} {name : Str}
    (hcover : CoveredBy rest exclude (.requestHeader name)) :
    Covered rest (.requestHeader name) := by
  obtain ⟨other, hother, hmem⟩ := hcover (plainContext.withHeader name "k=v".toList)
    "k=v".toList (mem_resolve_withHeader plainContext exclude name _)
  rcases eq_of_mem_header hmem with ⟨rfl, hexclude⟩ | ⟨name', rfl, hname⟩
  · by_cases hagent : toLowercase name = "user-agent".toList
    · have hvalue : "k=v".toList ∈ resolveVariable agentContext exclude (.requestHeader name) := by
        rw [resolveVariable, if_pos ⟨hagent, rfl, rfl⟩]
        exact List.mem_append_right _ List.mem_cons_self
      obtain ⟨other', hother', hmem'⟩ := hcover agentContext _ hvalue
      obtain ⟨name', rfl, hname⟩ := eq_of_mem_agent hmem'
      exact Or.inl ⟨name', hother', hname.trans hagent.symm⟩
    · exact Or.inr ⟨hother, hexclude, hagent⟩
  · exact Or.inl ⟨name', hother, hname⟩

/-- A variable that adds nothing is covered. -/
theorem covered_of_forall {rest : List Variable} {exclude : List Str} {var : Variable}
    (h : ∀ ctx, ∀ value ∈ resolveVariable ctx exclude var, value ∈ resolveVariables rest ctx) :
    Covered rest var := by
  -- some variable of the rest inspects it as well
  have hcover : CoveredBy rest exclude var :=
    fun ctx value hvalue => mem_resolveVariables.mp (h ctx value hvalue)
  -- for most variables `queryContext` tells which
  have hquery : ∀ value ∈ queryValues var, ∃ other ∈ rest, value ∈ queryValues other := by
    intro value hvalue
    obtain ⟨other, hother, hmem⟩ := hcover queryContext value
      (by rwa [resolve_queryContext])
    rw [resolve_queryContext] at hmem
    exact ⟨other, hother, hmem⟩
  have hplain : ∀ value ∈ queryValues var, (∀ name, var ≠ .tx name) → var ∈ rest := by
    intro value hvalue htx
    obtain ⟨other, hother, hmem⟩ := hquery value hvalue
    rcases eq_of_mem_queryValues hvalue hmem with rfl | ⟨⟨name, rfl⟩, -⟩
    · exact hother
    · exact absurd rfl (htx name)
  cases var with
  | requestHeaderExclude name => trivial
  | xml => trivial
  | args | argsNames | requestFilename | requestMethod | requestUri =>
    exact hplain _ List.mem_cons_self (fun name hname => by cases hname)
  | tx name =>
    obtain ⟨other, hother, hmem⟩ := hquery [] List.mem_cons_self
    rcases @eq_of_mem_queryValues (.tx name) other [] List.mem_cons_self hmem with
      rfl | ⟨-, name', rfl⟩
    · exact ⟨name, hother⟩
    · exact ⟨name', hother⟩
  | requestBody =>
    obtain ⟨other, hother, hmem⟩ := hcover bodyContext "k=v".toList List.mem_cons_self
    obtain rfl := eq_of_mem_body hmem
    exact hother
  | requestCookies =>
    have hvalue : ['v'] ∈ resolveVariable cookieContext exclude .requestCookies := by
      rw [resolveVariable]
      decide
    obtain ⟨other, hother, hmem⟩ := hcover cookieContext _ hvalue
    obtain rfl := eq_of_mem_cookie.1 hmem
    exact hother
  | requestCookiesNames =>
    have hname : ['k'] ∈ resolveVariable cookieContext exclude .requestCookiesNames := by
      rw [resolveVariable]
      decide
    obtain ⟨other, hother, hmem⟩ := hcover cookieContext _ hname
    obtain rfl := eq_of_mem_cookie.2 hmem
    exact hother
  | requestHeaders => exact mem_of_covers_headers hcover
  | requestHeader name => exact covered_header hcover

/-- A field and the field without a part: it has the variable of the part besides the others, and
excludes no fewer headers. -/
theorem parseVariables_without {varsStr part : Str} {before after : List Str}
    (h : varsStr.splitOn '|' = before ++ part :: after) {var : Variable} {rest : List Variable}
    (hvar : parseVariable (trim part) = .ok var)
    (hrest : parseVariables (withoutPart before after) = .ok rest) :
    ∃ vars, parseVariables varsStr = .ok vars ∧ var ∈ vars ∧
      (∀ other ∈ vars, other = var ∨ other ∈ rest) ∧
      ∀ name ∈ excludeHeaders rest, name ∈ excludeHeaders vars := by
  by_cases hnone : before ++ after = []
  · obtain ⟨rfl, rfl⟩ := List.append_eq_nil_iff.mp hnone
    have hempty : parseVariables (withoutPart [] []) = .ok [.requestHeader []] :=
      parseVariables_nil
    cases hrest.symm.trans hempty
    refine ⟨[var], ?_, List.mem_cons_self, ?_, ?_⟩
    · exact (parseVariables_eq_ok_iff h).mpr ⟨[], var, [], rfl, hvar, rfl, rfl⟩
    · intro other hother
      exact Or.inl (List.mem_singleton.mp hother)
    · intro name hname
      cases hname
  · have hbar : ∀ p ∈ before ++ after, '|' ∉ p := by
      intro p hp hmem
      have hpart : p ∈ varsStr.splitOn '|' := by
        rw [h]
        simp only [List.mem_append, List.mem_cons] at hp ⊢
        tauto
      exact absurd (not_of_mem_splitOnP hpart '|' hmem) (by decide)
    rw [withoutPart, parseVariables_join hnone hbar] at hrest
    obtain ⟨fore, aft, hfore, haft, rfl⟩ := parseParts_append.mp hrest
    refine ⟨fore ++ var :: aft, ?_, by simp, ?_, ?_⟩
    · exact (parseVariables_eq_ok_iff h).mpr ⟨fore, var, aft, hfore, hvar, haft, rfl⟩
    · intro other hother
      simp only [List.mem_append, List.mem_cons] at hother ⊢
      tauto
    · intro name hname
      rw [mem_excludeHeaders] at hname ⊢
      obtain ⟨name', hmem, heq⟩ := hname
      exact ⟨name', by simp only [List.mem_append, List.mem_cons] at hmem ⊢; tauto, heq⟩

/-- With one variable more nothing is added exactly when the others inspect what it does. -/
theorem subset_iff_covered {vars rest : List Variable} {var : Variable} (hvar : var ∈ vars)
    (hothers : ∀ other ∈ vars, other = var ∨ other ∈ rest)
    (hexclude : ∀ name ∈ excludeHeaders rest, name ∈ excludeHeaders vars) :
    (∀ ctx, ∀ value ∈ resolveVariables vars ctx, value ∈ resolveVariables rest ctx) ↔
      Covered rest var := by
  constructor
  · intro h
    refine @covered_of_forall rest (excludeHeaders vars) var ?_
    intro ctx value hvalue
    exact h ctx value (mem_resolveVariables.mpr ⟨var, hvar, hvalue⟩)
  · intro hcovered ctx value hvalue
    obtain ⟨other, hother, hvalue⟩ := mem_resolveVariables.mp hvalue
    have hfewer := resolveVariable_mono hexclude hvalue
    rcases hothers other hother with rfl | hother
    · exact mem_of_covered hcovered hfewer
    · exact mem_resolveVariables.mpr ⟨other, hother, hfewer⟩

/-- **Exactly when an exclusion adds nothing**: when the field without it names it as well, or it
is one that the parser honours. -/
theorem neverAdds_iff {varsStr part : Str} {before after : List Str}
    (h : HasExclusion varsStr before part after) :
    NeverAdds varsStr before after ↔ ∀ var rest, parseVariable (trim part) = .ok var →
      parseVariables (withoutPart before after) = .ok rest → Covered rest var := by
  constructor
  · intro hnever var rest hvar hrest
    obtain ⟨vars, hvars, hmem, hothers, hexclude⟩ := parseVariables_without h.parts hvar hrest
    exact (subset_iff_covered hmem hothers hexclude).mp (hnever vars rest hvars hrest)
  · intro hcovered vars rest hvars hrest
    obtain ⟨fore, var, aft, -, hvar, -, -⟩ := (parseVariables_eq_ok_iff h.parts).mp hvars
    obtain ⟨vars', hvars', hmem, hothers, hexclude⟩ := parseVariables_without h.parts hvar hrest
    obtain rfl : vars = vars' := Except.ok.inj (hvars.symm.trans hvars')
    exact (subset_iff_covered hmem hothers hexclude).mpr (hcovered var rest hvar hrest)

/-- All arguments but one. -/
def exceptText : Str := "ARGS|!ARGS_NAMES".toList

theorem hasExclusion_except : HasExclusion exceptText ["ARGS".toList] "!ARGS_NAMES".toList [] :=
  ⟨by decide, by decide⟩

/-- The exclusion adds the names of the arguments. -/
theorem except_adds_names : ¬ ∀ varsStr before part after,
    HasExclusion varsStr before part after → NeverAdds varsStr before after := by
  intro h
  have hvars : parseVariables exceptText = .ok [.args, .argsNames] :=
    toOption_eq_some_iff.mp (by decide)
  have hrest : parseVariables (withoutPart ["ARGS".toList] []) = .ok [.args] :=
    toOption_eq_some_iff.mp (by decide)
  have hmem := h _ _ _ _ hasExclusion_except _ _ hvars hrest queryContext ['k']
    (by decide)
  exact absurd hmem (by decide)

/-- In the same field that exclusion would add nothing if it were of a header. -/
theorem neverAdds_header : NeverAdds "ARGS|!REQUEST_HEADERS:Cookie".toList ["ARGS".toList] [] := by
  have hexclusion : HasExclusion "ARGS|!REQUEST_HEADERS:Cookie".toList ["ARGS".toList]
      "!REQUEST_HEADERS:Cookie".toList [] := ⟨by decide, by decide⟩
  refine (neverAdds_iff hexclusion).mpr fun var rest hvar _ => ?_
  have hparse : parseVariable (trim "!REQUEST_HEADERS:Cookie".toList) =
      .ok (.requestHeaderExclude "Cookie".toList) := toOption_eq_some_iff.mp (by decide)
  cases hvar.symm.trans hparse
  trivial

end Crs

end Fywaf
