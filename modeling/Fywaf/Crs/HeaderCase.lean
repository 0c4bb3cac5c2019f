import Fywaf.Crs.Exclusion
import Fywaf.Crs.HeaderFree

/-!
# The case of header names

Header names are compared in lower case, but two of them are also looked up as they stand: the
cookie header, and the user agent, whose field beside the map counts only when the map has none.
Both are tried in two spellings. A request that spells one of them in a third way is another
request to the rules.

## Main definitions

* `Crs.CaseVariants` — two requests that differ in the case of header names
* `Crs.CaseBlind` — every rule list decides the same of both
* `Crs.SpelledAlike` — the two lookups cannot tell them apart

## Main results

* `Crs.mem_resolveVariable_iff` — then every variable has the same values
* `Crs.caseBlind_iff` — exactly when evaluation is blind to the case
-/

namespace Fywaf

namespace Crs

/-! ### Requests that differ in case -/

/-- An entry with its name in lower case. -/
def foldEntry (e : Str × Str) : Str × Str := (toAsciiLowercase e.1, e.2)

/-- The two requests are equal except for the ASCII case of header names, which are distinct without
regard to it. -/
structure CaseVariants (ctx ctx' : RequestContext) : Prop where
  method : ctx'.method = ctx.method
  path : ctx'.path = ctx.path
  query : ctx'.query = ctx.query
  userAgent : ctx'.userAgent = ctx.userAgent
  body : ctx'.body = ctx.body
  headers : (ctx'.headers.entries.map foldEntry).Perm (ctx.headers.entries.map foldEntry)
  distinct : ((ctx.headers.entries.map foldEntry).map Prod.fst).Nodup

/-- Every rule list decides the same of both requests. -/
def CaseBlind (regex : RegexNew) (ctx ctx' : RequestContext) : Prop :=
  ∀ rules paranoiaLevel anomalyThreshold,
    evaluate regex ctx paranoiaLevel anomalyThreshold rules =
      evaluate regex ctx' paranoiaLevel anomalyThreshold rules

/-- The spellings of the cookie header that are looked up. -/
def cookieSpellings : List Str := ["cookie".toList, "Cookie".toList]

/-- The spellings of the user agent header that are looked up. -/
def agentSpellings : List Str := ["user-agent".toList, "User-Agent".toList]

/-- A header is spelled in one of these ways. -/
def Spelled (ctx : RequestContext) (spellings : List Str) : Prop :=
  ∃ e ∈ ctx.headers.entries, e.1 ∈ spellings

/-- Both requests spell the cookie header in a way that is looked up, or none does, or there is
nothing in it; and likewise the user agent, or the field beside the map says what a header of that
name says, or nothing. -/
structure SpelledAlike (ctx ctx' : RequestContext) : Prop where
  cookie : (Spelled ctx cookieSpellings ↔ Spelled ctx' cookieSpellings) ∨
    ∀ e ∈ ctx.headers.entries, toAsciiLowercase e.1 = "cookie".toList → parseCookieValues e.2 = []
  agent : (Spelled ctx agentSpellings ↔ Spelled ctx' agentSpellings) ∨
    ∀ agent ∈ ctx.userAgent, ∃ e ∈ ctx.headers.entries,
      toLowercase e.1 = "user-agent".toList ∧ e.2 = agent

variable {ctx ctx' : RequestContext}

theorem CaseVariants.symm (h : CaseVariants ctx ctx') : CaseVariants ctx' ctx where
  method := h.method.symm
  path := h.path.symm
  query := h.query.symm
  userAgent := h.userAgent.symm
  body := h.body.symm
  headers := h.headers.symm
  distinct := (h.headers.map Prod.fst).nodup_iff.mpr h.distinct

/-- Each header has its variant. -/
theorem CaseVariants.exists_entry (h : CaseVariants ctx ctx') {e : Str × Str}
    (he : e ∈ ctx.headers.entries) : ∃ e' ∈ ctx'.headers.entries,
      toAsciiLowercase e'.1 = toAsciiLowercase e.1 ∧ e'.2 = e.2 := by
  have hmem : foldEntry e ∈ ctx'.headers.entries.map foldEntry :=
    h.headers.mem_iff.mpr (List.mem_map.mpr ⟨e, he, rfl⟩)
  obtain ⟨e', he', heq⟩ := List.mem_map.mp hmem
  exact ⟨e', he', Prod.mk.inj heq⟩

/-- Two headers of one name are one header. -/
theorem CaseVariants.eq_of_fold (h : CaseVariants ctx ctx') {e e' : Str × Str}
    (he : e ∈ ctx.headers.entries) (he' : e' ∈ ctx.headers.entries)
    (heq : toAsciiLowercase e.1 = toAsciiLowercase e'.1) : e = e' := by
  have hdistinct := h.distinct
  rw [List.map_map] at hdistinct
  exact List.inj_on_of_nodup_map hdistinct he he' heq

theorem toLowercase_congr {s t : Str} (h : toAsciiLowercase s = toAsciiLowercase t) :
    toLowercase s = toLowercase t := by
  rw [← toLowercase_toAsciiLowercase, h, toLowercase_toAsciiLowercase]

/-- What is said of the lower case of a name and of its value is said of both requests. -/
theorem CaseVariants.exists_iff (h : CaseVariants ctx ctx') (P : Str → Str → Prop) :
    (∃ e ∈ ctx.headers.entries, P (toLowercase e.1) e.2) ↔
      ∃ e ∈ ctx'.headers.entries, P (toLowercase e.1) e.2 := by
  have himp : ∀ {c c' : RequestContext}, CaseVariants c c' →
      (∃ e ∈ c.headers.entries, P (toLowercase e.1) e.2) →
        ∃ e ∈ c'.headers.entries, P (toLowercase e.1) e.2 := by
    rintro c c' hc ⟨e, he, hP⟩
    obtain ⟨e', he', hname, hvalue⟩ := hc.exists_entry he
    exact ⟨e', he', by rwa [toLowercase_congr hname, hvalue]⟩
  exact ⟨himp h, himp h.symm⟩

/-! ### What evaluation sees of a request -/

section Sees

variable {regex : RegexNew}

/-- A rule that blocks on its own when its condition holds. -/
def probe (vars : List Variable) (operator : Operator) : Rule where
  id := 1
  phase := .two
  vars := vars
  operator := operator
  transforms := []
  action := .block
  msg := none
  tags := []
  severity := none
  chained := []
  skipAfter := none
  anomalyScore := none
  paranoiaLevel := 0

theorem isSome_evaluate_probe (vars : List Variable) (operator : Operator) :
    (evaluate regex ctx 0 1 [probe vars operator]).isSome =
      conditionMatches regex vars operator [] ctx := by
  have hmatches : ruleMatches regex (probe vars operator) ctx =
      conditionMatches regex vars operator [] ctx := Bool.and_true _
  have hid : (probe vars operator).id ≠ 0 := show (1 : UInt32) ≠ 0 by decide
  rw [evaluate, evalLoop, step, if_neg hid, hmatches]
  cases conditionMatches regex vars operator [] ctx <;> rfl

/-- Only the conditions look at the request. -/
theorem evaluate_congr (h : ∀ rule, ruleMatches regex rule ctx = ruleMatches regex rule ctx')
    (paranoiaLevel : UInt8) (anomalyThreshold : UInt32) (rules : List Rule) :
    evaluate regex ctx paranoiaLevel anomalyThreshold rules =
      evaluate regex ctx' paranoiaLevel anomalyThreshold rules := by
  have hstep : step regex ctx = step regex ctx' := by
    funext level threshold st rule
    rw [step, step, h]
  have hloop : ∀ rules st, evalLoop regex ctx paranoiaLevel anomalyThreshold st rules =
      evalLoop regex ctx' paranoiaLevel anomalyThreshold st rules := by
    intro rules
    induction rules with
    | nil => exact fun _ => rfl
    | cons rule rules ih =>
      intro st
      rw [evalLoop, evalLoop, hstep]
      cases step regex ctx' paranoiaLevel anomalyThreshold st rule with
      | next st' => exact ih st'
      | ret blocking => rfl
  exact hloop rules .init

/-- **Evaluation sees exactly the values of the variables**: every rule list decides the same of two
requests if and only if all variables have the same values in both. -/
theorem caseBlind_iff_mem : CaseBlind regex ctx ctx' ↔
    ∀ vars value, value ∈ resolveVariables vars ctx ↔ value ∈ resolveVariables vars ctx' := by
  constructor
  · intro h vars value
    have hprobe := congrArg Option.isSome (h [probe vars (.streq value)] 0 1)
    rw [isSome_evaluate_probe, isSome_evaluate_probe, Bool.eq_iff_iff] at hprobe
    have hmatch : ∀ c, conditionMatches regex vars (.streq value) [] c = true ↔
        value ∈ resolveVariables vars c := by
      intro c
      rw [conditionMatches, List.any_eq_true]
      constructor
      · rintro ⟨raw, hraw, heq⟩
        obtain rfl : raw = value := beq_iff_eq.mp heq
        exact hraw
      · exact fun hvalue => ⟨value, hvalue, beq_self_eq_true value⟩
    rw [hmatch, hmatch] at hprobe
    exact hprobe
  · intro h rules paranoiaLevel anomalyThreshold
    have hcondition : ∀ vars operator transforms,
        conditionMatches regex vars operator transforms ctx =
          conditionMatches regex vars operator transforms ctx' := by
      intro vars operator transforms
      rw [Bool.eq_iff_iff, conditionMatches, conditionMatches, List.any_eq_true, List.any_eq_true]
      exact exists_congr fun value => and_congr_left fun _ => h vars value
    refine evaluate_congr (fun rule => ?_) paranoiaLevel anomalyThreshold rules
    simp only [ruleMatches, hcondition]

end Sees

/-! ### The lookups -/

/-- The two spellings find a header that is spelled in one of them, and nothing else. -/
theorem get?_or_eq_some {a b value : Str}
    (h : (ctx.headers.get? a).or (ctx.headers.get? b) = some value) :
    ∃ e ∈ ctx.headers.entries, e.1 ∈ [a, b] ∧ e.2 = value := by
  rcases Option.or_eq_some_iff.mp h with h | ⟨-, h⟩
  · exact ⟨(a, value), (ctx.headers.get?_eq_some_iff).mp h, by simp, rfl⟩
  · exact ⟨(b, value), (ctx.headers.get?_eq_some_iff).mp h, by simp, rfl⟩

theorem get?_or_eq_none_iff {a b : Str} :
    (ctx.headers.get? a).or (ctx.headers.get? b) = none ↔ ¬ Spelled ctx [a, b] := by
  constructor
  · rintro hnone ⟨⟨name, value⟩, he, hname⟩
    obtain ⟨ha, hb⟩ := Option.or_eq_none_iff.mp hnone
    have hget := (ctx.headers.get?_eq_some_iff).mpr he
    rcases List.mem_pair.mp hname with rfl | rfl
    · cases ha.symm.trans hget
    · cases hb.symm.trans hget
  · intro hnot
    rw [Option.eq_none_iff_forall_ne_some]
    intro value hvalue
    obtain ⟨e, he, hname, -⟩ := get?_or_eq_some hvalue
    exact hnot ⟨e, he, hname⟩

theorem fold_of_mem_cookieSpellings : ∀ name ∈ cookieSpellings,
    toAsciiLowercase name = "cookie".toList := by
  decide

/-- The cookie header, when it is spelled as it is looked up. -/
theorem cookieHeader_eq (h : CaseVariants ctx ctx') (hspelled : Spelled ctx cookieSpellings)
    {e : Str × Str} (he : e ∈ ctx.headers.entries)
    (hname : toAsciiLowercase e.1 = "cookie".toList) : cookieHeader ctx = some e.2 := by
  cases hcookie : cookieHeader ctx with
  | none => exact absurd hspelled (get?_or_eq_none_iff.mp hcookie)
  | some value =>
    obtain ⟨e', he', hname', rfl⟩ := get?_or_eq_some hcookie
    rw [h.eq_of_fold he he' (hname.trans (fold_of_mem_cookieSpellings _ hname').symm)]

/-- A cookie header without values has no names. -/
theorem parseCookieNames_eq_nil {s : Str} (h : parseCookieValues s = []) :
    parseCookieNames s = [] := by
  rw [parseCookieValues, List.filterMap_eq_nil_iff] at h
  rw [parseCookieNames, List.filterMap_eq_nil_iff]
  intro pair hpair
  have hvalue := h pair hpair
  dsimp only at hvalue ⊢
  by_cases hempty : trim pair = []
  · rw [if_pos hempty]
  · rw [if_neg hempty] at hvalue
    cases hsplit : splitOnce '=' (trim pair) with
    | none => rw [hsplit] at hvalue; cases hvalue
    | some p => rw [hsplit] at hvalue; cases hvalue

/-- What a variable with cookies reads. -/
def cookieValues (read : Str → List Str) (ctx : RequestContext) : List Str :=
  ((cookieHeader ctx).map read).getD []

theorem cookieValues_of_spelled (h : CaseVariants ctx ctx')
    (hspelled : Spelled ctx cookieSpellings) {e : Str × Str} (he : e ∈ ctx.headers.entries)
    (hname : toAsciiLowercase e.1 = "cookie".toList) (read : Str → List Str) :
    cookieValues read ctx = read e.2 := by
  rw [cookieValues, cookieHeader_eq h hspelled he hname]
  rfl

theorem cookieValues_of_not_spelled (hnot : ¬ Spelled ctx cookieSpellings)
    (read : Str → List Str) : cookieValues read ctx = [] := by
  have hnone : cookieHeader ctx = none := get?_or_eq_none_iff.mpr hnot
  rw [cookieValues, hnone]
  rfl

/-- A spelled cookie header, and its variant. -/
theorem CaseVariants.exists_cookie (h : CaseVariants ctx ctx')
    (hspelled : Spelled ctx cookieSpellings) :
    ∃ e ∈ ctx.headers.entries, ∃ e' ∈ ctx'.headers.entries,
      toAsciiLowercase e.1 = "cookie".toList ∧ toAsciiLowercase e'.1 = "cookie".toList ∧
        e'.2 = e.2 := by
  obtain ⟨e, he, hname⟩ := hspelled
  obtain ⟨e', he', hname', hvalue⟩ := h.exists_entry he
  have hfold := fold_of_mem_cookieSpellings _ hname
  exact ⟨e, he, e', he', hfold, hname'.trans hfold, hvalue⟩

/-- Requests that are spelled alike have the same cookies. -/
theorem cookieValues_eq (h : CaseVariants ctx ctx') (halike : SpelledAlike ctx ctx')
    {read : Str → List Str} (hread : ∀ s, parseCookieValues s = [] → read s = []) :
    cookieValues read ctx = cookieValues read ctx' := by
  by_cases hs : Spelled ctx cookieSpellings
  · obtain ⟨e, he, e', he', hname, hname', hvalue⟩ := h.exists_cookie hs
    rw [cookieValues_of_spelled h hs he hname]
    by_cases hs' : Spelled ctx' cookieSpellings
    · rw [cookieValues_of_spelled h.symm hs' he' hname', hvalue]
    · have hvoid := halike.cookie.resolve_left fun hiff => hs' (hiff.mp hs)
      rw [cookieValues_of_not_spelled hs', hread _ (hvoid e he hname)]
  · rw [cookieValues_of_not_spelled hs]
    by_cases hs' : Spelled ctx' cookieSpellings
    · obtain ⟨e', he', e, he, hname', hname, hvalue⟩ := h.symm.exists_cookie hs'
      have hvoid := halike.cookie.resolve_left fun hiff => hs (hiff.mpr hs')
      rw [cookieValues_of_spelled h.symm hs' he' hname', ← hvalue, hread _ (hvoid e he hname)]
    · rw [cookieValues_of_not_spelled hs']

theorem mem_requestHeader_iff {exclude : List Str} {name value : Str} :
    value ∈ resolveVariable ctx exclude (.requestHeader name) ↔
      (∃ e ∈ ctx.headers.entries, toLowercase e.1 = toLowercase name ∧ e.2 = value) ∨
        (toLowercase name = "user-agent".toList ∧ ¬ Spelled ctx agentSpellings ∧
          ctx.userAgent = some value) := by
  have habsent : (ctx.headers.get? "user-agent".toList = none ∧
      ctx.headers.get? "User-Agent".toList = none) ↔ ¬ Spelled ctx agentSpellings := by
    rw [← Option.or_eq_none_iff]
    exact get?_or_eq_none_iff
  rw [resolveVariable, List.mem_append]
  refine or_congr ?_ ?_
  · simp only [List.mem_map, List.mem_filter, beq_iff_eq, and_assoc]
  · rw [← habsent]
    by_cases hagent : toLowercase name = "user-agent".toList ∧
        ctx.headers.get? "user-agent".toList = none ∧ ctx.headers.get? "User-Agent".toList = none
    · rw [if_pos hagent, Option.mem_toList]
      exact ⟨fun hvalue => ⟨hagent.1, hagent.2, hvalue⟩, fun hall => hall.2.2⟩
    · rw [if_neg hagent]
      exact ⟨fun hnil => (by cases hnil), fun hall => absurd ⟨hall.1, hall.2.1⟩ hagent⟩

/-- Requests that are spelled alike have the same values of a single header. -/
theorem mem_requestHeader_congr (h : CaseVariants ctx ctx') (halike : SpelledAlike ctx ctx')
    {exclude : List Str} {name value : Str} :
    value ∈ resolveVariable ctx exclude (.requestHeader name) ↔
      value ∈ resolveVariable ctx' exclude (.requestHeader name) := by
  have hheaders := h.exists_iff fun lower v => lower = toLowercase name ∧ v = value
  rw [mem_requestHeader_iff, mem_requestHeader_iff, h.userAgent, ← hheaders]
  rcases halike.agent with hiff | hsaid
  · rw [hiff]
  · -- the field beside the map says nothing new
    refine (or_iff_left_of_imp ?_).trans (or_iff_left_of_imp ?_).symm
    all_goals
      rintro ⟨hname, -, hagent⟩
      obtain ⟨e, he, hlower, heq⟩ := hsaid value hagent
      exact ⟨e, he, hlower.trans hname.symm, heq⟩

/-- **Requests that are spelled alike have the same values**, of every variable. -/
theorem mem_resolveVariable_iff (h : CaseVariants ctx ctx') (halike : SpelledAlike ctx ctx')
    (exclude : List Str) (var : Variable) (value : Str) :
    value ∈ resolveVariable ctx exclude var ↔ value ∈ resolveVariable ctx' exclude var := by
  have hrest : ∀ {var : Variable}, var.fromHeaders = false →
      resolveVariable ctx' exclude var = resolveVariable ctx exclude var :=
    fun hvar => resolveVariable_congr ⟨h.method, h.path, h.query, h.body⟩ hvar exclude exclude
  cases var with
  | requestCookies =>
    have hcookies : cookieValues parseCookieValues ctx = cookieValues parseCookieValues ctx' :=
      cookieValues_eq h halike fun _ hs => hs
    show value ∈ cookieValues parseCookieValues ctx ↔ value ∈ cookieValues parseCookieValues ctx'
    rw [hcookies]
  | requestCookiesNames =>
    have hcookies := cookieValues_eq h halike fun _ => parseCookieNames_eq_nil
    show value ∈ cookieValues parseCookieNames ctx ↔ value ∈ cookieValues parseCookieNames ctx'
    rw [hcookies]
  | requestHeaders =>
    have hheaders := h.exists_iff fun lower v => (!exclude.contains lower) = true ∧ v = value
    simpa only [resolveVariable, List.mem_map, List.mem_filter, and_assoc] using hheaders
  | requestHeader name => exact mem_requestHeader_congr h halike
  | requestHeaderExclude name => rfl
  | args | argsNames | requestFilename | requestMethod | requestUri | requestBody | tx | xml =>
    rw [hrest rfl]

/-! ### What the lookups tell -/

theorem mem_resolveVariables_singleton {var : Variable} {value : Str} :
    value ∈ resolveVariables [var] ctx ↔
      value ∈ resolveVariable ctx (excludeHeaders [var]) var := by
  rw [mem_resolveVariables]
  constructor
  · rintro ⟨var', hvar', hvalue⟩
    rwa [List.mem_singleton.mp hvar'] at hvalue
  · exact fun hvalue => ⟨var, List.mem_singleton_self var, hvalue⟩

/-- Where all values are the same, the cookie lookup does not tell the requests apart. -/
theorem cookie_alike (h : CaseVariants ctx ctx')
    (hsame : ∀ vars value, value ∈ resolveVariables vars ctx ↔ value ∈ resolveVariables vars ctx') :
    (Spelled ctx cookieSpellings ↔ Spelled ctx' cookieSpellings) ∨
      ∀ e ∈ ctx.headers.entries, toAsciiLowercase e.1 = "cookie".toList →
        parseCookieValues e.2 = [] := by
  have hcookies : ∀ value, value ∈ cookieValues parseCookieValues ctx ↔
      value ∈ cookieValues parseCookieValues ctx' := by
    intro value
    have hvalue := hsame [.requestCookies] value
    rwa [mem_resolveVariables_singleton, mem_resolveVariables_singleton] at hvalue
  refine or_iff_not_imp_left.mpr fun hdiffer e he hname => ?_
  rw [List.eq_nil_iff_forall_not_mem]
  intro value hvalue
  by_cases hs : Spelled ctx cookieSpellings
  · have hs' : ¬ Spelled ctx' cookieSpellings := fun hs' => (not_iff.mp hdiffer).mpr hs' hs
    have hread := cookieValues_of_spelled h hs he hname parseCookieValues
    rw [← hread, hcookies, cookieValues_of_not_spelled hs'] at hvalue
    cases hvalue
  · have hs' : Spelled ctx' cookieSpellings := (not_iff.mp hdiffer).mp hs
    obtain ⟨e', he', hname', heq⟩ := h.exists_entry he
    have hread := cookieValues_of_spelled h.symm hs' he' (hname'.trans hname) parseCookieValues
    rw [← heq, ← hread, ← hcookies, cookieValues_of_not_spelled hs] at hvalue
    cases hvalue

/-- Nor does the lookup of the user agent. -/
theorem agent_alike (h : CaseVariants ctx ctx')
    (hsame : ∀ vars value, value ∈ resolveVariables vars ctx ↔ value ∈ resolveVariables vars ctx') :
    (Spelled ctx agentSpellings ↔ Spelled ctx' agentSpellings) ∨
      ∀ agent ∈ ctx.userAgent, ∃ e ∈ ctx.headers.entries,
        toLowercase e.1 = "user-agent".toList ∧ e.2 = agent := by
  refine or_iff_not_imp_left.mpr fun hdiffer agent hagent => ?_
  have hlower : toLowercase "user-agent".toList = "user-agent".toList := by decide
  have hheaders := h.exists_iff fun lower v => lower = "user-agent".toList ∧ v = agent
  have hvalue := hsame [.requestHeader "user-agent".toList] agent
  rw [mem_resolveVariables_singleton, mem_resolveVariables_singleton, mem_requestHeader_iff,
    mem_requestHeader_iff, hlower, h.userAgent, ← hheaders] at hvalue
  by_contra hnot
  by_cases hs : Spelled ctx agentSpellings
  · have hs' : ¬ Spelled ctx' agentSpellings := fun hs' => (not_iff.mp hdiffer).mpr hs' hs
    rcases hvalue.mpr (Or.inr ⟨rfl, hs', hagent⟩) with hheader | ⟨-, hnotSpelled, -⟩
    · exact hnot hheader
    · exact hnotSpelled hs
  · have hs' : Spelled ctx' agentSpellings := (not_iff.mp hdiffer).mp hs
    rcases hvalue.mp (Or.inr ⟨rfl, hs, hagent⟩) with hheader | ⟨-, hnotSpelled, -⟩
    · exact hnot hheader
    · exact hnotSpelled hs'

/-- **Exactly when evaluation is blind to the case** of header names: when the cookie header and the
user agent are spelled alike, as far as the lookups go, or what they say adds nothing. -/
theorem caseBlind_iff (regex : RegexNew) (h : CaseVariants ctx ctx') :
    CaseBlind regex ctx ctx' ↔ SpelledAlike ctx ctx' := by
  rw [caseBlind_iff_mem]
  constructor
  · intro hsame
    exact ⟨cookie_alike h hsame, agent_alike h hsame⟩
  · intro halike vars value
    rw [mem_resolveVariables, mem_resolveVariables]
    exact exists_congr fun var => and_congr_right fun _ =>
      mem_resolveVariable_iff h halike _ var value

/-- `GET /` with the cookie `k=v` in a header of this name. -/
def namedCookieContext (name : Str) : RequestContext := plainContext.withHeader name "k=v".toList

theorem caseVariants_namedCookie {name name' : Str}
    (h : toAsciiLowercase name' = toAsciiLowercase name) :
    CaseVariants (namedCookieContext name) (namedCookieContext name') where
  method := rfl
  path := rfl
  query := rfl
  userAgent := rfl
  body := rfl
  headers := by
    have heq : (namedCookieContext name').headers.entries.map foldEntry =
        (namedCookieContext name).headers.entries.map foldEntry :=
      congrArg (fun lower => [(lower, "k=v".toList)]) h
    rw [heq]
  distinct := List.nodup_singleton _

/-- A cookie in capitals is not seen. -/
theorem capital_cookie_unseen : ¬ ∀ (regex : RegexNew) (ctx ctx' : RequestContext),
    CaseVariants ctx ctx' → CaseBlind regex ctx ctx' := by
  intro h
  have hvariants : CaseVariants (namedCookieContext "cookie".toList)
      (namedCookieContext "COOKIE".toList) := caseVariants_namedCookie (by decide)
  have hblind := caseBlind_iff_mem.mp (h (fun _ => none) _ _ hvariants) [.requestCookies] ['v']
  exact absurd (hblind.mp (by decide)) (by decide)

/-- One in lower case and one with a capital letter in front are. -/
theorem cookie_seen : CaseBlind (fun _ => none) (namedCookieContext "cookie".toList)
    (namedCookieContext "Cookie".toList) := by
  refine (caseBlind_iff _ (caseVariants_namedCookie (by decide))).mpr ⟨Or.inl ?_, Or.inl ?_⟩
  · exact iff_of_true ⟨_, List.mem_singleton_self _, by decide⟩
      ⟨_, List.mem_singleton_self _, by decide⟩
  · refine iff_of_false ?_ ?_
    · rintro ⟨e, he, hname⟩
      obtain rfl := List.mem_singleton.mp he
      revert hname
      decide
    · rintro ⟨e, he, hname⟩
      obtain rfl := List.mem_singleton.mp he
      revert hname
      decide

end Crs

end Fywaf
