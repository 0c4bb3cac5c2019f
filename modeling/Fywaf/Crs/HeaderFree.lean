import Fywaf.Crs.Entries
import Fywaf.Crs.Unevaluable
import Fywaf.Crs.Variables

/-!
# Rules that do not speak of headers

A rule whose variables name neither headers nor cookies should not care what headers a client
sends. But to the parser every name that it does not know is a header, so a rule about, say, the
remote address reads a header of that name instead.

## Main definitions

* `Crs.variableParts` — the parts of the variables field
* `Crs.NamesHeaders`, `Crs.NamesKnown` — what a part names
* `Crs.HeadersIrrelevant` — the condition of a rule is the same under all headers

## Main results

* `Crs.parseVariable_spec` — a part that names no header is a known variable or a header after all
* `Crs.headersIrrelevant_iff` — exactly when headers are irrelevant
-/

namespace Fywaf

namespace Crs

/-! ### The parts of the variables field -/

/-- The parts of the variables field of a `SecRule` body. -/
def variableParts (input : Str) : List Str :=
  match secruleFields input with
  | .ok (some (varsStr, _, _)) => (varsStr.splitOn '|').map trim
  | _ => []

/-- The name in a part, behind the exclamation mark, in upper case. -/
def partName (part : Str) : Str := toUppercase ((stripPrefix ['!'] part).getD part)

/-- The part names headers or cookies. -/
def NamesHeaders (part : Str) : Prop :=
  "REQUEST_HEADERS".toList <+: partName part ∨ "REQUEST_COOKIES".toList <+: partName part

/-- The names that the parser knows, without headers and cookies. -/
def knownNames : List Str :=
  ["ARGS".toList, "ARGS_NAMES".toList, "REQUEST_FILENAME".toList, "REQUEST_METHOD".toList,
    "REQUEST_URI".toList, "REQUEST_URI_RAW".toList, "REQUEST_BODY".toList,
    "REQUEST_BODY_RAW".toList]

/-- The part names a variable that the parser knows and that is neither headers nor cookies. -/
def NamesKnown (part : Str) : Prop :=
  partName part ∈ knownNames ∨ "TX:".toList <+: partName part ∨ "XML:".toList <+: partName part

/-- The values of the variable depend on the headers. -/
def Variable.fromHeaders : Variable → Bool
  | .requestCookies => true
  | .requestCookiesNames => true
  | .requestHeaders => true
  | .requestHeader _ => true
  | .requestHeaderExclude _ => true
  | _ => false

/-- **A part that names no header** is a known variable, or a header of that name after all. -/
theorem parseVariable_spec {part : Str} {var : Variable} (h : parseVariable part = .ok var)
    (hpart : ¬ NamesHeaders part) :
    (NamesKnown part ∧ var.fromHeaders = false) ∨
      (¬ NamesKnown part ∧ ∃ name, var = .requestHeader name) := by
  have hcase := variableCase part
  rw [h, show toUppercase (variableName part) = partName part from rfl] at hcase
  have hheaders : ¬ "REQUEST_HEADERS:".toList <+: partName part := fun hword =>
    have hshort : "REQUEST_HEADERS".toList <+: "REQUEST_HEADERS:".toList := by decide
    hpart (Or.inl (hshort.trans hword))
  generalize hr : (Except.ok var : Except Panic Variable) = r at hcase
  cases hcase with
  | @known var' hmem =>
    obtain rfl := Except.ok.inj hr
    have htable : ∀ e ∈ knownVariables, "REQUEST_HEADERS".toList <+: e.1 ∨
        "REQUEST_COOKIES".toList <+: e.1 ∨ (e.1 ∈ knownNames ∧ e.2.fromHeaders = false) := by
      decide
    rcases htable _ hmem with hheader | hcookie | ⟨hknown, hfree⟩
    · exact absurd (Or.inl hheader) hpart
    · exact absurd (Or.inr hcookie) hpart
    · exact Or.inl ⟨Or.inl hknown, hfree⟩
  | header hword => exact absurd hword hheaders
  | tx htx =>
    obtain ⟨name, -, rfl⟩ := map_eq_ok_iff.mp hr.symm
    exact Or.inl ⟨Or.inr (Or.inl htx), rfl⟩
  | xml hxml =>
    obtain rfl := Except.ok.inj hr
    exact Or.inl ⟨Or.inr (Or.inr hxml), rfl⟩
  | unknown hknown _ htx hxml =>
    obtain rfl := Except.ok.inj hr
    refine Or.inr ⟨?_, _, rfl⟩
    have hsub : ∀ w ∈ knownNames, ∃ e ∈ knownVariables, w = e.1 := by decide
    rintro (hmem | htx' | hxml')
    · obtain ⟨e, he, heq⟩ := hsub _ hmem
      exact hknown e he heq
    · exact htx htx'
    · exact hxml hxml'

/-- Every variable of a rule is one of its parts. -/
theorem parts_spec {input : Str} {rule : Rule} {isChain : Bool}
    (h : parseSecrule input = .ok (some (rule, isChain))) :
    List.Forall₂ (fun part var => parseVariable part = .ok var)
      (variableParts input) rule.vars := by
  obtain ⟨varsStr, opStr, actionsRaw, vars, hfields, hvars, hrule⟩ := parseSecrule_eq_some_iff.mp h
  obtain rfl : rule = (buildRule vars opStr actionsRaw).1 := congrArg Prod.fst hrule
  rw [variableParts, hfields]
  exact List.forall₂_map_left_iff.mpr (mapM_eq_ok_iff.mp hvars)

/-! ### Two requests that differ in their headers -/

/-- The two requests differ in headers and user agent only. -/
structure SameButHeaders (ctx ctx' : RequestContext) : Prop where
  method : ctx'.method = ctx.method
  path : ctx'.path = ctx.path
  query : ctx'.query = ctx.query
  body : ctx'.body = ctx.body

/-- A variable that does not depend on the headers has the same values. -/
theorem resolveVariable_congr {ctx ctx' : RequestContext} (h : SameButHeaders ctx ctx')
    {var : Variable} (hvar : var.fromHeaders = false) (exclude exclude' : List Str) :
    resolveVariable ctx' exclude' var = resolveVariable ctx exclude var := by
  cases var with
  | requestCookies | requestCookiesNames | requestHeaders => cases hvar
  | requestHeader name | requestHeaderExclude name => cases hvar
  | args => rw [resolveVariable, resolveVariable, h.query, h.body]
  | argsNames => rw [resolveVariable, resolveVariable, h.query, h.body]
  | requestFilename => rw [resolveVariable, resolveVariable, h.path]
  | requestMethod => rw [resolveVariable, resolveVariable, h.method]
  | requestUri => rw [resolveVariable, resolveVariable, h.query, h.path]
  | requestBody => rw [resolveVariable, resolveVariable, h.body]
  | tx name => rfl
  | xml => rfl

section Irrelevant

variable (regex : RegexNew) (rule : Rule)

/-- The operator of the rule accepts the value, transformed. -/
def Accepts (value : Str) : Prop :=
  operatorMatches regex rule.operator (applyTransforms value rule.transforms) = true

/-- The rule accepts a value of a variable that does not depend on the headers. -/
def AcceptsOther (ctx : RequestContext) : Prop :=
  ∃ var ∈ rule.vars, var.fromHeaders = false ∧
    ∃ value ∈ resolveVariable ctx [] var, Accepts regex rule value

/-- The condition of the rule is the same for any two requests that differ in headers only. -/
def HeadersIrrelevant : Prop :=
  ∀ ctx ctx', SameButHeaders ctx ctx' →
    conditionMatches regex rule.vars rule.operator rule.transforms ctx =
      conditionMatches regex rule.vars rule.operator rule.transforms ctx'

variable {regex rule}

theorem conditionMatches_iff {ctx : RequestContext} :
    conditionMatches regex rule.vars rule.operator rule.transforms ctx = true ↔
      ∃ var ∈ rule.vars, ∃ value ∈ resolveVariable ctx (excludeHeaders rule.vars) var,
        Accepts regex rule value := by
  simp only [conditionMatches, resolveVariables, List.any_eq_true, List.mem_flatMap, Accepts]
  constructor
  · rintro ⟨value, ⟨var, hvar, hvalue⟩, haccept⟩
    exact ⟨var, hvar, value, hvalue, haccept⟩
  · rintro ⟨var, hvar, value, hvalue, haccept⟩
    exact ⟨value, ⟨var, hvar, hvalue⟩, haccept⟩

theorem conditionMatches_of_acceptsOther {ctx : RequestContext} (h : AcceptsOther regex rule ctx) :
    conditionMatches regex rule.vars rule.operator rule.transforms ctx = true := by
  obtain ⟨var, hvar, hother, value, hvalue, haccept⟩ := h
  refine conditionMatches_iff.mpr ⟨var, hvar, value, ?_, haccept⟩
  rwa [resolveVariable_congr ⟨rfl, rfl, rfl, rfl⟩ hother [] (excludeHeaders rule.vars)]

/-- The request with this one header and no user agent. -/
def RequestContext.withHeader (ctx : RequestContext) (name value : Str) : RequestContext :=
  { ctx with headers := BTreeMap.empty.insert name value, userAgent := none }

/-- The request without headers. -/
def RequestContext.withoutHeaders (ctx : RequestContext) : RequestContext :=
  { ctx with headers := .empty, userAgent := none }

theorem mem_resolve_withHeader (ctx : RequestContext) (exclude : List Str) (name value : Str) :
    value ∈ resolveVariable (ctx.withHeader name value) exclude (.requestHeader name) := by
  rw [resolveVariable]
  refine List.mem_append_left _ (List.mem_map.mpr ⟨(name, value), ?_, rfl⟩)
  exact List.mem_filter.mpr ⟨List.mem_singleton.mpr rfl, beq_self_eq_true (toLowercase name)⟩

theorem resolve_withoutHeaders (ctx : RequestContext) (exclude : List Str) (name : Str) :
    resolveVariable ctx.withoutHeaders exclude (.requestHeader name) = [] := by
  rw [resolveVariable]
  exact ite_self []

/-- **Exactly when headers are irrelevant** to a rule that names none: when the parser knows all
its variables, or the rule accepts nothing at all, or it accepts something else in every request. -/
theorem headersIrrelevant_iff {input : Str} {isChain : Bool}
    (hrule : parseSecrule input = .ok (some (rule, isChain)))
    (hparts : ∀ part ∈ variableParts input, ¬ NamesHeaders part) :
    HeadersIrrelevant regex rule ↔ (∀ part ∈ variableParts input, NamesKnown part) ∨
      (∀ value, ¬ Accepts regex rule value) ∨ ∀ ctx, AcceptsOther regex rule ctx := by
  have hspec := parts_spec hrule
  constructor
  · intro h
    by_contra hnot
    push Not at hnot
    obtain ⟨⟨part, hpart, hunknown⟩, ⟨value, haccept⟩, ctx, hother⟩ := hnot
    -- the header that the unknown name has become, absent and with a value that is accepted
    obtain ⟨var, hvar, hparse⟩ := exists_of_forall₂_left hspec hpart
    obtain ⟨name, rfl⟩ : ∃ name, var = .requestHeader name := by
      rcases parseVariable_spec hparse (hparts part hpart) with ⟨hknown, -⟩ | ⟨-, hname⟩
      · exact absurd hknown hunknown
      · exact hname
    have hwith : conditionMatches regex rule.vars rule.operator rule.transforms
        (ctx.withHeader name value) = true :=
      conditionMatches_iff.mpr ⟨_, hvar, value, mem_resolve_withHeader ctx _ name value, haccept⟩
    rw [h (ctx.withHeader name value) ctx.withoutHeaders ⟨rfl, rfl, rfl, rfl⟩,
      conditionMatches_iff] at hwith
    obtain ⟨var', hvar', value', hvalue', haccept'⟩ := hwith
    obtain ⟨part', hpart', hparse'⟩ := exists_of_forall₂_right hspec hvar'
    rcases parseVariable_spec hparse' (hparts part' hpart') with ⟨-, hfree⟩ | ⟨-, name', rfl⟩
    · rw [@resolveVariable_congr ctx ctx.withoutHeaders ⟨rfl, rfl, rfl, rfl⟩ _ hfree []] at hvalue'
      exact hother ⟨var', hvar', hfree, value', hvalue', haccept'⟩
    · rw [resolve_withoutHeaders] at hvalue'
      cases hvalue'
  · rintro (hknown | hnever | halways) ctx ctx' hsame
    · have hfree : ∀ var ∈ rule.vars, var.fromHeaders = false := by
        intro var hvar
        obtain ⟨part, hpart, hparse⟩ := exists_of_forall₂_right hspec hvar
        rcases parseVariable_spec hparse (hparts part hpart) with ⟨-, hfree⟩ | ⟨hunknown, -⟩
        · exact hfree
        · exact absurd (hknown part hpart) hunknown
      rw [Bool.eq_iff_iff, conditionMatches_iff, conditionMatches_iff]
      refine exists_congr fun var => and_congr_right fun hvar => ?_
      rw [resolveVariable_congr hsame (hfree var hvar) _ (excludeHeaders rule.vars)]
    · have hfalse : ∀ ctx,
          conditionMatches regex rule.vars rule.operator rule.transforms ctx = false := by
        intro ctx
        rw [← Bool.not_eq_true, conditionMatches_iff]
        rintro ⟨var, -, value, -, haccept⟩
        exact hnever value haccept
      rw [hfalse, hfalse]
    · rw [conditionMatches_of_acceptsOther (halways ctx),
        conditionMatches_of_acceptsOther (halways ctx')]

/-- A rule about the remote address. -/
def remoteText : Str := "REMOTE_ADDR \"@streq 1\" \"id:1,phase:2,deny\"".toList

/-- A client that sends the header decides whether the rule matches. -/
theorem remote_steered : ¬ ∀ (regex : RegexNew) (input : Str) (rule : Rule) (isChain : Bool),
    parseSecrule input = .ok (some (rule, isChain)) →
    (∀ part ∈ variableParts input, ¬ NamesHeaders part) → HeadersIrrelevant regex rule := by
  intro h
  have hrun : (parseSecrule remoteText).toOption.map (Option.map fun r =>
      (conditionMatches (fun _ => none) r.1.vars r.1.operator r.1.transforms plainContext,
        conditionMatches (fun _ => none) r.1.vars r.1.operator r.1.transforms
          (plainContext.withHeader "remote_addr".toList ['1']))) = some (some (false, true)) := by
    decide +kernel
  obtain ⟨r, hr, hrun⟩ := map_toOption_eq_some_iff.mp hrun
  obtain ⟨⟨rule, isChain⟩, rfl, hrun⟩ := Option.map_eq_some_iff.mp hrun
  have hparts : ∀ part ∈ variableParts remoteText, ¬ NamesHeaders part := by
    have hlist : variableParts remoteText = ["REMOTE_ADDR".toList] := by decide
    rw [hlist]
    intro part hpart
    rw [List.mem_singleton.mp hpart, NamesHeaders]
    decide
  have hsame := h (fun _ => none) remoteText rule isChain hr hparts
    plainContext (plainContext.withHeader "remote_addr".toList ['1']) ⟨rfl, rfl, rfl, rfl⟩
  obtain ⟨hbare, hwith⟩ := Prod.mk.inj (Option.some.inj hrun)
  rw [hbare, hwith] at hsame
  cases hsame

/-- A rule about the arguments. -/
def argsText : Str := "ARGS \"@streq 1\" \"id:1,phase:2,deny\"".toList

/-- To it headers are irrelevant. -/
theorem args_irrelevant : ∃ rule isChain, parseSecrule argsText = .ok (some (rule, isChain)) ∧
    HeadersIrrelevant (fun _ => none) rule := by
  have hrun : (parseSecrule argsText).toOption.map Option.isSome = some true := by decide
  obtain ⟨r, hr, hsome⟩ := map_toOption_eq_some_iff.mp hrun
  obtain ⟨⟨rule, isChain⟩, rfl⟩ := Option.isSome_iff_exists.mp hsome
  have hlist : variableParts argsText = ["ARGS".toList] := by decide
  have hparts : ∀ part ∈ variableParts argsText, ¬ NamesHeaders part := by
    rw [hlist]
    intro part hpart
    rw [List.mem_singleton.mp hpart, NamesHeaders]
    decide
  refine ⟨rule, isChain, hr, (headersIrrelevant_iff hr hparts).mpr (Or.inl ?_)⟩
  rw [hlist]
  intro part hpart
  rw [List.mem_singleton.mp hpart, NamesKnown]
  decide

end Irrelevant

end Crs

end Fywaf
