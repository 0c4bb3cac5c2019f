import Fywaf.Crs.Operators
import Fywaf.Std.Map

/-!
# The rule engine

`evaluate` runs over the rules once, carrying the anomaly score, the marker a jump is waiting for
and the first blocking rule. The source reads the loop state from local variables; here it is a
record, and one pass of the loop body is `step`, which either goes on or returns.

## Main definitions

* `Crs.RequestContext`, `Crs.resolveVariables`
* `Crs.conditionMatches`, `Crs.ruleMatches`
* `Crs.EvalState`, `Crs.step`, `Crs.evalLoop`, `Crs.evaluate`
-/

namespace Fywaf

namespace Crs

/-! ### URL-encoded and cookie parameters -/

def urlDecodeScanner : Scanner UInt8 Char where
  step b l :=
    if b = byte '+' then ([' '], l) else emitOr b l (if b = byte '%' then byteEscape l else none)
  le b l := by
    split
    · exact Nat.le_refl _
    · refine emitOr_le fun x rest h => ?_
      split at h
      · exact byteEscape_le h
      · cases h

/-- Minimal `%XX` URL decoding, with `+` for a space. -/
def urlDecodeSimple (s : Str) : Str := urlDecodeScanner.run (asBytes s)

/-- The values of `key=value&key2=value2`; a pair without `=` is a value. -/
def parseUrlencodedValues (s : Str) : List Str :=
  (s.splitOn '&').filterMap fun pair =>
    if pair = [] then none
    else
      match splitOnce '=' pair with
      | some (_, v) => some (urlDecodeSimple v)
      | none => some (urlDecodeSimple pair)

/-- The names of `key=value&key2=value2`; a pair without `=` has none. -/
def parseUrlencodedNames (s : Str) : List Str :=
  (s.splitOn '&').filterMap fun pair =>
    if pair = [] then none
    else
      match splitOnce '=' pair with
      | some (k, _) => some (urlDecodeSimple k)
      | none => none

/-- The values of a `name=value; name2=value2` cookie header. -/
def parseCookieValues (s : Str) : List Str :=
  (s.splitOn ';').filterMap fun pair =>
    let pair := trim pair
    if pair = [] then none
    else
      match splitOnce '=' pair with
      | some (_, v) => some (trim v)
      | none => some pair

/-- The names of a `name=value; name2=value2` cookie header. -/
def parseCookieNames (s : Str) : List Str :=
  (s.splitOn ';').filterMap fun pair =>
    let pair := trim pair
    if pair = [] then none
    else
      match splitOnce '=' pair with
      | some (k, _) => some (trim k)
      | none => none

/-! ### Variable resolution -/

/-- The request as the rules see it. -/
structure RequestContext where
  method : Str
  path : Str
  query : Option Str
  userAgent : Option Str
  headers : BTreeMap Str Str
  body : Option Str

/-- The cookie header, under either of the two spellings that are tried. -/
def cookieHeader (ctx : RequestContext) : Option Str :=
  (ctx.headers.get? "cookie".toList).or (ctx.headers.get? "Cookie".toList)

/-- The first pass: the names of excluded headers, in lower case. -/
def excludeHeaders (vars : List Variable) : List Str :=
  vars.filterMap fun
    | .requestHeaderExclude name => some (toLowercase name)
    | _ => none

/-- The values of one variable, given the excluded header names. -/
def resolveVariable (ctx : RequestContext) (exclude : List Str) : Variable → List Str
  | .args =>
    (ctx.query.map parseUrlencodedValues).getD [] ++ (ctx.body.map parseUrlencodedValues).getD []
  | .argsNames =>
    (ctx.query.map parseUrlencodedNames).getD [] ++ (ctx.body.map parseUrlencodedNames).getD []
  | .requestCookies => ((cookieHeader ctx).map parseCookieValues).getD []
  | .requestCookiesNames => ((cookieHeader ctx).map parseCookieNames).getD []
  | .requestFilename => [ctx.path]
  | .requestHeaders =>
    (ctx.headers.entries.filter fun (name, _) => !exclude.contains (toLowercase name)).map Prod.snd
  | .requestHeader name =>
    let nameLc := toLowercase name
    (ctx.headers.entries.filter fun (hname, _) => toLowercase hname == nameLc).map Prod.snd ++
      -- the user agent the host passed beside the map, unless the map has it
      (if nameLc = "user-agent".toList ∧ ctx.headers.get? "user-agent".toList = none ∧
          ctx.headers.get? "User-Agent".toList = none then
        ctx.userAgent.toList
      else [])
  | .requestHeaderExclude _ => []
  | .requestMethod => [ctx.method]
  | .requestUri =>
    match ctx.query with
    | some q => [ctx.path ++ '?' :: q]
    | none => [ctx.path]
  | .requestBody => ctx.body.toList
  | .tx _ => [[]]
  | .xml => []

/-- Resolve a list of variables to a flat list of values: exclusions first, then values in the
order of the variables. -/
def resolveVariables (vars : List Variable) (ctx : RequestContext) : List Str :=
  vars.flatMap (resolveVariable ctx (excludeHeaders vars))

/-! ### Rule matching -/

section Matching

variable (regex : RegexNew)

/-- Some resolved value, transformed, satisfies the operator. -/
def conditionMatches (vars : List Variable) (operator : Operator) (transforms : List Transform)
    (ctx : RequestContext) : Bool :=
  (resolveVariables vars ctx).any fun raw =>
    operatorMatches regex operator (applyTransforms raw transforms)

/-- The rule's own condition and every chained one. -/
def ruleMatches (rule : Rule) (ctx : RequestContext) : Bool :=
  conditionMatches regex rule.vars rule.operator rule.transforms ctx &&
    rule.chained.all fun chained =>
      conditionMatches regex chained.vars chained.operator chained.transforms ctx

end Matching

/-! ### The evaluation loop -/

/-- `u32::saturating_add`. -/
def saturatingAdd (a b : UInt32) : UInt32 := UInt32.ofNat (min (a.toNat + b.toNat) (2 ^ 32 - 1))

/-- The variables of the loop. -/
structure EvalState where
  anomalyScore : UInt32
  skipUntil : Option Str
  blockingRule : Option (UInt32 × Str)
  deriving DecidableEq

/-- The state before the first rule. -/
def EvalState.init : EvalState := ⟨0, none, none⟩

/-- One pass of the loop body goes on with a new state or returns from `evaluate`. -/
inductive Flow
  | next (st : EvalState)
  | ret (blocking : Option (UInt32 × Str))
  deriving DecidableEq

/-- The message a rule blocks with. -/
def Rule.message (rule : Rule) : Str :=
  rule.msg.getD ("Rule ".toList ++ decimal rule.id.toNat ++ " matched".toList)

/-- The score a blocking rule adds: CRITICAL unless it declares one. -/
def Rule.score (rule : Rule) : UInt32 := rule.anomalyScore.getD 5

/-- The rule is switched off at this paranoia level. -/
def Rule.filtered (rule : Rule) (paranoiaLevel : UInt8) : Bool :=
  rule.paranoiaLevel > 0 && rule.paranoiaLevel > paranoiaLevel

section Evaluate

variable (regex : RegexNew) (ctx : RequestContext) (paranoiaLevel : UInt8)
  (anomalyThreshold : UInt32)

/-- What a matching rule does. -/
def onMatch (st : EvalState) (rule : Rule) : Flow :=
  match rule.action with
  | .pass =>
    match rule.skipAfter with
    | some marker => .next { st with skipUntil := some marker }
    | none => .next st
  | .block =>
    let score := saturatingAdd st.anomalyScore rule.score
    let blocking := st.blockingRule.or (some (rule.id, rule.message))
    if anomalyThreshold ≤ score then .ret blocking
    else .next { st with anomalyScore := score, blockingRule := blocking }

/-- The loop body. -/
def step (st : EvalState) (rule : Rule) : Flow :=
  if rule.id = 0 then
    -- a marker ends the jump that waits for it and does nothing else
    if st.skipUntil.isSome ∧ rule.skipAfter = st.skipUntil then .next { st with skipUntil := none }
    else .next st
  else if st.skipUntil.isSome then .next st
  else if rule.filtered paranoiaLevel then .next st
  else if ruleMatches regex rule ctx then onMatch anomalyThreshold st rule
  else .next st

/-- The loop over the rules that are left. -/
def evalLoop : EvalState → List Rule → Option (UInt32 × Str)
  | _, [] => none
  | st, rule :: rules =>
    match step regex ctx paranoiaLevel anomalyThreshold st rule with
    | .next st' => evalLoop st' rules
    | .ret blocking => blocking

/-- Evaluate all rules against the request: the first blocking rule when the anomaly score
reaches the threshold. -/
def evaluate (rules : List Rule) : Option (UInt32 × Str) :=
  evalLoop regex ctx paranoiaLevel anomalyThreshold EvalState.init rules

end Evaluate

end Crs

end Fywaf
