import Fywaf.Crs.Parser

/-!
# Configuration files

`parse_str` goes through the logical lines of a file with a stack of rules whose chain is open. A
rule that carries `chain` waits there for the rules that are chained onto it, until one of them
does not carry `chain` or another directive comes.

## Main definitions

* `Crs.joinContinuations`
* `Crs.ParseState`, `Crs.flushChain`, `Crs.parseRule`, `Crs.parseLine`
* `Crs.parseStr`
-/

namespace Fywaf

namespace Crs

/-! ### Logical lines -/

/-- The logical lines, given what is joined so far. -/
def joinLines : Str → List Str → List Str
  | current, [] => if current = [] then [] else [current]
  | current, line :: rest =>
    if line.getLast? = some '\\' then joinLines (current ++ line.dropLast ++ [' ']) rest
    else (current ++ line) :: joinLines [] rest

theorem joinLines_nil (current : Str) :
    joinLines current [] = if current = [] then [] else [current] := rfl

theorem joinLines_cons (current line : Str) (rest : List Str) :
    joinLines current (line :: rest) =
      if line.getLast? = some '\\' then joinLines (current ++ line.dropLast ++ [' ']) rest
      else (current ++ line) :: joinLines [] rest := rfl

/-- Physical lines that end with a backslash are joined with the next. -/
def joinContinuations (input : Str) : List Str := joinLines [] (lines input)

/-! ### The loop -/

/-- The rule that stands for a `SecMarker`. -/
def markerRule (marker : Str) : Rule where
  id := 0
  phase := .two
  vars := []
  operator := .pass
  transforms := []
  action := .pass
  msg := none
  tags := []
  severity := none
  chained := []
  skipAfter := some marker
  anomalyScore := none
  paranoiaLevel := 0

/-- What is left of a rule that is chained onto another. -/
def Rule.link (rule : Rule) : ChainedRule := ⟨rule.vars, rule.operator, rule.transforms⟩

/-- A rule with one more chained onto it. -/
def Rule.addLink (rule : Rule) (link : ChainedRule) : Rule :=
  { rule with chained := rule.chained ++ [link] }

/-- The variables of the loop. The top of the stack comes first. -/
structure ParseState where
  rules : List Rule
  chainStack : List Rule

/-- The pending rules are emitted, from the top of the stack. -/
def flushChain (st : ParseState) : ParseState := ⟨st.rules ++ st.chainStack, []⟩

/-- A rule is emitted, opens a chain, or is chained onto the top of the stack. -/
def parseRule (st : ParseState) (rule : Rule) (isChain : Bool) : ParseState :=
  match st.chainStack with
  | [] => if isChain then ⟨st.rules, [rule]⟩ else ⟨st.rules ++ [rule], []⟩
  | top :: stack =>
    let st' : ParseState := ⟨st.rules, top.addLink rule.link :: stack⟩
    if isChain then st' else flushChain st'

/-- The name in a `SecMarker` line. -/
def markerName (rest : Str) : Str := trim (trimMatches (· == '"') (trim rest))

/-- The loop body. -/
def parseLine (st : ParseState) (line : Str) : Except Panic ParseState :=
  let trimmed := trim line
  if trimmed = [] ∨ trimmed.head? = some '#' then .ok st
  else
    match stripPrefix "SecMarker".toList trimmed with
    | some rest =>
      let st := flushChain st
      .ok ⟨st.rules ++ [markerRule (markerName rest)], st.chainStack⟩
    | none =>
      match stripPrefix "SecRule".toList trimmed with
      | some rest =>
        match parseSecrule (trim rest) with
        | .error e => .error e
        | .ok (some (rule, isChain)) => .ok (parseRule st rule isChain)
        -- a line that cannot be parsed is skipped, and the chain stays open
        | .ok none => .ok st
      | none => .ok (flushChain st)

/-- The loop. -/
def parseLines : ParseState → List Str → Except Panic ParseState
  | st, [] => .ok st
  | st, line :: lines =>
    match parseLine st line with
    | .error e => .error e
    | .ok st => parseLines st lines

/-- `parse_str`. -/
def parseStr (input : Str) : Except Panic (List Rule) :=
  match parseLines ⟨[], []⟩ (joinContinuations input) with
  | .error e => .error e
  | .ok st => .ok (flushChain st).rules

end Crs

end Fywaf
