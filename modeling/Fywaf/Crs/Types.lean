import Fywaf.Std.Utf8

/-!
# Rules

The data the rule parser produces and the engine evaluates. Every field and every constructor of
the source is here, in its order; machine integers keep their width.

## Main definitions

* `Crs.Variable`, `Crs.Operator`, `Crs.Transform`, `Crs.Action`, `Crs.Phase`, `Crs.Severity`
* `Crs.Rule`, `Crs.ChainedRule`
-/

namespace Fywaf

namespace Crs

/-- Request variables that can be inspected. -/
inductive Variable
  | args
  | argsNames
  | requestCookies
  | requestCookiesNames
  | requestFilename
  | requestHeaders
  | requestHeader (name : Str)
  | requestHeaderExclude (name : Str)
  | requestMethod
  | requestUri
  | requestBody
  | tx (name : Str)
  | xml
  deriving DecidableEq, Repr

/-- The matching operator. -/
inductive Operator
  | rx (pattern : Str)
  | pm (words : List Str)
  | pmFromFile (phrases : Str)
  | contains (s : Str)
  | beginsWith (s : Str)
  | endsWith (s : Str)
  | streq (s : Str)
  | lt (n : Int64)
  | le (n : Int64)
  | ge (n : Int64)
  | gt (n : Int64)
  | within (list : List Str)
  | validateByteRange (ranges : Str)
  | detectXss
  | detectSqli
  | negated (inner : Operator)
  | pass
  | unsupported (name : Str)
  deriving DecidableEq, Repr

/-- What to do when all conditions match. -/
inductive Action
  | block
  | pass
  deriving DecidableEq, Repr

/-- Request processing phase. -/
inductive Phase
  | one
  | two
  | three
  | four
  | five
  deriving DecidableEq, Repr

/-- Transform applied to a value before matching. -/
inductive Transform
  | lowercase
  | urlDecodeUni
  | htmlEntityDecode
  | jsDecode
  | cssDecode
  | removeNulls
  | removeWhitespace
  | compressWhitespace
  | utf8toUnicode
  | none
  | other (name : Str)
  deriving DecidableEq, Repr

/-- Severity level. -/
inductive Severity
  | emergency
  | alert
  | critical
  | error
  | warning
  | notice
  | info
  | debug
  deriving DecidableEq, Repr

/-- A chained rule node: no id of its own. -/
structure ChainedRule where
  vars : List Variable
  operator : Operator
  transforms : List Transform
  deriving DecidableEq, Repr

/-- A single `SecRule` directive with the rules chained after it, or a `SecMarker`, which has id
`0` and its name in `skipAfter`. -/
structure Rule where
  id : UInt32
  phase : Phase
  vars : List Variable
  operator : Operator
  transforms : List Transform
  action : Action
  msg : Option Str
  tags : List Str
  severity : Option Severity
  chained : List ChainedRule
  skipAfter : Option Str
  anomalyScore : Option UInt32
  paranoiaLevel : UInt8
  deriving DecidableEq, Repr

end Crs

end Fywaf
