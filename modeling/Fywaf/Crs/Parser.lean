import Fywaf.Crs.Transforms

/-!
# Rules in a configuration file

The body of a `SecRule` line: variables, operator and actions, `VARIABLES OPERATOR "ACTIONS"`. The
source works with byte offsets into the text; a slice that would cut a character in two is a
panic, so what slices is in `Except Panic`. Quotes and commas are found byte by byte.

## Main definitions

* `Crs.findLastQuotedBlockStart`, `Crs.findClosingQuote`, `Crs.splitFirstWs`
* `Crs.parseVariables`, `Crs.parseOperator`, `Crs.parseActions`
* `Crs.parseSecrule`
-/

namespace Fywaf

namespace Crs

/-! ### Quotes and blanks -/

/-- The opening quote at or left of a position, one with an even number of backslashes before. -/
def scanOpeningQuote (bytes : Bytes) : ℕ → Option ℕ
  | 0 => none
  | i + 1 =>
    let backslashes := ((bytes.take i).reverse.takeWhile (· == byte '\\')).length
    if bytes[i]? = some (byte '"') ∧ backslashes % 2 = 0 then some i
    else scanOpeningQuote bytes i

/-- `rposition`: the last position of a byte. -/
def lastPosition (b : UInt8) (bytes : Bytes) : Option ℕ :=
  (bytes.reverse.findIdx? (· == b)).map (bytes.length - 1 - ·)

/-- The opening quote of the last quoted block. -/
def findLastQuotedBlockStart (s : Str) : Option ℕ :=
  (lastPosition (byte '"') (asBytes s)).bind (scanOpeningQuote (asBytes s))

/-- The first quote from position `i` on, a backslash hiding the byte behind it. -/
def closingQuoteFrom : ℕ → Bytes → Option ℕ
  | _, [] => none
  | i, [b] => if b = byte '"' then some i else none
  | i, b :: c :: rest =>
    if b = byte '\\' then closingQuoteFrom (i + 2) rest
    else if b = byte '"' then some i
    else closingQuoteFrom (i + 1) (c :: rest)

/-- The closing quote of a text behind its opening quote. -/
def findClosingQuote (s : Str) : Option ℕ := closingQuoteFrom 0 (asBytes s)

/-- The texts on both sides of the first blank. -/
def splitFirstWs (s : Str) : Option (Str × Str) :=
  match s.dropWhile fun c => !isAsciiWhitespace c with
  | [] => none
  | _ :: right => some (s.takeWhile fun c => !isAsciiWhitespace c, trimStart right)

/-! ### Variables -/

/-- One variable; a name that is not known is a header. -/
def parseVariable (s : Str) : Except Panic Variable :=
  let negated := s.head? == some '!'
  let s := (stripPrefix ['!'] s).getD s
  let upper := toUppercase s
  if upper = "ARGS".toList then .ok .args
  else if upper = "ARGS_NAMES".toList then .ok .argsNames
  else if upper = "REQUEST_COOKIES".toList then .ok .requestCookies
  else if upper = "REQUEST_COOKIES_NAMES".toList then .ok .requestCookiesNames
  else if upper = "REQUEST_FILENAME".toList then .ok .requestFilename
  else if upper = "REQUEST_HEADERS".toList then .ok .requestHeaders
  else if "REQUEST_HEADERS:".toList.isPrefixOf upper then
    -- the offset is one into the upper case, the slice one of the text as it stands
    (sliceFrom s 16).map fun name =>
      if negated then .requestHeaderExclude name else .requestHeader name
  else if upper = "REQUEST_METHOD".toList then .ok .requestMethod
  else if upper = "REQUEST_URI".toList ∨ upper = "REQUEST_URI_RAW".toList then .ok .requestUri
  else if upper = "REQUEST_BODY".toList ∨ upper = "REQUEST_BODY_RAW".toList then .ok .requestBody
  else if "TX:".toList.isPrefixOf upper then (sliceFrom s 3).map .tx
  else if "XML:".toList.isPrefixOf upper then .ok .xml
  else .ok (.requestHeader s)

/-- Variables with bars between. -/
def parseVariables (s : Str) : Except Panic (List Variable) :=
  (s.splitOn '|').mapM fun part => parseVariable (trim part)

/-! ### Operators -/

/-- Name and argument of an operator; without a name it is `rx`. -/
def operatorName (s : Str) : Str × Str :=
  match s with
  | '@' :: rest =>
    match rest.dropWhile fun c => !isAsciiWhitespace c with
    | [] => (rest, [])
    | _ :: arg => (rest.takeWhile fun c => !isAsciiWhitespace c, trim arg)
  | s => ("rx".toList, s)

/-- An operator with a name and an argument, with blanks between. -/
theorem operatorName_at {word : Str} (hword : ∀ c ∈ word, isAsciiWhitespace c = false)
    {sep : Char} (hsep : isAsciiWhitespace sep = true) (arg : Str) :
    operatorName ('@' :: (word ++ sep :: arg)) = (word, trim arg) := by
  have hall : ∀ c ∈ word, (!isAsciiWhitespace c) = true := fun c hc => by rw [hword c hc]; rfl
  have hstop : ¬ (!isAsciiWhitespace sep) = true := by simp [hsep]
  have hdrop : (word ++ sep :: arg).dropWhile (fun c => !isAsciiWhitespace c) = sep :: arg := by
    rw [List.dropWhile_append_of_pos hall]
    exact List.dropWhile_cons_of_neg hstop
  have htake : (word ++ sep :: arg).takeWhile (fun c => !isAsciiWhitespace c) = word := by
    rw [List.takeWhile_append_of_pos hall]
    exact (congrArg (word ++ ·) (List.takeWhile_cons_of_neg hstop)).trans (List.append_nil word)
  rw [operatorName, hdrop]
  dsimp only
  rw [htake]

/-- A number, `0` when it is none. -/
def numberOrZero (s : Str) : Int64 := ((parseSigned 64 s).map Int64.ofInt).getD 0

/-- The operator, and whether it is negated. -/
def parseOperator (s : Str) : Operator × Bool :=
  let negated := s.head? == some '!'
  let (opName, arg) := operatorName (if negated then s.tail else s)
  let name := toLowercase opName
  let op :=
    if name = "rx".toList then .rx arg
    else if name = "pm".toList then .pm ((splitWhitespace arg).map toLowercase)
    else if name = "pmfromfile".toList then .pmFromFile arg
    else if name = "contains".toList then .contains arg
    else if name = "beginswith".toList then .beginsWith arg
    else if name = "endswith".toList then .endsWith arg
    else if name = "streq".toList then .streq arg
    else if name = "lt".toList then .lt (numberOrZero arg)
    else if name = "le".toList then .le (numberOrZero arg)
    else if name = "ge".toList then .ge (numberOrZero arg)
    else if name = "gt".toList then .gt (numberOrZero arg)
    else if name = "within".toList then .within (splitWhitespace arg)
    else if name = "validatebyterange".toList then .validateByteRange arg
    else if name = "detectxss".toList then .detectXss
    else if name = "detectsqli".toList then .detectSqli
    else .unsupported name
  (op, negated)

/-! ### Actions -/

/-- The loop over the bytes of an action list: whether it is inside single or double quotes, and
the action read so far. Each byte is read as a character of its own. -/
def splitActionsFrom : Bool → Bool → Str → Bytes → List Str
  | _, _, current, [] => if current = [] then [] else [current]
  | inSingle, inDouble, current, b :: rest =>
    if b = byte '\'' ∧ !inDouble then
      splitActionsFrom (!inSingle) inDouble (current ++ [byteChar b]) rest
    else if b = byte '"' ∧ !inSingle then
      splitActionsFrom inSingle (!inDouble) (current ++ [byteChar b]) rest
    else if b = byte '\\' then
      match rest with
      | [] => [current ++ [byteChar b]]
      | c :: rest => splitActionsFrom inSingle inDouble (current ++ [byteChar b, byteChar c]) rest
    else if b = byte ',' ∧ !inSingle ∧ !inDouble then
      current :: splitActionsFrom inSingle inDouble [] rest
    else splitActionsFrom inSingle inDouble (current ++ [byteChar b]) rest

/-- The actions between commas outside quotes. -/
def splitActions (s : Str) : List Str := splitActionsFrom false false [] (asBytes s)

/-- A transform. -/
def parseTransform (s : Str) : Transform :=
  let name := toLowercase s
  if name = "lowercase".toList then .lowercase
  else if name = "urldecodeuni".toList then .urlDecodeUni
  else if name = "htmlentitydecode".toList then .htmlEntityDecode
  else if name = "jsdecode".toList then .jsDecode
  else if name = "cssdecode".toList then .cssDecode
  else if name = "removenulls".toList then .removeNulls
  else if name = "removewhitespace".toList then .removeWhitespace
  else if name = "compresswhitespace".toList then .compressWhitespace
  else if name = "utf8tounicode".toList then .utf8toUnicode
  else if name = "none".toList then .none
  else .other name

/-- A severity, by name or number. -/
def parseSeverity (s : Str) : Option Severity :=
  let name := toUppercase s
  if name = "EMERGENCY".toList ∨ name = ['0'] then some .emergency
  else if name = "ALERT".toList ∨ name = ['1'] then some .alert
  else if name = "CRITICAL".toList ∨ name = ['2'] then some .critical
  else if name = "ERROR".toList ∨ name = ['3'] then some .error
  else if name = "WARNING".toList ∨ name = ['4'] then some .warning
  else if name = "NOTICE".toList ∨ name = ['5'] then some .notice
  else if name = "INFO".toList ∨ name = ['6'] then some .info
  else if name = "DEBUG".toList ∨ name = ['7'] then some .debug
  else none

/-- A phase, by number or name. -/
def parsePhase (s : Str) : Phase :=
  if s = ['1'] ∨ s = "request-headers".toList then .one
  else if s = ['2'] ∨ s = "request-body".toList then .two
  else if s = ['3'] ∨ s = "response-headers".toList then .three
  else if s = ['4'] ∨ s = "response-body".toList then .four
  else if s = ['5'] ∨ s = "logging".toList then .five
  else .two

/-- The anomaly score a `setvar` adds. -/
def extractAnomalyScore (setvar : Str) : Option UInt32 :=
  let val := toLowercase setvar
  if Fywaf.contains val "critical_anomaly_score".toList then some 5
  else if Fywaf.contains val "error_anomaly_score".toList then some 4
  else if Fywaf.contains val "warning_anomaly_score".toList then some 3
  else if Fywaf.contains val "notice_anomaly_score".toList then some 2
  else none

/-- What the actions of a rule say. -/
structure Actions where
  transforms : List Transform
  id : UInt32
  phase : Phase
  action : Action
  msg : Option Str
  tags : List Str
  severity : Option Severity
  skipAfter : Option Str
  anomalyScore : Option UInt32
  isChain : Bool

/-- A rule without actions. -/
def Actions.init : Actions := ⟨[], 0, .two, .pass, none, [], none, none, none, false⟩

/-- A value behind one of two prefixes, the quote at its end dropped. -/
def quotedValue (key token : Str) : Option Str :=
  match stripPrefix (key ++ [':', '\'']) token with
  | some val => some (trimEndMatches (· == '\'') val)
  | none => (stripPrefix (key ++ [':', '"']) token).map (trimEndMatches (· == '"'))

/-- A value behind one of two prefixes, as it is. -/
def openValue (key token : Str) : Option Str :=
  (stripPrefix (key ++ [':', '\'']) token).or (stripPrefix (key ++ [':', '"']) token)

/-- One action. What is not known is passed over. -/
def applyAction (acc : Actions) (token : Str) : Actions :=
  let token := trim token
  if token = [] then acc
  else if let some val := stripPrefix "id:".toList token then
    { acc with id := ((parseUnsigned 32 val).map UInt32.ofNat).getD 0 }
  else if let some val := stripPrefix "phase:".toList token then
    { acc with phase := parsePhase (trim val) }
  else if token = "block".toList ∨ token = "deny".toList then { acc with action := .block }
  else if token = "pass".toList ∨ token = "allow".toList then { acc with action := .pass }
  else if token = "chain".toList then { acc with isChain := true }
  else if let some val := quotedValue "msg".toList token then { acc with msg := some val }
  else if let some val := quotedValue "tag".toList token then
    { acc with tags := acc.tags ++ [val] }
  else if let some val := stripPrefix "t:".toList token then
    { acc with transforms := acc.transforms ++ [parseTransform val] }
  else if let some val := quotedValue "severity".toList token then
    { acc with severity := parseSeverity val }
  else if let some val := stripPrefix "skipAfter:".toList token then
    { acc with skipAfter := some (trim val) }
  else if let some val := openValue "setvar".toList token then
    { acc with anomalyScore := acc.anomalyScore.or (extractAnomalyScore val) }
  else acc

/-- `parse_actions`. -/
def parseActions (raw : Str) : Actions := (splitActions raw).foldl applyAction .init

/-! ### Rules -/

/-- The paranoia level that the first tag of the kind names. -/
def paranoiaLevelOf (tags : List Str) : UInt8 :=
  (((tags.findSome? (stripPrefix "paranoia-level/".toList)).bind (parseUnsigned 8)).map
    UInt8.ofNat).getD 0

/-- The rule that variables, operator and actions make, and whether it carries `chain`. -/
def buildRule (vars : List Variable) (opStr actionsRaw : Str) : Rule × Bool :=
  let (operator, negated) := parseOperator (trim (trimMatches (· == '"') (trim opStr)))
  let acts := parseActions actionsRaw
  ({ id := acts.id
     phase := acts.phase
     vars := vars
     operator := if negated then .negated operator else operator
     transforms := acts.transforms
     action := acts.action
     msg := acts.msg
     tags := acts.tags
     severity := acts.severity
     chained := []
     skipAfter := acts.skipAfter
     anomalyScore := acts.anomalyScore
     paranoiaLevel := paranoiaLevelOf acts.tags }, acts.isChain)

/-- The body of a `SecRule` line: the last quoted block is the actions, the first word the
variables, and what is between them the operator. -/
def parseSecrule (input : Str) : Except Panic (Option (Rule × Bool)) := do
  let input := trim input
  match findLastQuotedBlockStart input with
  | none => return none
  | some actionsOpen =>
    let beforeActions := trim (← sliceTo input actionsOpen)
    let actionsStr ← sliceFrom input (actionsOpen + 1)
    match findClosingQuote actionsStr with
    | none => return none
    | some actionsEnd =>
      let actionsRaw ← sliceTo actionsStr actionsEnd
      match splitFirstWs beforeActions with
      | none => return none
      | some (varsStr, opStr) =>
        let vars ← parseVariables varsStr
        return some (buildRule vars opStr actionsRaw)

end Crs

end Fywaf
