import Fywaf.Crs.Engine
import Fywaf.Std.Serde

/-!
# The guest

The exports of the rule engine: the host writes the JSON of a request into the request buffer and
calls `decide`, which reads it, runs the rules and leaves the JSON of its decision in the result
buffer. The strings of a request are borrowed from the buffer. The rules are embedded when the
module is built; they are an argument, missing when the embedded text is malformed.

## Main definitions

* `Crs.Buffer`, `Crs.Request`, `Crs.Decision`
* `Crs.Request.ofToken`, `Crs.Request.parse`
* `Crs.runRules`, `Crs.answer`, `Crs.writeResult`, `Crs.Guest.decide`
-/

namespace Fywaf

namespace Crs

/-! ### Buffers -/

/-- The size of a buffer. -/
def bufLen : ℕ := 65536

/-- A static buffer. -/
structure Buffer where
  bytes : Bytes
  length_eq : bytes.length = bufLen

/-- The first bytes of a buffer replaced, as far as they fit. -/
def Buffer.overwrite (buf : Buffer) (bytes : Bytes) : Buffer where
  bytes := bytes.take bufLen ++ buf.bytes.drop (min bytes.length bufLen)
  length_eq := by
    rw [List.length_append, List.length_take, List.length_drop, buf.length_eq]
    omega

/-! ### Requests -/

/-- The request as the guest reads it. -/
structure Request where
  method : Str
  path : Str
  query : Option Str
  userAgent : Option Str
  headers : BTreeMap Str Str
  body : Option Str
  params : BTreeMap Str Token

/-- `Deserialize` of a request. The values of the parameters stand two levels below the top. -/
def Request.ofToken (t : Token) : Option Request :=
  if isStruct 7 t then
    (readDefault 0 "method" readBorrowed [] t).bind fun method =>
      (readDefault 1 "path" readBorrowed [] t).bind fun path =>
        (readOptional 2 "query" readBorrowed t).bind fun query =>
          (readOptional 3 "user_agent" readBorrowed t).bind fun userAgent =>
            (readDefault 4 "headers" (readMap readBorrowed) .empty t).bind fun headers =>
              (readOptional 5 "body" readBorrowed t).bind fun body =>
                (readDefault 6 "params" (readMap (readAny 2)) .empty t).map fun params =>
                  ⟨method, path, query, userAgent, headers, body, params⟩
  else none

/-- `serde_json::from_str` of a request. -/
def Request.parse (codec : JsonCodec) (text : Str) : Option Request :=
  (codec.read text).bind Request.ofToken

/-- What the rules see of a request. -/
def Request.context (req : Request) : RequestContext :=
  ⟨req.method, req.path, req.query, req.userAgent, req.headers, req.body⟩

/-- A parameter that is an unsigned integer. -/
def Request.param (req : Request) (name : String) : Option ℕ :=
  (req.params.get? name.toList).bind Token.asU64

/-- The paranoia level: at most 4, and 1 unless the profile says otherwise. -/
def Request.paranoiaLevel (req : Request) : UInt8 :=
  ((req.param "paranoia_level").map fun n => UInt8.ofNat (min n 4)).getD 1

/-- The anomaly threshold: cut to 32 bits, and 5 unless the profile says otherwise. -/
def Request.anomalyThreshold (req : Request) : UInt32 :=
  ((req.param "anomaly_threshold").map UInt32.ofNat).getD 5

/-! ### Decisions -/

/-- The decision of the guest. -/
structure Decision where
  allow : Bool
  status : UInt16
  message : Option Str
  ruleId : Option Str
  deriving DecidableEq

/-- The request goes through. -/
def Decision.allowed : Decision := ⟨true, 200, none, none⟩

/-- `bad_request`: what cannot be read is not let through. -/
def Decision.badRequest : Decision := ⟨false, 400, some "bad request".toList, none⟩

/-- Without rules nothing is let through. -/
def Decision.unavailable : Decision :=
  ⟨false, 500, some "internal error: rule set unavailable".toList, none⟩

/-- A rule blocks the request. -/
def Decision.blocked (ruleId : UInt32) (msg : Str) : Decision :=
  ⟨false, 403, some msg, some (decimal ruleId.toNat)⟩

/-- `Serialize` of a decision: what is absent is left out. -/
def Decision.toJson (d : Decision) : Json :=
  writeStruct <|
    [("allow", .bool d.allow),
      ("status", .number (.posInt d.status.toNat (d.status.toNat_lt.trans (by decide))))] ++
    (d.message.toList.map fun s => ("message", .string s)) ++
    d.ruleId.toList.map fun s => ("rule_id", .string s)

/-! ### Exports -/

section Exports

variable (codec : JsonCodec) (regex : RegexNew) (rules : Option (List Rule))

/-- `run_rules`. -/
def runRules (req : Request) : Decision :=
  match rules with
  | none => .unavailable
  | some rules =>
    match evaluate regex req.context req.paranoiaLevel req.anomalyThreshold rules with
    | some (ruleId, msg) => .blocked ruleId msg
    | none => .allowed

/-- The bytes of the buffer that are the request: a negative length reads as a large one. -/
def requestBytes (reqBuf : Buffer) (reqLen : Int32) : Bytes :=
  reqBuf.bytes.take (min reqLen.toUInt32.toNat bufLen)

/-- The decision on what is in the request buffer. -/
def answer (reqBuf : Buffer) (reqLen : Int32) : Decision :=
  match fromUtf8 (requestBytes reqBuf reqLen) with
  | none => .badRequest
  | some jsonStr =>
    match Request.parse codec jsonStr with
    | none => .badRequest
    | some req => runRules regex rules req

/-- `write_result`: the result buffer, and the length of what was written to it. -/
def writeResult (resultBuf : Buffer) (decision : Decision) : Int32 × Buffer :=
  let bytes := asBytes (codec.write decision.toJson)
  (Int32.ofNat (min bytes.length bufLen), resultBuf.overwrite bytes)

/-- `decide`. -/
def Guest.decide (reqBuf resultBuf : Buffer) (reqLen : Int32) : Int32 × Buffer :=
  writeResult codec resultBuf (answer codec regex rules reqBuf reqLen)

/-- **Running the rules never ends in a bad request.** -/
theorem runRules_ne_badRequest (req : Request) : runRules regex rules req ≠ .badRequest := by
  have hstatus : ∀ {d : Decision}, d.status ≠ 400 → d ≠ .badRequest := by
    rintro _ h rfl
    exact h rfl
  unfold runRules
  split
  · exact hstatus (by decide)
  · split
    · exact hstatus (show (403 : UInt16) ≠ 400 by decide)
    · exact hstatus (by decide)

end Exports

end Crs

end Fywaf
