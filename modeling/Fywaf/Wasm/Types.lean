import Fywaf.Std.Serde

/-!
# What host and guest tell each other

`WasmRequest` is what the host writes for the guest, `WasmDecision` what it reads back, both as
JSON. Headers and parameters are written in the iteration order of their hash maps.

## Main definitions

* `Wasm.WasmRequest`, `Wasm.WasmRequest.toJson`
* `Wasm.WasmDecision`, `Wasm.WasmDecision.ofToken`
* `Wasm.Serializer` — the JSON library and the iteration orders of a run
-/

namespace Fywaf

namespace Wasm

/-- The request as the guest gets it. -/
structure WasmRequest where
  clientIp : Str
  method : Str
  path : Str
  query : Option Str
  userAgent : Option Str
  headers : HashMap Str Str
  body : Option Str
  /-- Parameters of the profile. -/
  params : HashMap Str Json

/-- The decision of the guest. -/
structure WasmDecision where
  allow : Bool
  status : Option UInt16
  message : Option Str
  ruleId : Option Str
  deriving DecidableEq

/-- What turns a request into text: the JSON library, and the orders in which hash maps yield
their entries. -/
structure Serializer where
  codec : JsonCodec
  headerOrder : HashOrder Str Str
  paramOrder : HashOrder Str Json

/-- The fields of a request: the parameters are left out when there are none. -/
def WasmRequest.fields (serializer : Serializer) (req : WasmRequest) : List (String × Json) :=
  [("client_ip", .string req.clientIp),
    ("method", .string req.method),
    ("path", .string req.path),
    ("query", optionJson req.query),
    ("user_agent", optionJson req.userAgent),
    ("headers",
      .object ((serializer.headerOrder.iter req.headers).map fun e => (e.1, .string e.2))),
    ("body", optionJson req.body)] ++
  if req.params.entries = [] then []
  else [("params", .object (serializer.paramOrder.iter req.params))]

/-- `Serialize` of a request. -/
def WasmRequest.toJson (serializer : Serializer) (req : WasmRequest) : Json :=
  writeStruct (req.fields serializer)

/-- `Deserialize` of a decision. -/
def WasmDecision.ofToken (t : Token) : Option WasmDecision :=
  if isStruct 4 t then
    (readRequired 0 "allow" readBool t).bind fun allow =>
      (readOptional 1 "status" readU16 t).bind fun status =>
        (readOptional 2 "message" readOwned t).bind fun message =>
          (readOptional 3 "rule_id" readOwned t).map fun ruleId =>
            ⟨allow, status, message, ruleId⟩
  else none

/-- `serde_json::to_string` of a request. -/
def Serializer.requestJson (serializer : Serializer) (req : WasmRequest) : Str :=
  serializer.codec.write (req.toJson serializer)

/-- `serde_json::from_str` of a decision. -/
def Serializer.readDecision (serializer : Serializer) (text : Str) : Option WasmDecision :=
  (serializer.codec.read text).bind WasmDecision.ofToken

/-- Compact text, and entries in the order in which they are stored. -/
def Serializer.compact : Serializer := ⟨compactJson, .stored, .stored⟩

end Wasm

end Fywaf
