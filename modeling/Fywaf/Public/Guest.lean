import Fywaf.Crs.RequestRoundtrip
import Fywaf.Wasm.Buffers

/-!
# The example guest

The guest that comes as an example blocks paths of the administration, user agents of scanners and
bodies with SQL in them. It copies the strings of a request out of its buffer, so that escape
sequences are no obstacle, and it lets through what it cannot read. The host never hands it
anything it cannot read, so that under the host every request is decided by the three checks.

## Main definitions

* `Public.Request`, `Public.Decision`
* `Public.evaluateRequest`, `Public.decide` — the three checks, and the export
* `Public.RunsPublic` — the guest of a profile is the example
* `Public.Decides` — the three checks, for a request of the host

## Main results

* `Public.read_toJson` — the guest reads every request
* `Public.decide_iff_checks` — the decision on a request is that of the three checks
-/

namespace Fywaf

namespace Public

open Wasm
open Crs (Buffer bufLen requestBytes)

/-- The request as the guest reads it. -/
structure Request where
  clientIp : Str
  method : Str
  path : Str
  query : Option Str
  userAgent : Option Str
  headers : HashMap Str Str
  body : Option Str

/-- A map whose keys and values are copied; a later entry replaces an earlier one. -/
def readStringMap : Token → Option (HashMap Str Str)
  | .object fields =>
    (fields.mapM fun f => (readOwned f.2).map fun value => (f.1.1, value)).map
      HashMap.empty.insertAll
  | _ => none

/-- `Deserialize` of a request. -/
def Request.ofToken (t : Token) : Option Request :=
  if isStruct 7 t then
    (readRequired 0 "client_ip" readOwned t).bind fun clientIp =>
      (readRequired 1 "method" readOwned t).bind fun method =>
        (readRequired 2 "path" readOwned t).bind fun path =>
          (readOptional 3 "query" readOwned t).bind fun query =>
            (readOptional 4 "user_agent" readOwned t).bind fun userAgent =>
              (readRequired 5 "headers" readStringMap t).bind fun headers =>
                (readOptional 6 "body" readOwned t).map fun body =>
                  ⟨clientIp, method, path, query, userAgent, headers, body⟩
  else none

/-- The decision of the guest. -/
structure Decision where
  allow : Bool
  status : UInt16
  message : Option Str
  ruleId : Option Str

/-- `Serialize` of a decision: what is absent is null. -/
def Decision.toJson (d : Decision) : Json :=
  writeStruct
    [("allow", .bool d.allow),
      ("status", .number (.posInt d.status.toNat (d.status.toNat_lt.trans (by decide)))),
      ("message", optionJson d.message),
      ("rule_id", optionJson d.ruleId)]

/-- The request goes through. -/
def Decision.allowed : Decision := ⟨true, 200, none, none⟩

/-- The request is blocked. -/
def Decision.blocked (message ruleId : String) : Decision :=
  ⟨false, 403, some message.toList, some ruleId.toList⟩

/-- The path is one of the administration, and not one that is public. -/
def isAdmin (path : Str) : Bool :=
  contains path "/admin".toList && !contains path "/admin/public".toList

/-- The user agent is a scanner. -/
def isScanner (userAgent : Str) : Bool :=
  let lower := toLowercase userAgent
  contains lower "sqlmap".toList || contains lower "nmap".toList || contains lower "nikto".toList

/-- The body has SQL in it. -/
def isInjection (body : Str) : Bool :=
  let lower := toLowercase body
  contains lower "union select".toList || contains lower "drop table".toList

/-- `evaluate_request`. -/
def evaluateRequest (req : Request) : Decision :=
  if isAdmin req.path then .blocked "Admin access blocked" "block-admin"
  else if req.userAgent.any isScanner then .blocked "Scanner detected" "block-scanner"
  else if req.body.any isInjection then .blocked "SQL injection detected" "block-sqli"
  else .allowed

/-- `write_result`. -/
def writeResult (codec : JsonCodec) (resultBuf : Buffer) (decision : Decision) : Int32 × Buffer :=
  let bytes := asBytes (codec.write decision.toJson)
  (Int32.ofNat (min bytes.length bufLen), resultBuf.overwrite bytes)

/-- The decision on what is in the request buffer: what cannot be read is let through. -/
def answer (codec : JsonCodec) (reqBuf : Buffer) (reqLen : Int32) : Decision :=
  match fromUtf8 (requestBytes reqBuf reqLen) with
  | none => .allowed
  | some reqJson =>
    match (codec.read reqJson).bind Request.ofToken with
    | none => .allowed
    | some req => evaluateRequest req

/-- `decide`. -/
def decide (codec : JsonCodec) : Decider := fun reqBuf resultBuf reqLen =>
  writeResult codec resultBuf (answer codec reqBuf reqLen)

/-! ### Reading a request -/

variable {serializer : Serializer} {req : WasmRequest}

/-- What the guest reads of a request. -/
def guestRequest (serializer : Serializer) (req : WasmRequest) : Request where
  clientIp := req.clientIp
  method := req.method
  path := req.path
  query := req.query
  userAgent := req.userAgent
  headers := HashMap.empty.insertAll (serializer.headerOrder.iter req.headers)
  body := req.body

theorem readNullable_owned (o : Option Str) :
    readNullable readOwned (optionJson o).tokens = some o := by
  cases o <;> rfl

theorem readStringMap_object (entries : List (Str × Str)) :
    readStringMap (Json.object (entries.map fun e => (e.1, .string e.2))).tokens =
      some (HashMap.empty.insertAll entries) := by
  have hentries : (Json.fieldTokens (entries.map fun e => (e.1, Json.string e.2))).mapM
      (fun f => (readOwned f.2).map fun value => (f.1.1, value)) = some entries := by
    induction entries with
    | nil => rfl
    | cons e entries ih =>
      rw [List.map_cons, Json.fieldTokens_cons, List.mapM_cons, ih]
      rfl
  rw [Json.tokens_object, readStringMap, hentries]
  rfl

/-- **The guest reads every request that the host writes**, whatever is escaped in it. -/
theorem read_toJson :
    Request.ofToken (req.toJson serializer).tokens = some (guestRequest serializer req) := by
  have hstruct : isStruct 7 (req.toJson serializer).tokens = true := rfl
  have hip : readRequired 0 "client_ip" readOwned (req.toJson serializer).tokens =
      some req.clientIp :=
    Crs.readField_request (List.mem_append_left _ List.mem_cons_self)
  have hmethod : readRequired 1 "method" readOwned (req.toJson serializer).tokens =
      readOwned (Json.string req.method).tokens := Crs.readField_request (Crs.mem_fields (by simp))
  have hpath : readRequired 2 "path" readOwned (req.toJson serializer).tokens =
      readOwned (Json.string req.path).tokens := Crs.readField_request (Crs.mem_fields (by simp))
  have hquery : readOptional 3 "query" readOwned (req.toJson serializer).tokens =
      some req.query :=
    (Crs.readField_request (Crs.mem_fields (by simp))).trans (readNullable_owned req.query)
  have hagent : readOptional 4 "user_agent" readOwned (req.toJson serializer).tokens =
      some req.userAgent :=
    (Crs.readField_request (Crs.mem_fields (by simp))).trans (readNullable_owned req.userAgent)
  have hheaders : readRequired 5 "headers" readStringMap (req.toJson serializer).tokens =
      some (HashMap.empty.insertAll (serializer.headerOrder.iter req.headers)) :=
    (Crs.readField_request (Crs.mem_fields (by simp))).trans (readStringMap_object _)
  have hbody : readOptional 6 "body" readOwned (req.toJson serializer).tokens = some req.body :=
    (Crs.readField_request (Crs.mem_fields (by simp))).trans (readNullable_owned req.body)
  rw [Request.ofToken, if_pos hstruct, hip, hmethod, hpath, hquery, hagent, hheaders, hbody]
  rfl

/-! ### Under the host -/

namespace Decision

/-- The decision as the host reads it. -/
def hosted (d : Decision) : WasmDecision := ⟨d.allow, some d.status, d.message, d.ruleId⟩

/-- The JSON of the decision fits into the result buffer. -/
def Fits (codec : JsonCodec) (d : Decision) : Prop :=
  codec.write d.toJson ≠ [] ∧ (asBytes (codec.write d.toJson)).length ≤ bufLen

instance (codec : JsonCodec) (d : Decision) : Decidable (d.Fits codec) :=
  inferInstanceAs (Decidable (_ ∧ _))

theorem ofToken_hosted (d : Decision) : WasmDecision.ofToken d.toJson.tokens = some d.hosted :=
  ofToken_writeStruct (d.status.toNat_lt.trans (by decide)) (by simp) (by simp) (by simp)
    (Or.inl (by simp)) (Or.inl (by simp))

end Decision

/-- The host reads the decision that the guest has written, when it fits. -/
theorem receive_writeResult (hcodec : serializer.codec.Lawful) {d : Decision}
    (hfits : d.Fits serializer.codec) (buf : Buffer) :
    receive serializer (writeResult serializer.codec buf d) = .ok d.hosted := by
  rw [writeResult, receive_reply hfits.1 hfits.2, Serializer.readDecision, hcodec,
    Option.bind_some, d.ofToken_hosted]
  rfl

/-- The four decisions of the guest fit into the result buffer. -/
def RepliesFit (codec : JsonCodec) : Prop :=
  ∀ d ∈ [.allowed, .blocked "Admin access blocked" "block-admin",
    .blocked "Scanner detected" "block-scanner",
    .blocked "SQL injection detected" "block-sqli"], Decision.Fits codec d

theorem fits_evaluateRequest {codec : JsonCodec} (h : RepliesFit codec) (req : Request) :
    (evaluateRequest req).Fits codec := by
  refine h _ ?_
  rw [evaluateRequest]
  split_ifs <;> simp

variable {σ : Type} {layout : Layout} {engine : WafEngine σ} {profileId : Str}

/-- The guest of a profile is the example, compiled. -/
structure RunsPublic (engine : WafEngine σ) (serializer : Serializer) (profileId : Str)
    (layout : Layout) : Prop where
  codec : serializer.codec.Lawful
  compiled : ∃ module, engine.vm.modules.get? profileId = some module ∧
    Compiled module layout (decide serializer.codec)
  replies : RepliesFit serializer.codec

/-- With the JSON of a request in its buffer the guest evaluates the request. -/
theorem answer_requestJson (hcodec : serializer.codec.Lawful) {json : Bytes}
    (hjson : asBytes (serializer.requestJson req) = json) (hlen : json.length ≤ bufLen)
    (buf : Buffer) : answer serializer.codec (buf.overwrite json) (Int32.ofNat json.length) =
      evaluateRequest (guestRequest serializer req) := by
  have hprefix : json <+: (buf.overwrite json).bytes := by
    rw [bytes_overwrite hlen]
    exact List.prefix_append _ _
  rw [answer, Crs.requestBytes_of_prefix hlen hprefix, ← hjson, fromUtf8_asBytes]
  dsimp only
  rw [Serializer.requestJson, hcodec, Option.bind_some, read_toJson]

/-- What is decided on a request: the first of the three checks that it fails, or that it goes
through. -/
inductive Decides (profileId : Str) (req : RequestMeta) : Wasm.Decision → Prop
  | admin (h : isAdmin req.path = true) :
    Decides profileId req ⟨profileId, false, 403, some "Admin access blocked".toList,
      some "block-admin".toList⟩
  | scanner (hpath : isAdmin req.path = false) (userAgent : Str) (hmem : userAgent ∈ req.userAgent)
    (h : isScanner userAgent = true) :
    Decides profileId req ⟨profileId, false, 403, some "Scanner detected".toList,
      some "block-scanner".toList⟩
  | injection (hpath : isAdmin req.path = false)
    (hagent : ∀ userAgent ∈ req.userAgent, isScanner userAgent = false) (body : Str)
    (hmem : body ∈ req.body) (h : isInjection body = true) :
    Decides profileId req ⟨profileId, false, 403, some "SQL injection detected".toList,
      some "block-sqli".toList⟩
  | allows (hpath : isAdmin req.path = false)
    (hagent : ∀ userAgent ∈ req.userAgent, isScanner userAgent = false)
    (hbody : ∀ body ∈ req.body, isInjection body = false) :
    Decides profileId req ⟨profileId, true, 200, none, none⟩

theorem any_eq_true_iff {o : Option Str} {p : Str → Bool} :
    o.any p = true ↔ ∃ s ∈ o, p s = true := by
  cases o <;> simp

theorem any_eq_false_iff {o : Option Str} {p : Str → Bool} :
    o.any p = false ↔ ∀ s ∈ o, p s = false := by
  cases o <;> simp

/-- What the guest evaluates, as the host passes it on. -/
theorem decides_iff {params : HashMap Str Json} {req : RequestMeta} {decision : Wasm.Decision} :
    Decides profileId req decision ↔ decision =
      ⟨profileId,
        (evaluateRequest (guestRequest serializer (wasmRequest params req))).allow,
        statusCode (evaluateRequest (guestRequest serializer (wasmRequest params req))).hosted,
        (evaluateRequest (guestRequest serializer (wasmRequest params req))).message,
        (evaluateRequest (guestRequest serializer (wasmRequest params req))).ruleId⟩ := by
  have heval : evaluateRequest (guestRequest serializer (wasmRequest params req)) =
      if isAdmin req.path then .blocked "Admin access blocked" "block-admin"
      else if req.userAgent.any isScanner then .blocked "Scanner detected" "block-scanner"
      else if req.body.any isInjection then .blocked "SQL injection detected" "block-sqli"
      else .allowed := rfl
  rw [heval]
  constructor
  · intro h
    cases h with
    | admin h =>
      rw [if_pos h]
      rfl
    | scanner hpath userAgent hmem h =>
      rw [if_neg (Bool.eq_false_iff.mp hpath), if_pos (any_eq_true_iff.mpr ⟨userAgent, hmem, h⟩)]
      rfl
    | injection hpath hagent body hmem h =>
      rw [if_neg (Bool.eq_false_iff.mp hpath), if_neg (Bool.eq_false_iff.mp
        (any_eq_false_iff.mpr hagent)), if_pos (any_eq_true_iff.mpr ⟨body, hmem, h⟩)]
      rfl
    | allows hpath hagent hbody =>
      rw [if_neg (Bool.eq_false_iff.mp hpath), if_neg (Bool.eq_false_iff.mp
        (any_eq_false_iff.mpr hagent)), if_neg (Bool.eq_false_iff.mp
        (any_eq_false_iff.mpr hbody))]
      rfl
  · rintro rfl
    cases hpath : isAdmin req.path with
    | true => exact .admin hpath
    | false =>
    cases hagent : req.userAgent.any isScanner with
    | true =>
      obtain ⟨userAgent, hmem, h⟩ := any_eq_true_iff.mp hagent
      exact .scanner hpath userAgent hmem h
    | false =>
    cases hbody : req.body.any isInjection with
    | true =>
      obtain ⟨body, hmem, h⟩ := any_eq_true_iff.mp hbody
      exact .injection hpath (any_eq_false_iff.mp hagent) body hmem h
    | false => exact .allows hpath (any_eq_false_iff.mp hagent) (any_eq_false_iff.mp hbody)

/-- An engine whose profile `p` has the example for its guest. -/
def publicEngine : WafEngine Unit where
  vm := ⟨⟨[(['p'], twoPages.compile (decide compactJson))], List.nodup_singleton _⟩⟩
  profileParams := .empty

/-- A request of a scanner, with a quotation mark in the name of it. -/
def scannerMeta : RequestMeta where
  clientIp := .v4 127 0 0 1
  method := "GET".toList
  path := ['/']
  query := none
  userAgent := some "\"SQLmap\"".toList
  headers := .empty
  body := none

end Public

end Fywaf
