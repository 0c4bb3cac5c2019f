import Fywaf.Crs.Reported
import Fywaf.Crs.RequestRoundtrip
import Fywaf.Wasm.Buffers

/-!
# The rule engine under the host

The host hands a request to the compiled rule engine and gets a decision back, by way of two
buffers and two JSON texts. When the texts fit, nothing of this is left in the decision: it is what
the rules say of the request, with the paranoia level and the threshold that the profile sets.

## Main definitions

* `Crs.Decision.Fits`, `Crs.RepliesFit` — a decision fits into the result buffer
* `Crs.paranoiaLevel`, `Crs.anomalyThreshold` — what a profile sets
* `Crs.Decides` — the decision in terms of the rules
* `Crs.RunsRules` — the guest of a profile is the rule engine

## Main results

* `Crs.receive_writeResult` — the host reads the decision that the guest has written
* `Crs.decide_iff_decides` — the decision on a request is what the rules say of it
-/

namespace Fywaf

namespace Crs

open Wasm

/-! ### Decisions -/

namespace Decision

/-- The decision as the host reads it. -/
def hosted (d : Decision) : WasmDecision := ⟨d.allow, some d.status, d.message, d.ruleId⟩

/-- The JSON of the decision fits into the result buffer. -/
def Fits (codec : JsonCodec) (d : Decision) : Prop :=
  codec.write d.toJson ≠ [] ∧ (asBytes (codec.write d.toJson)).length ≤ bufLen

instance (codec : JsonCodec) (d : Decision) : Decidable (d.Fits codec) :=
  inferInstanceAs (Decidable (_ ∧ _))

/-- The host reads what the guest writes. -/
theorem ofToken_hosted (d : Decision) : WasmDecision.ofToken d.toJson.tokens = some d.hosted := by
  obtain ⟨allow, status, message, ruleId⟩ := d
  refine ofToken_writeStruct (status.toNat_lt.trans (by decide)) ?_ ?_ ?_ ?_ ?_
  · cases message <;> cases ruleId <;> simp
  · exact List.mem_append_left _ (List.mem_append_left _ List.mem_cons_self)
  · exact List.mem_append_left _
      (List.mem_append_left _ (List.mem_cons_of_mem _ List.mem_cons_self))
  · cases message with
    | none => exact Or.inr ⟨rfl, by cases ruleId <;> simp⟩
    | some s =>
      exact Or.inl (List.mem_append_left _ (List.mem_append_right _ (List.mem_singleton_self _)))
  · cases ruleId with
    | none => exact Or.inr ⟨rfl, by cases message <;> simp⟩
    | some s => exact Or.inl (List.mem_append_right _ (List.mem_singleton_self _))

end Decision

instance (s : Str) : Decidable (IsPlain s) := decidable_of_iff _ isPlain_iff.symm

instance (req : WasmRequest) : Decidable (PlainRequest req) :=
  decidable_of_iff (IsPlain req.method ∧ IsPlain req.path ∧ (∀ s ∈ req.query, IsPlain s) ∧
      (∀ s ∈ req.userAgent, IsPlain s) ∧
      (∀ e ∈ req.headers.entries, IsPlain e.1 ∧ IsPlain e.2) ∧ (∀ s ∈ req.body, IsPlain s) ∧
      ∀ e ∈ req.params.entries, IsPlain e.1 ∧ 2 + e.2.depth ≤ recursionLimit)
    ⟨fun ⟨hmethod, hpath, hquery, hagent, hheaders, hbody, hparams⟩ =>
      ⟨hmethod, hpath, hquery, hagent, hheaders, hbody, hparams⟩,
    fun h => ⟨h.method, h.path, h.query, h.userAgent, h.headers, h.body, h.params⟩⟩

variable {serializer : Serializer} {req : WasmRequest} {regex : RegexNew}

/-- **The host reads the decision that the guest has written**, when it fits. -/
theorem receive_writeResult (hcodec : serializer.codec.Lawful) {d : Decision}
    (hfits : d.Fits serializer.codec) (buf : Buffer) :
    receive serializer (writeResult serializer.codec buf d) = .ok d.hosted := by
  rw [writeResult, receive_reply hfits.1 hfits.2, Serializer.readDecision, hcodec,
    Option.bind_some, d.ofToken_hosted]
  rfl

/-! ### Settings -/

/-- A parameter of a profile that is an unsigned integer. -/
def numericParam (params : HashMap Str Json) (name : String) : Option ℕ :=
  (params.get? name.toList).bind fun value => value.tokens.asU64

/-- The paranoia level that a profile sets: at most 4, and 1 when it sets none. -/
def paranoiaLevel (params : HashMap Str Json) : UInt8 :=
  ((numericParam params "paranoia_level").map fun n => UInt8.ofNat (min n 4)).getD 1

/-- The anomaly threshold that a profile sets: cut to 32 bits, and 5 when it sets none. -/
def anomalyThreshold (params : HashMap Str Json) : UInt32 :=
  ((numericParam params "anomaly_threshold").map UInt32.ofNat).getD 5

/-- The guest finds the parameters of the profile. -/
theorem param_guestRequest (name : String) :
    (guestRequest serializer req).param name = numericParam req.params name := by
  have hempty : (BTreeMap.empty : BTreeMap Str Token).get? name.toList = none := rfl
  have hnodup : (((serializer.paramOrder.iter req.params).map
      fun e => (e.1, e.2.tokens)).map Prod.fst).Nodup := by
    rw [List.map_map]
    exact serializer.paramOrder.nodup_iter req.params
  rw [Request.param, guestRequest, numericParam, BTreeMap.get?_insertAll, hempty, Option.or_none]
  refine Option.ext fun n => ?_
  simp only [Option.bind_eq_some_iff, HashMap.get?_eq_some_iff]
  constructor
  · rintro ⟨token, htoken, hn⟩
    have hmem := (@lastOf_eq_some_iff _ _ LinearOrder.toDecidableEq _ _ hnodup _).mp htoken
    obtain ⟨⟨key, value⟩, he, heq⟩ := List.mem_map.mp hmem
    obtain ⟨rfl, rfl⟩ := Prod.mk.inj heq
    exact ⟨value, (serializer.paramOrder.mem_iter _).mp he, hn⟩
  · rintro ⟨value, hvalue, hn⟩
    refine ⟨value.tokens, ?_, hn⟩
    refine (@lastOf_eq_some_iff _ _ LinearOrder.toDecidableEq _ _ hnodup _).mpr ?_
    exact List.mem_map.mpr ⟨_, (serializer.paramOrder.mem_iter _).mpr hvalue, rfl⟩

theorem paranoiaLevel_guestRequest :
    (guestRequest serializer req).paranoiaLevel = paranoiaLevel req.params := by
  rw [Request.paranoiaLevel, param_guestRequest]
  rfl

theorem anomalyThreshold_guestRequest :
    (guestRequest serializer req).anomalyThreshold = anomalyThreshold req.params := by
  rw [Request.anomalyThreshold, param_guestRequest]
  rfl

/-! ### Verdicts -/

/-- A rule set whose decisions fit into the result buffer. -/
structure RepliesFit (codec : JsonCodec) (rules : List Rule) : Prop where
  allowed : Decision.allowed.Fits codec
  badRequest : Decision.badRequest.Fits codec
  blocked : ∀ rule ∈ rules, (Decision.blocked rule.report.1 rule.report.2).Fits codec

/-- The decision on a request, in terms of the rules: a request in which something is escaped is
refused unread, and the others are decided by the rules. -/
inductive Decides (regex : RegexNew) (rules : List Rule) (serializer : Serializer)
    (profileId : Str) (req : WasmRequest) : Wasm.Decision → Prop
  | refuses (h : ¬ PlainRequest req) :
    Decides regex rules serializer profileId req
      ⟨profileId, false, 400, some "bad request".toList, none⟩
  | allows (h : PlainRequest req)
    (hnone : evaluate regex (guestRequest serializer req).context (paranoiaLevel req.params)
      (anomalyThreshold req.params) rules = none) :
    Decides regex rules serializer profileId req ⟨profileId, true, 200, none, none⟩
  | blocks (h : PlainRequest req) (ruleId : UInt32) (msg : Str)
    (hsome : evaluate regex (guestRequest serializer req).context (paranoiaLevel req.params)
      (anomalyThreshold req.params) rules = some (ruleId, msg)) :
    Decides regex rules serializer profileId req
      ⟨profileId, false, 403, some msg, some (decimal ruleId.toNat)⟩

/-- The guest's own decision on a request that the host has serialized. -/
def verdict (regex : RegexNew) (rules : List Rule) (serializer : Serializer) (req : WasmRequest) :
    Decision :=
  match Request.ofToken (req.toJson serializer).tokens with
  | none => .badRequest
  | some parsed => runRules regex (some rules) parsed

variable {rules : List Rule}

/-- With the JSON of the request in its buffer the guest answers with the verdict. -/
theorem answer_requestJson (hcodec : serializer.codec.Lawful) {json : Bytes}
    (hjson : asBytes (serializer.requestJson req) = json) (hlen : json.length ≤ bufLen)
    (buf : Buffer) : answer serializer.codec regex (some rules) (buf.overwrite json)
      (Int32.ofNat json.length) = verdict regex rules serializer req := by
  have hprefix : json <+: (buf.overwrite json).bytes := by
    rw [bytes_overwrite hlen]
    exact List.prefix_append _ _
  have hparse : Request.parse serializer.codec (serializer.requestJson req) =
      Request.ofToken (req.toJson serializer).tokens := by
    rw [Request.parse, Serializer.requestJson, hcodec, Option.bind_some]
  rw [answer, requestBytes_of_prefix hlen hprefix, ← hjson, fromUtf8_asBytes, verdict]
  cases hreq : Request.ofToken (req.toJson serializer).tokens <;> simp only [hparse, hreq]

theorem verdict_of_not_plain (h : ¬ PlainRequest req) :
    verdict regex rules serializer req = .badRequest := by
  have hnone : Request.ofToken (req.toJson serializer).tokens = none :=
    Option.eq_none_iff_forall_ne_some.mpr fun parsed hparsed => h (ofToken_toJson.mp hparsed).1
  rw [verdict, hnone]

theorem verdict_of_plain (h : PlainRequest req) : verdict regex rules serializer req =
    ((evaluate regex (guestRequest serializer req).context (paranoiaLevel req.params)
      (anomalyThreshold req.params) rules).map fun r => Decision.blocked r.1 r.2).getD
        .allowed := by
  rw [verdict, ofToken_toJson.mpr ⟨h, rfl⟩]
  dsimp only
  rw [runRules, paranoiaLevel_guestRequest, anomalyThreshold_guestRequest]
  cases evaluate regex (guestRequest serializer req).context (paranoiaLevel req.params)
    (anomalyThreshold req.params) rules <;> rfl

/-- A rule that is reported is one of the rules. -/
theorem exists_report {ctx : RequestContext} {level : UInt8} {threshold : UInt32}
    {r : UInt32 × Str} (h : evaluate regex ctx level threshold rules = some r) :
    ∃ rule ∈ rules, rule.report = r := by
  obtain ⟨-, i, rule, -, hrule, hr⟩ := evaluate_eq_some_iff.mp h
  exact ⟨rule, List.mem_of_getElem? hrule, hr⟩

theorem fits_verdict (h : RepliesFit serializer.codec rules) :
    (verdict regex rules serializer req).Fits serializer.codec := by
  by_cases hplain : PlainRequest req
  · rw [verdict_of_plain hplain]
    cases hverdict : evaluate regex (guestRequest serializer req).context
      (paranoiaLevel req.params) (anomalyThreshold req.params) rules with
    | none => exact h.allowed
    | some r =>
      obtain ⟨rule, hrule, rfl⟩ := exists_report hverdict
      exact h.blocked rule hrule
  · rw [verdict_of_not_plain hplain]
    exact h.badRequest

/-- The verdict, as the host passes it on, is what is decided. -/
theorem decides_iff {profileId : Str} {decision : Wasm.Decision} :
    Decides regex rules serializer profileId req decision ↔
      decision =
        ⟨profileId, (verdict regex rules serializer req).allow,
          statusCode (verdict regex rules serializer req).hosted,
          (verdict regex rules serializer req).message,
          (verdict regex rules serializer req).ruleId⟩ := by
  constructor
  · intro h
    cases h with
    | refuses h =>
      rw [verdict_of_not_plain h]
      rfl
    | allows h hnone =>
      rw [verdict_of_plain h, hnone]
      rfl
    | blocks h ruleId msg hsome =>
      rw [verdict_of_plain h, hsome]
      rfl
  · rintro rfl
    by_cases hplain : PlainRequest req
    · rw [verdict_of_plain hplain]
      cases hverdict : evaluate regex (guestRequest serializer req).context
        (paranoiaLevel req.params) (anomalyThreshold req.params) rules with
      | none => exact .allows hplain hverdict
      | some r => exact .blocks hplain r.1 r.2 hverdict
    · rw [verdict_of_not_plain hplain]
      exact .refuses hplain

/-! ### The engine -/

section Engine

variable {σ : Type} {layout : Layout} {engine : WafEngine σ} {profileId : Str}

/-- The guest of a profile is the rule engine with these rules, compiled. -/
structure RunsRules (engine : WafEngine σ) (serializer : Serializer) (profileId : Str)
    (layout : Layout) (regex : RegexNew) (rules : List Rule) : Prop where
  codec : serializer.codec.Lawful
  compiled : ∃ module, engine.vm.modules.get? profileId = some module ∧
    Compiled module layout (Guest.decide serializer.codec regex (some rules))
  replies : RepliesFit serializer.codec rules

/-- The engine passes the verdict on. -/
theorem decide_iff_verdict (h : RunsRules engine serializer profileId layout regex rules)
    (req : RequestMeta) (decision : Wasm.Decision) :
    engine.decide serializer profileId req = .ok decision ↔
      Affordable layout (asBytes (serializer.requestJson
        (wasmRequest (engine.params profileId) req))) ∧
      decision =
        ⟨profileId,
          (verdict regex rules serializer (wasmRequest (engine.params profileId) req)).allow,
          statusCode
            (verdict regex rules serializer (wasmRequest (engine.params profileId) req)).hosted,
          (verdict regex rules serializer (wasmRequest (engine.params profileId) req)).message,
          (verdict regex rules serializer
            (wasmRequest (engine.params profileId) req)).ruleId⟩ := by
  obtain ⟨hcodec, ⟨module, hmodule, hcompiled⟩, hfits⟩ := h
  have hanswer : ∀ {json : Bytes}, asBytes (serializer.requestJson
      (wasmRequest (engine.params profileId) req)) = json → json.length ≤ bufLen →
      receive serializer (Guest.decide serializer.codec regex (some rules)
        (zeroBuffer.overwrite json) zeroBuffer (Int32.ofNat json.length)) =
      .ok (verdict regex rules serializer (wasmRequest (engine.params profileId) req)).hosted := by
    intro json hjson hlen
    rw [Guest.decide, answer_requestJson hcodec hjson hlen,
      receive_writeResult hcodec (fits_verdict hfits)]
  exact WafEngine.decide_compiled hcompiled hmodule req decision rfl (hanswer rfl)

end Engine

/-! ### A rule engine of one rule -/

/-- A rule set of one rule, against `GET`. -/
def noGet : List Rule := [warningRule 7 "get".toList]

/-- An engine whose profile `p` has that rule set, and the threshold 3. -/
def noGetEngine : WafEngine Unit where
  vm := ⟨⟨[(['p'], twoPages.compile (Guest.decide compactJson (fun _ => none) (some noGet)))],
    List.nodup_singleton _⟩⟩
  profileParams := ⟨[(['p'],
    ⟨[("anomaly_threshold".toList, .number (.posInt 3 (by decide)))], List.nodup_singleton _⟩)],
    List.nodup_singleton _⟩

/-- A request without a body. -/
def plainMeta (method : String) : RequestMeta where
  clientIp := .v4 127 0 0 1
  method := method.toList
  path := ['/']
  query := none
  userAgent := none
  headers := .empty
  body := none

theorem repliesFit_noGet : RepliesFit compactJson noGet where
  allowed := by decide
  badRequest := by decide
  blocked := fun rule hrule => by
    rw [List.mem_singleton.mp hrule]
    decide

theorem runsRules_noGet :
    RunsRules noGetEngine .compact ['p'] twoPages (fun _ => none) noGet where
  codec := lawful_compactJson
  compiled := ⟨_, rfl, compiled_compile twoPages _⟩
  replies := repliesFit_noGet

end Crs

end Fywaf
