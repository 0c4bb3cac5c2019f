import Fywaf.Std.Net
import Fywaf.Wasm.Vm

/-!
# The decision on a request

`WafEngine::decide` turns what the proxy knows of a request into the request for the guest, and
the answer of the guest into a decision with a status code that can be sent.

## Main definitions

* `Wasm.RequestMeta`, `Wasm.Decision`, `Wasm.WafEngine`
* `Wasm.wasmRequest`, `Wasm.statusCode`
* `Wasm.WafEngine.decide`
-/

namespace Fywaf

namespace Wasm

variable {σ : Type}

/-- What is known of a request. -/
structure RequestMeta where
  clientIp : IpAddr
  method : Str
  path : Str
  query : Option Str
  userAgent : Option Str
  headers : HashMap Str Str
  body : Option Str

/-- What is to happen to a request. -/
structure Decision where
  profileId : Str
  allow : Bool
  statusCode : UInt16
  message : Option Str
  ruleId : Option Str

/-- The engine: the guests, and the parameters each profile hands to its own. -/
structure WafEngine (σ : Type) where
  vm : WasmVm σ
  profileParams : HashMap Str (HashMap Str Json)

/-- Why there is no decision on a request, and for which profile. -/
structure DecideError where
  profileId : Str
  cause : VmError
  deriving DecidableEq

/-- The text of the error. -/
def DecideError.text (e : DecideError) : Str :=
  "wasm decide failed for profile ".toList ++ e.profileId

/-- The parameters of a profile. -/
def WafEngine.params (engine : WafEngine σ) (profileId : Str) : HashMap Str Json :=
  (engine.profileParams.get? profileId).getD .empty

/-- The request for the guest. -/
def wasmRequest (params : HashMap Str Json) (req : RequestMeta) : WasmRequest where
  clientIp := req.clientIp.display
  method := req.method
  path := req.path
  query := req.query
  userAgent := req.userAgent
  headers := req.headers
  body := req.body
  params := params

/-- The status of a decision, when it is one of HTTP, else the usual one. -/
def statusCode (decision : WasmDecision) : UInt16 :=
  match decision.status with
  | some s => if 100 ≤ s ∧ s ≤ 599 then s else if decision.allow then 200 else 403
  | none => if decision.allow then 200 else 403

/-- `WafEngine::decide`. -/
def WafEngine.decide (engine : WafEngine σ) (serializer : Serializer) (profileId : Str)
    (req : RequestMeta) : Except DecideError Decision :=
  match engine.vm.decide serializer profileId (wasmRequest (engine.params profileId) req) with
  | .error e => .error ⟨profileId, e⟩
  | .ok decision =>
    .ok ⟨profileId, decision.allow, statusCode decision, decision.message, decision.ruleId⟩

/-- Only the module and the parameters of the profile matter. -/
theorem WafEngine.decide_congr {engine engine' : WafEngine σ} {profileId : Str}
    (hmodule : engine.vm.modules.get? profileId = engine'.vm.modules.get? profileId)
    (hparams : engine.params profileId = engine'.params profileId) (serializer : Serializer) :
    engine.decide serializer profileId = engine'.decide serializer profileId := by
  funext req
  rw [WafEngine.decide, WafEngine.decide, WasmVm.decide, WasmVm.decide, hmodule, hparams]

/-- **The status that is sent is one of HTTP**, whatever the guest says. -/
theorem statusCode_mem (decision : WasmDecision) :
    100 ≤ statusCode decision ∧ statusCode decision ≤ 599 := by
  have hdefault : ∀ allow : Bool, 100 ≤ (if allow then 200 else 403 : UInt16) ∧
      (if allow then 200 else 403 : UInt16) ≤ 599 := by decide
  rw [statusCode]
  split
  · split
    · assumption
    · exact hdefault _
  · exact hdefault _

theorem WafEngine.statusCode_of_decide {engine : WafEngine σ} {serializer : Serializer}
    {profileId : Str} {req : RequestMeta} {decision : Decision}
    (h : engine.decide serializer profileId req = .ok decision) :
    100 ≤ decision.statusCode ∧ decision.statusCode ≤ 599 := by
  rw [WafEngine.decide] at h
  split at h
  · cases h
  · cases h
    exact statusCode_mem _

end Wasm

end Fywaf
