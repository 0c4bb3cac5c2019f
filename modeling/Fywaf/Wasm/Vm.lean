import Fywaf.Std.Checks
import Fywaf.Wasm.Module
import Fywaf.Wasm.Types

/-!
# The virtual machine host

`WasmVm::decide` runs the guest of a profile on a request: a fresh instance gets the request as
JSON into its memory, is asked for a decision, and the decision is read out of its memory again.
Nothing the guest returns is taken on trust. The function is one sequence of checks, cut here
where the guest is called.

## Main definitions

* `Wasm.VmError`, `Wasm.WasmVm`
* `Wasm.Instance`, `Wasm.GuestModule.start`
* `Wasm.placeRequest`, `Wasm.callDecide`, `Wasm.readResult`, `Wasm.parseResult`
* `Wasm.WasmVm.decide`
-/

namespace Fywaf

namespace Wasm

variable {σ : Type}

/-- Why there is no decision. -/
inductive VmError
  | profileNotFound (profileId : Str)
  | instantiateFailed
  | noMemory
  | noGetReqPtr
  | noDecide
  | noGetResultPtr
  | requestTooLong (len : ℕ)
  | getReqPtrFailed
  | negativeReqPtr (ptr : Int32)
  | reqPtrOutside (ptr : Int32) (memSize : ℕ)
  | growFailed
  | writeFailed
  | decideFailed
  | invalidLength (len : Int32)
  | resultTooLong (len : Int32)
  | getResultPtrFailed
  | negativeResultPtr (ptr : Int32)
  | resultOutside (ptr : Int32) (resultEnd memSize : ℕ)
  | readFailed
  | resultNotUtf8
  | invalidDecision (resultJson : Str)
  deriving DecidableEq

/-- Fuel for a request, and again for fetching its result. -/
def wasmFuelPerCall : ℕ := 1000000

/-- The longest result. -/
def maxResultLen : ℕ := wasmPageSize

/-- The longest request. -/
def maxRequestJsonLen : ℕ := wasmPageSize

/-- The text of the error. An error of the runtime itself has its own text there. -/
def VmError.text : VmError → Str
  | profileNotFound profileId => "profile not found: ".toList ++ profileId
  | instantiateFailed => "instantiate failed".toList
  | noMemory => "memory export not found".toList
  | noGetReqPtr => "get_req_ptr function not found or has wrong signature".toList
  | noDecide => "decide function not found or has wrong signature".toList
  | noGetResultPtr => "get_result_ptr function not found or has wrong signature".toList
  | requestTooLong len =>
    "serialized request (".toList ++ decimal len ++
      " bytes) exceeds the maximum allowed length (".toList ++ decimal maxRequestJsonLen ++
      " bytes)".toList
  | getReqPtrFailed => "failed to call get_req_ptr".toList
  | negativeReqPtr ptr =>
    "get_req_ptr returned negative pointer: ".toList ++ signedDecimal ptr.toInt
  | reqPtrOutside ptr memSize =>
    "get_req_ptr returned pointer ".toList ++ signedDecimal ptr.toInt ++
      " outside linear memory (size: ".toList ++ decimal memSize ++ [')']
  | growFailed => "failed to grow memory".toList
  | writeFailed => "failed to write request to memory".toList
  | decideFailed => "failed to call decide function".toList
  | invalidLength len =>
    "decide function returned invalid length: ".toList ++ signedDecimal len.toInt
  | resultTooLong len =>
    "decide function returned result length ".toList ++ signedDecimal len.toInt ++
      " exceeding maximum ".toList ++ decimal maxResultLen
  | getResultPtrFailed => "failed to call get_result_ptr".toList
  | negativeResultPtr ptr =>
    "get_result_ptr returned negative pointer: ".toList ++ signedDecimal ptr.toInt
  | resultOutside ptr resultEnd memSize =>
    "result [".toList ++ signedDecimal ptr.toInt ++ ", ".toList ++ decimal resultEnd ++
      ") is out of bounds (memory size: ".toList ++ decimal memSize ++ [')']
  | readFailed => "failed to read result from memory".toList
  | resultNotUtf8 => "result is not valid utf-8".toList
  | invalidDecision resultJson => "failed to parse decision: ".toList ++ resultJson

/-- The modules of the profiles. -/
structure WasmVm (σ : Type) where
  modules : HashMap Str (GuestModule σ)

/-- A fresh instance and its exports. -/
structure Instance (σ : Type) where
  store : Store σ
  canGrow : Store σ → ℕ → Bool
  getReqPtr : Call σ Int32
  decide : Int32 → Call σ Int32
  getResultPtr : Call σ Int32

/-- A fresh instance of a module, with all that is called later. -/
def GuestModule.start (module : GuestModule σ) : Except VmError (Instance σ) := do
  let store ← orFail (module.instantiate wasmFuelPerCall) .instantiateFailed
  failIf (module.exportsMemory = false) .noMemory
  let getReqPtr ← orFail module.getReqPtr .noGetReqPtr
  let decide ← orFail module.decide .noDecide
  let getResultPtr ← orFail module.getResultPtr .noGetResultPtr
  return ⟨store, module.canGrow, getReqPtr, decide, getResultPtr⟩

/-- The memory grown, when it ends before `reqEnd`. -/
def Store.makeRoom (canGrow : Store σ → ℕ → Bool) (store : Store σ) (reqEnd : ℕ) :
    Except VmError (Store σ) :=
  if store.memory.size < reqEnd then
    let pagesToGrow := (reqEnd - store.memory.size + (wasmPageSize - 1)) / wasmPageSize
    if canGrow store pagesToGrow then .ok (store.setMemory (store.memory.grow pagesToGrow))
    else .error .growFailed
  else .ok store

/-- The request is put where the guest wants it. A pointer below `2 ^ 31` and a length up to
`maxRequestJsonLen` do not overflow. -/
def placeRequest (inst : Instance σ) (reqBytes : Bytes) : Except VmError (Store σ) := do
  failIf (maxRequestJsonLen < reqBytes.length) (.requestTooLong reqBytes.length)
  let (reqPtr, store) ← orFail (inst.getReqPtr inst.store) .getReqPtrFailed
  failIf (reqPtr < 0) (.negativeReqPtr reqPtr)
  failIf (store.memory.size ≤ reqPtr.toNatClampNeg) (.reqPtrOutside reqPtr store.memory.size)
  let store ← store.makeRoom inst.canGrow (reqPtr.toNatClampNeg + reqBytes.length)
  let memory ← orFail (store.memory.write reqPtr.toNatClampNeg reqBytes) .writeFailed
  return store.setMemory memory

/-- The guest decides; it returns the length of its result. -/
def callDecide (inst : Instance σ) (store : Store σ) (reqLen : Int32) :
    Except VmError (ℕ × Store σ) := do
  let (resultLen, store) ← orFail (inst.decide reqLen store) .decideFailed
  failIf (resultLen ≤ 0) (.invalidLength resultLen)
  failIf (maxResultLen < resultLen.toNatClampNeg) (.resultTooLong resultLen)
  return (resultLen.toNatClampNeg, store)

/-- The result is read from where the guest says, with the fuel replenished. -/
def readResult (inst : Instance σ) (store : Store σ) (resultLen : ℕ) : Except VmError Bytes := do
  let (resultPtr, store) ←
    orFail (inst.getResultPtr (store.setFuel wasmFuelPerCall)) .getResultPtrFailed
  failIf (resultPtr < 0) (.negativeResultPtr resultPtr)
  let resultEnd := resultPtr.toNatClampNeg + resultLen
  failIf (store.memory.size < resultEnd) (.resultOutside resultPtr resultEnd store.memory.size)
  orFail (store.memory.read resultPtr.toNatClampNeg resultLen) .readFailed

/-- The decision that the result says. -/
def parseResult (serializer : Serializer) (resultBytes : Bytes) :
    Except VmError WasmDecision := do
  let resultJson ← orFail (fromUtf8 resultBytes) .resultNotUtf8
  orFail (serializer.readDecision resultJson) (.invalidDecision resultJson)

/-- `WasmVm::decide`. -/
def WasmVm.decide (vm : WasmVm σ) (serializer : Serializer) (profileId : Str)
    (req : WasmRequest) : Except VmError WasmDecision := do
  let module ← orFail (vm.modules.get? profileId) (.profileNotFound profileId)
  let inst ← module.start
  let reqBytes := asBytes (serializer.requestJson req)
  let store ← placeRequest inst reqBytes
  let (resultLen, store) ← callDecide inst store (Int32.ofNat reqBytes.length)
  let resultBytes ← readResult inst store resultLen
  parseResult serializer resultBytes

end Wasm

end Fywaf
