import Fywaf.Wasm.Engine

/-!
# When there is a decision

The checks of the host, put together: a decision is returned exactly when the guest has gone
through a whole exchange, in which the request was placed in its memory, the result is of a length
the host accepts and lies in bounds, and the result is the text of that decision. An `Exchange`
holds all states the guest passes through, so a guest that traps, returns a bad pointer or a bad
length has none.

## Main definitions

* `Wasm.Exchange`
* `Wasm.Answers` — the guest of a profile answers a request with a decision

## Main results

* `Wasm.WasmVm.decide_eq_ok_iff`
* `Wasm.WafEngine.decide_eq_ok_iff`
-/

namespace Fywaf

namespace Wasm

variable {σ : Type}

/-- A module takes a request and yields a result. -/
structure Exchange (module : GuestModule σ) (request result : Bytes) where
  /-- The fresh instance. -/
  start : Store σ
  /-- The exports. -/
  getReqPtr : Call σ Int32
  decide : Int32 → Call σ Int32
  getResultPtr : Call σ Int32
  /-- The answer of `get_req_ptr`, and the memory once there is room for the request. -/
  reqPtr : Int32
  asked : Store σ
  room : Store σ
  /-- The memory with the request in it. -/
  memory : Memory
  /-- The answer of `decide`. -/
  resultLen : Int32
  decided : Store σ
  /-- The answer of `get_result_ptr`. -/
  resultPtr : Int32
  done : Store σ
  instantiated : module.instantiate wasmFuelPerCall = some start
  exportsMemory : module.exportsMemory = true
  exports : module.getReqPtr = some getReqPtr ∧ module.decide = some decide ∧
    module.getResultPtr = some getResultPtr
  request_le : request.length ≤ maxRequestJsonLen
  called : getReqPtr start = some (reqPtr, asked)
  reqPtr_nonneg : 0 ≤ reqPtr
  reqPtr_lt : reqPtr.toNatClampNeg < asked.memory.size
  hasRoom : asked.makeRoom module.canGrow (reqPtr.toNatClampNeg + request.length) = .ok room
  written : room.memory.write reqPtr.toNatClampNeg request = some memory
  decides : decide (Int32.ofNat request.length) (room.setMemory memory) = some (resultLen, decided)
  resultLen_pos : 0 < resultLen
  resultLen_le : resultLen.toNatClampNeg ≤ maxResultLen
  fetched : getResultPtr (decided.setFuel wasmFuelPerCall) = some (resultPtr, done)
  resultPtr_nonneg : 0 ≤ resultPtr
  inBounds : resultPtr.toNatClampNeg + resultLen.toNatClampNeg ≤ done.memory.size
  /-- The result is what the memory has there. -/
  result_eq : result =
    (List.range' resultPtr.toNatClampNeg resultLen.toNatClampNeg).map done.memory.byte

/-- **The result has between one and 65536 bytes.** -/
theorem Exchange.length_result {module : GuestModule σ} {request result : Bytes}
    (x : Exchange module request result) : 1 ≤ result.length ∧ result.length ≤ 65536 := by
  have hlen : result.length = x.resultLen.toNatClampNeg :=
    (congrArg List.length x.result_eq).trans (by rw [List.length_map, List.length_range'])
  have hpos := Int32.lt_iff_toInt_lt.mp x.resultLen_pos
  have htoInt : (0 : Int32).toInt = 0 := rfl
  have hclamp := Int32.toNat_toInt x.resultLen
  have hle := x.resultLen_le
  rw [hlen]
  exact ⟨by omega, hle⟩

/-! ### The steps of the host -/

section Steps

variable {module : GuestModule σ} {inst : Instance σ} {store store' : Store σ}

theorem start_eq_ok_iff : module.start = .ok inst ↔
    module.instantiate wasmFuelPerCall = some inst.store ∧ module.exportsMemory = true ∧
      module.getReqPtr = some inst.getReqPtr ∧ module.decide = some inst.decide ∧
      module.getResultPtr = some inst.getResultPtr ∧ inst.canGrow = module.canGrow := by
  obtain ⟨store, canGrow, getReqPtr, decide, getResultPtr⟩ := inst
  simp only [GuestModule.start, bind_eq_ok_iff, orFail_eq_ok_iff, failIf_eq_ok_iff,
    Bool.not_eq_false]
  constructor
  · rintro ⟨_, hstore, -, hmem, _, hreq, _, hdec, _, hres, h⟩
    cases h
    exact ⟨hstore, hmem, hreq, hdec, hres, rfl⟩
  · rintro ⟨hstore, hmem, hreq, hdec, hres, rfl⟩
    exact ⟨store, hstore, (), hmem, getReqPtr, hreq, decide, hdec, getResultPtr, hres, rfl⟩

theorem placeRequest_eq_ok_iff {request : Bytes} : placeRequest inst request = .ok store ↔
    request.length ≤ maxRequestJsonLen ∧ ∃ reqPtr asked room memory,
      inst.getReqPtr inst.store = some (reqPtr, asked) ∧ 0 ≤ reqPtr ∧
      reqPtr.toNatClampNeg < asked.memory.size ∧
      asked.makeRoom inst.canGrow (reqPtr.toNatClampNeg + request.length) = .ok room ∧
      room.memory.write reqPtr.toNatClampNeg request = some memory ∧
      store = room.setMemory memory := by
  simp only [placeRequest, bind_eq_ok_iff, orFail_eq_ok_iff, failIf_eq_ok_iff, Prod.exists,
    Int32.not_lt, not_lt, not_le]
  constructor
  · rintro ⟨-, hlen, reqPtr, asked, hcall, -, hneg, -, hlt, room, hroom, memory, hwrite, h⟩
    cases h
    exact ⟨hlen, reqPtr, asked, room, memory, hcall, hneg, hlt, hroom, hwrite, rfl⟩
  · rintro ⟨hlen, reqPtr, asked, room, memory, hcall, hneg, hlt, hroom, hwrite, rfl⟩
    exact ⟨(), hlen, reqPtr, asked, hcall, (), hneg, (), hlt, room, hroom, memory, hwrite, rfl⟩

theorem callDecide_eq_ok_iff {reqLen : Int32} {len : ℕ} :
    callDecide inst store reqLen = .ok (len, store') ↔
      ∃ resultLen, inst.decide reqLen store = some (resultLen, store') ∧ 0 < resultLen ∧
        resultLen.toNatClampNeg ≤ maxResultLen ∧ len = resultLen.toNatClampNeg := by
  simp only [callDecide, bind_eq_ok_iff, orFail_eq_ok_iff, failIf_eq_ok_iff, Prod.exists,
    Int32.not_le, not_lt]
  constructor
  · rintro ⟨resultLen, decided, hcall, -, hpos, -, hle, h⟩
    cases h
    exact ⟨resultLen, hcall, hpos, hle, rfl⟩
  · rintro ⟨resultLen, hcall, hpos, hle, rfl⟩
    exact ⟨resultLen, store', hcall, (), hpos, (), hle, rfl⟩

theorem Memory.read_eq_some_iff {m : Memory} {ptr len : ℕ} {bytes : Bytes} :
    m.read ptr len = some bytes ↔
      ptr + len ≤ m.size ∧ bytes = (List.range' ptr len).map m.byte := by
  rw [Memory.read]
  split
  · next h => rw [Option.some.injEq, and_iff_right h, eq_comm]
  · next h => exact iff_of_false (fun h' => by cases h') fun h' => h h'.1

theorem readResult_eq_ok_iff {len : ℕ} {result : Bytes} :
    readResult inst store len = .ok result ↔
      ∃ resultPtr done, inst.getResultPtr (store.setFuel wasmFuelPerCall) = some (resultPtr, done) ∧
        0 ≤ resultPtr ∧ resultPtr.toNatClampNeg + len ≤ done.memory.size ∧
        result = (List.range' resultPtr.toNatClampNeg len).map done.memory.byte := by
  simp only [readResult, bind_eq_ok_iff, orFail_eq_ok_iff, failIf_eq_ok_iff, Prod.exists,
    Int32.not_lt, not_lt, Memory.read_eq_some_iff]
  constructor
  · rintro ⟨resultPtr, done, hcall, -, hneg, -, hle, -, hread⟩
    exact ⟨resultPtr, done, hcall, hneg, hle, hread⟩
  · rintro ⟨resultPtr, done, hcall, hneg, hle, hread⟩
    exact ⟨resultPtr, done, hcall, (), hneg, (), hle, hle, hread⟩

end Steps

/-! ### The whole -/

/-- The guest of a profile answers a request with a decision. -/
def Answers (vm : WasmVm σ) (serializer : Serializer) (profileId : Str) (req : WasmRequest)
    (decision : WasmDecision) : Prop :=
  ∃ module result text, vm.modules.get? profileId = some module ∧
    Nonempty (Exchange module (asBytes (serializer.requestJson req)) result) ∧
    fromUtf8 result = some text ∧ serializer.readDecision text = some decision

/-- **A decision is returned exactly when the guest answers with it.** -/
theorem WasmVm.decide_eq_ok_iff {vm : WasmVm σ} {serializer : Serializer} {profileId : Str}
    {req : WasmRequest} {decision : WasmDecision} :
    vm.decide serializer profileId req = .ok decision ↔
      Answers vm serializer profileId req decision := by
  simp only [WasmVm.decide, bind_eq_ok_iff, orFail_eq_ok_iff, start_eq_ok_iff,
    placeRequest_eq_ok_iff, Prod.exists, callDecide_eq_ok_iff, readResult_eq_ok_iff, parseResult,
    Answers]
  constructor
  · rintro ⟨module, hmodule, ⟨start, canGrow, getReqPtr, decide, getResultPtr⟩,
      ⟨hstart, hmem, hreq, hdec, hres, rfl⟩, _,
      ⟨hlen, reqPtr, asked, room, memory, hcalled, hneg, hlt, hroom, hwritten, rfl⟩, _, decided,
      ⟨resultLen, hdecides, hpos, hle, rfl⟩, result,
      ⟨resultPtr, done, hfetched, hneg', hin, hresult⟩, text, htext, hread⟩
    exact ⟨module, result, text, hmodule,
      ⟨⟨start, getReqPtr, decide, getResultPtr, reqPtr, asked, room, memory, resultLen, decided,
        resultPtr, done, hstart, hmem, ⟨hreq, hdec, hres⟩, hlen, hcalled, hneg, hlt, hroom,
        hwritten, hdecides, hpos, hle, hfetched, hneg', hin, hresult⟩⟩, htext, hread⟩
  · rintro ⟨module, result, text, hmodule, ⟨x⟩, htext, hread⟩
    exact ⟨module, hmodule, ⟨x.start, module.canGrow, x.getReqPtr, x.decide, x.getResultPtr⟩,
      ⟨x.instantiated, x.exportsMemory, x.exports.1, x.exports.2.1, x.exports.2.2, rfl⟩,
      x.room.setMemory x.memory,
      ⟨x.request_le, x.reqPtr, x.asked, x.room, x.memory, x.called, x.reqPtr_nonneg, x.reqPtr_lt,
        x.hasRoom, x.written, rfl⟩, x.resultLen.toNatClampNeg, x.decided,
      ⟨x.resultLen, x.decides, x.resultLen_pos, x.resultLen_le, rfl⟩, result,
      ⟨x.resultPtr, x.done, x.fetched, x.resultPtr_nonneg, x.inBounds, x.result_eq⟩, text, htext,
      hread⟩

/-- The decision on a request is the one the guest answers with, with a status that can be
sent. -/
theorem WafEngine.decide_eq_ok_iff {engine : WafEngine σ} {serializer : Serializer}
    {profileId : Str} {req : RequestMeta} {decision : Decision} :
    engine.decide serializer profileId req = .ok decision ↔
      ∃ answer, Answers engine.vm serializer profileId
          (wasmRequest (engine.params profileId) req) answer ∧
        decision =
          ⟨profileId, answer.allow, statusCode answer, answer.message, answer.ruleId⟩ := by
  simp only [← WasmVm.decide_eq_ok_iff, WafEngine.decide]
  split
  · next e he =>
    refine iff_of_false (fun h => by cases h) ?_
    rintro ⟨answer, hanswer, -⟩
    rw [he] at hanswer
    cases hanswer
  · next answer hanswer =>
    rw [hanswer]
    constructor
    · intro h
      exact ⟨answer, rfl, (Except.ok.inj h).symm⟩
    · rintro ⟨_, ⟨⟩, rfl⟩
      rfl

end Wasm

end Fywaf
