import Fywaf.Crs.Guest
import Fywaf.Std.Traced
import Fywaf.Wasm.VmSpec

/-!
# Guests with two buffers

A guest keeps a request buffer and a result buffer in its memory, tells the host where they are,
and `decide` turns the one into the other. What such a guest is compiled to is not read here: a
module is compiled from it when its exports do to the memory what the guest does to its buffers.
Then the host and its memory can be forgotten, and a decision is a function of the JSON of the
request.

## Main definitions

* `Wasm.Decider` — what `decide` does to the buffers
* `Wasm.Layout`, `Wasm.Layout.Holds` — where the buffers are
* `Wasm.Compiled` — a module does what the guest does
* `Wasm.Layout.compile` — such a module
* `Wasm.receive` — what the host makes of a result
* `Wasm.Affordable` — a request fits, and so does the fuel

## Main results

* `Wasm.Memory.read_of_write`, `Wasm.Memory.read_written`
* `Wasm.WasmVm.decide_compiled`, `Wasm.WafEngine.decide_compiled` — a decision without the memory
* `Wasm.compiled_compile`
-/

namespace Fywaf

namespace Wasm

open Crs (Buffer bufLen)

/-! ### Memory -/

namespace Memory

variable {m m' : Memory} {ptr len : ℕ} {bytes old : Bytes}

/-- What was written, byte by byte. -/
theorem byte_of_write (h : m.write ptr bytes = some m') (i : ℕ) :
    m'.byte i = if ptr ≤ i then bytes[i - ptr]?.getD (m.byte i) else m.byte i := by
  rw [write] at h
  split at h
  · rw [← Option.some.inj h]
  · cases h

theorem size_of_write (h : m.write ptr bytes = some m') : m'.size = m.size := by
  rw [write] at h
  split at h
  · rw [← Option.some.inj h]
  · cases h

/-- What lies beside the bytes that were written is still there. -/
theorem read_of_write (h : m.write ptr bytes = some m') {p : ℕ}
    (hbeside : p + len ≤ ptr ∨ ptr + bytes.length ≤ p) : m'.read p len = m.read p len := by
  rw [read, read, size_of_write h]
  refine if_congr Iff.rfl (congrArg some (List.map_congr_left fun i hi => ?_)) rfl
  obtain ⟨hle, hlt⟩ := List.mem_range'_1.mp hi
  rw [byte_of_write h]
  split
  · next hptr =>
    rw [List.getElem?_eq_none (by omega)]
    rfl
  · rfl

/-- What was written is in front of the rest of what was there. -/
theorem read_written (h : m.write ptr bytes = some m') (hlen : bytes.length ≤ len)
    (hold : m.read ptr len = some old) :
    m'.read ptr len = some (bytes ++ old.drop bytes.length) := by
  obtain ⟨hin, rfl⟩ := read_eq_some_iff.mp hold
  refine read_eq_some_iff.mpr ⟨(size_of_write h).symm ▸ hin, List.ext_getElem? fun i => ?_⟩
  rw [List.getElem?_append, List.getElem?_map, List.getElem?_drop, List.getElem?_map]
  by_cases hi : i < bytes.length
  · rw [if_pos hi, List.getElem?_range' (by omega), Option.map_some, byte_of_write h,
      if_pos (by omega), show ptr + 1 * i - ptr = i by omega, List.getElem?_eq_getElem hi]
    rfl
  · rw [if_neg hi, Nat.add_sub_cancel' (Nat.not_lt.mp hi)]
    by_cases hi' : i < len
    · rw [List.getElem?_range' hi', Option.map_some, Option.map_some, byte_of_write h,
        if_pos (by omega), List.getElem?_eq_none (by omega)]
      rfl
    · rw [List.getElem?_eq_none (by rw [List.length_range']; omega)]
      rfl

theorem exists_write (h : ptr + bytes.length ≤ m.size) : ∃ m', m.write ptr bytes = some m' :=
  ⟨_, if_pos h⟩

end Memory

/-! ### Compiled guests -/

/-- What `decide` does: from the request buffer, the result buffer and the length of the request
come the length of the result and the result buffer afterwards. -/
def Decider : Type := Buffer → Buffer → Int32 → Int32 × Buffer

/-- A buffer as it is at the start. -/
def zeroBuffer : Buffer := ⟨List.replicate bufLen 0, List.length_replicate⟩

/-- Bytes that fit are in front of what was in the buffer behind them. -/
theorem bytes_overwrite {buf : Buffer} {bytes : Bytes} (h : bytes.length ≤ bufLen) :
    (buf.overwrite bytes).bytes = bytes ++ buf.bytes.drop bytes.length := by
  simp only [Buffer.overwrite, List.take_of_length_le h, Nat.min_eq_left h]

/-- Where a guest keeps its buffers, and what it spends. -/
structure Layout where
  reqPtr : Int32
  resultPtr : Int32
  /-- The fuel that is left when `decide` is called. -/
  fuelLeft : ℕ
  /-- The fuel that `decide` uses; a call that traps uses more than there is. -/
  cost : Buffer → Int32 → ℕ
  reqPtr_nonneg : 0 ≤ reqPtr
  resultPtr_nonneg : 0 ≤ resultPtr
  /-- The buffers do not overlap. -/
  disjoint : resultPtr.toNatClampNeg + bufLen ≤ reqPtr.toNatClampNeg ∨
    reqPtr.toNatClampNeg + bufLen ≤ resultPtr.toNatClampNeg

namespace Layout

/-- The memory has the buffers where they belong. -/
structure Holds (layout : Layout) (m : Memory) (reqBuf resultBuf : Buffer) : Prop where
  reqBuf : m.read layout.reqPtr.toNatClampNeg bufLen = some reqBuf.bytes
  resultBuf : m.read layout.resultPtr.toNatClampNeg bufLen = some resultBuf.bytes

variable {layout : Layout} {m m' : Memory} {reqBuf resultBuf : Buffer}

/-- Bytes that the host writes to the request buffer go into that buffer and nowhere else. -/
theorem Holds.write (h : layout.Holds m reqBuf resultBuf) {bytes : Bytes}
    (hlen : bytes.length ≤ bufLen)
    (hwrite : m.write layout.reqPtr.toNatClampNeg bytes = some m') :
    layout.Holds m' (reqBuf.overwrite bytes) resultBuf where
  reqBuf := by
    rw [Memory.read_written hwrite hlen h.reqBuf, bytes_overwrite hlen]
  resultBuf := by
    have hdisjoint := layout.disjoint
    rw [Memory.read_of_write hwrite (by omega), h.resultBuf]

/-- Both buffers are in bounds. -/
theorem Holds.le_size (h : layout.Holds m reqBuf resultBuf) :
    layout.reqPtr.toNatClampNeg + bufLen ≤ m.size ∧
      layout.resultPtr.toNatClampNeg + bufLen ≤ m.size :=
  ⟨(Memory.read_eq_some_iff.mp h.reqBuf).1, (Memory.read_eq_some_iff.mp h.resultBuf).1⟩

/-- The beginning of the result buffer. -/
theorem Holds.read_result (h : layout.Holds m reqBuf resultBuf) {n : ℕ} (hn : n ≤ bufLen) :
    m.read layout.resultPtr.toNatClampNeg n = some (resultBuf.bytes.take n) := by
  obtain ⟨hin, hbytes⟩ := Memory.read_eq_some_iff.mp h.resultBuf
  refine Memory.read_eq_some_iff.mpr ⟨by omega, ?_⟩
  rw [hbytes, ← List.map_take, List.take_range'_of_length_ge hn]

end Layout

variable {σ : Type}

/-- The module is compiled from the guest: a fresh instance has cleared buffers, the pointer
functions say where they are, and `decide` does to them what the guest does, when the fuel
suffices. -/
structure Compiled (module : GuestModule σ) (layout : Layout) (guest : Decider) : Prop where
  exportsMemory : module.exportsMemory = true
  /-- A fresh instance is asked for its request buffer. -/
  start : ∃ store asked getReqPtr, module.instantiate wasmFuelPerCall = some store ∧
    module.getReqPtr = some getReqPtr ∧ getReqPtr store = some (layout.reqPtr, asked) ∧
    asked.fuel = layout.fuelLeft ∧ layout.Holds asked.memory zeroBuffer zeroBuffer
  decide : ∃ decide, module.decide = some decide ∧
    ∀ {store reqBuf resultBuf} reqLen, layout.Holds store.memory reqBuf resultBuf →
      (store.fuel < layout.cost reqBuf reqLen → decide reqLen store = none) ∧
      (layout.cost reqBuf reqLen ≤ store.fuel → ∃ decided,
        decide reqLen store = some ((guest reqBuf resultBuf reqLen).1, decided) ∧
        layout.Holds decided.memory reqBuf (guest reqBuf resultBuf reqLen).2)
  getResultPtr : ∃ getResultPtr, module.getResultPtr = some getResultPtr ∧
    ∀ store, store.fuel = wasmFuelPerCall → ∃ done,
      getResultPtr store = some (layout.resultPtr, done) ∧ done.memory = store.memory

/-- What the host makes of the result of a guest. -/
def receive (serializer : Serializer) (result : Int32 × Buffer) :
    Except VmError WasmDecision := do
  failIf (result.1 ≤ 0) (.invalidLength result.1)
  failIf (maxResultLen < result.1.toNatClampNeg) (.resultTooLong result.1)
  parseResult serializer (result.2.bytes.take result.1.toNatClampNeg)

/-! ### The host and a compiled guest -/

section Host

variable {module : GuestModule σ} {layout : Layout} {guest : Decider}

/-- A compiled module starts. -/
theorem Compiled.start_ok (h : Compiled module layout guest) : ∃ inst asked,
    module.start = .ok inst ∧ inst.getReqPtr inst.store = some (layout.reqPtr, asked) ∧
    asked.fuel = layout.fuelLeft ∧ layout.Holds asked.memory zeroBuffer zeroBuffer ∧
    (∀ {store reqBuf resultBuf} reqLen, layout.Holds store.memory reqBuf resultBuf →
      (store.fuel < layout.cost reqBuf reqLen → inst.decide reqLen store = none) ∧
      (layout.cost reqBuf reqLen ≤ store.fuel → ∃ decided,
        inst.decide reqLen store = some ((guest reqBuf resultBuf reqLen).1, decided) ∧
        layout.Holds decided.memory reqBuf (guest reqBuf resultBuf reqLen).2)) ∧
    ∀ store, store.fuel = wasmFuelPerCall → ∃ done,
      inst.getResultPtr store = some (layout.resultPtr, done) ∧ done.memory = store.memory := by
  obtain ⟨store, asked, getReqPtr, hstore, hreq, hasked, hfuel, hholds⟩ := h.start
  obtain ⟨decide, hdec, hdecide⟩ := h.decide
  obtain ⟨getResultPtr, hres, hresult⟩ := h.getResultPtr
  exact ⟨⟨store, module.canGrow, getReqPtr, decide, getResultPtr⟩, asked,
    start_eq_ok_iff.mpr ⟨hstore, h.exportsMemory, hreq, hdec, hres, rfl⟩, hasked, hfuel, hholds,
    hdecide, hresult⟩

/-- The request is placed in the request buffer. -/
theorem placeRequest_holds {inst : Instance σ} {asked : Store σ} {reqBuf resultBuf : Buffer}
    (hasked : inst.getReqPtr inst.store = some (layout.reqPtr, asked))
    (hholds : layout.Holds asked.memory reqBuf resultBuf) {json : Bytes}
    (hlen : json.length ≤ bufLen) : ∃ store, placeRequest inst json = .ok store ∧
      store.fuel = asked.fuel ∧ layout.Holds store.memory (reqBuf.overwrite json) resultBuf := by
  obtain ⟨hsize, -⟩ := hholds.le_size
  have hbuf : 0 < bufLen := by decide
  have hroom : asked.makeRoom inst.canGrow (layout.reqPtr.toNatClampNeg + json.length) =
      .ok asked := if_neg (by omega)
  obtain ⟨memory, hmemory⟩ := Memory.exists_write
    (show layout.reqPtr.toNatClampNeg + json.length ≤ asked.memory.size by omega)
  exact ⟨asked.setMemory memory, placeRequest_eq_ok_iff.mpr
    ⟨hlen, layout.reqPtr, asked, asked, memory, hasked, layout.reqPtr_nonneg, by omega, hroom,
      hmemory, rfl⟩, rfl, hholds.write hlen hmemory⟩

/-- The length of a result is checked before anything else is done with it. -/
theorem callDecide_bind {inst : Instance σ} {store decided : Store σ} {reqLen resultLen : Int32}
    (h : inst.decide reqLen store = some (resultLen, decided)) {α : Type}
    (f : ℕ × Store σ → Except VmError α) : callDecide inst store reqLen >>= f = (do
      failIf (resultLen ≤ 0) (.invalidLength resultLen)
      failIf (maxResultLen < resultLen.toNatClampNeg) (.resultTooLong resultLen)
      f (resultLen.toNatClampNeg, decided)) := by
  simp only [callDecide, h, orFail, ok_bind, bind_assoc, pure_bind]

/-- A result that is not refused is read. -/
theorem readResult_holds {inst : Instance σ} {decided : Store σ} {reqBuf resultBuf : Buffer}
    (hresult : ∀ store, store.fuel = wasmFuelPerCall → ∃ done,
      inst.getResultPtr store = some (layout.resultPtr, done) ∧ done.memory = store.memory)
    (hholds : layout.Holds decided.memory reqBuf resultBuf) {n : ℕ} (hn : n ≤ bufLen) :
    readResult inst decided n = .ok (resultBuf.bytes.take n) := by
  obtain ⟨done, hdone, hmemory⟩ := hresult (decided.setFuel wasmFuelPerCall) rfl
  obtain ⟨hin, hbytes⟩ := Memory.read_eq_some_iff.mp (hholds.read_result hn)
  have hsame : done.memory = decided.memory := hmemory
  rw [← hsame] at hin hbytes
  exact readResult_eq_ok_iff.mpr
    ⟨layout.resultPtr, done, hdone, layout.resultPtr_nonneg, hin, hbytes⟩

/-- **A decision without the memory.** What a compiled module answers is what the guest does with
the JSON of the request in a cleared buffer, unless that is too long or the fuel does not
suffice. -/
theorem WasmVm.decide_compiled (h : Compiled module layout guest) {vm : WasmVm σ}
    {profileId : Str} (hmodule : vm.modules.get? profileId = some module)
    (serializer : Serializer) (req : WasmRequest) {json : Bytes}
    (hjson : asBytes (serializer.requestJson req) = json) :
    vm.decide serializer profileId req =
      if bufLen < json.length then .error (.requestTooLong json.length)
      else if layout.fuelLeft < layout.cost (zeroBuffer.overwrite json) (Int32.ofNat json.length)
      then .error .decideFailed
      else receive serializer
        (guest (zeroBuffer.overwrite json) zeroBuffer (Int32.ofNat json.length)) := by
  obtain ⟨inst, asked, hstart, hasked, hfuel, hholds, hdecide, hresult⟩ := h.start_ok
  have hstarted : vm.decide serializer profileId req = (do
      let store ← placeRequest inst json
      let decided ← callDecide inst store (Int32.ofNat json.length)
      let resultBytes ← readResult inst decided.2 decided.1
      parseResult serializer resultBytes) := by
    rw [decide, hmodule, hjson]
    change (module.start >>= _) = _
    rw [hstart]
    rfl
  rw [hstarted]
  split
  · next hlong =>
    have hrefused : failIf (maxRequestJsonLen < json.length)
      (VmError.requestTooLong json.length) = .error (.requestTooLong json.length) := if_pos hlong
    rw [placeRequest, hrefused]
    rfl
  next hlen =>
  obtain ⟨store, hplaced, hstoreFuel, hstore⟩ := placeRequest_holds hasked hholds (not_lt.mp hlen)
  obtain ⟨hshort, henough⟩ := hdecide (Int32.ofNat json.length) hstore
  rw [hstoreFuel, hfuel] at hshort henough
  rw [hplaced, ok_bind]
  split
  · next hcost =>
    rw [callDecide, hshort hcost]
    rfl
  next hcost =>
  obtain ⟨decided, hdecided, hheld⟩ := henough (not_lt.mp hcost)
  rw [callDecide_bind hdecided, receive]
  refine bind_congr_of_ok fun _ _ => bind_congr_of_ok fun _ hfits => ?_
  rw [readResult_holds hresult hheld (not_lt.mp (failIf_eq_ok_iff.mp hfits)), ok_bind]

/-- The JSON of a request fits, and the fuel suffices to decide on it. -/
structure Affordable (layout : Layout) (json : Bytes) : Prop where
  length_le : json.length ≤ bufLen
  cost_le : layout.cost (zeroBuffer.overwrite json) (Int32.ofNat json.length) ≤ layout.fuelLeft

instance (layout : Layout) (json : Bytes) : Decidable (Affordable layout json) :=
  decidable_of_iff (json.length ≤ bufLen ∧
      layout.cost (zeroBuffer.overwrite json) (Int32.ofNat json.length) ≤ layout.fuelLeft)
    ⟨fun h => ⟨h.1, h.2⟩, fun h => ⟨h.length_le, h.cost_le⟩⟩

/-- **The decision of the engine is the answer of the guest**, for every request that fits and that
the fuel suffices for. -/
theorem WafEngine.decide_compiled (h : Compiled module layout guest) {engine : WafEngine σ}
    {serializer : Serializer} {profileId : Str}
    (hmodule : engine.vm.modules.get? profileId = some module) (req : RequestMeta)
    (decision : Decision) {json : Bytes}
    (hjson : asBytes (serializer.requestJson (wasmRequest (engine.params profileId) req)) = json)
    {answer : WasmDecision}
    (hanswer : json.length ≤ bufLen → receive serializer
      (guest (zeroBuffer.overwrite json) zeroBuffer (Int32.ofNat json.length)) = .ok answer) :
    engine.decide serializer profileId req = .ok decision ↔ Affordable layout json ∧
      decision = ⟨profileId, answer.allow, statusCode answer, answer.message, answer.ruleId⟩ := by
  rw [decide, WasmVm.decide_compiled h hmodule serializer _ hjson]
  by_cases hlen : bufLen < json.length
  · rw [if_pos hlen]
    exact iff_of_false (fun h' => by cases h') fun h' => absurd h'.1.length_le (not_le.mpr hlen)
  by_cases hcost : layout.fuelLeft <
      layout.cost (zeroBuffer.overwrite json) (Int32.ofNat json.length)
  · rw [if_neg hlen, if_pos hcost]
    exact iff_of_false (fun h' => by cases h') fun h' => absurd h'.1.cost_le (not_le.mpr hcost)
  rw [if_neg hlen, if_neg hcost, hanswer (not_lt.mp hlen),
    and_iff_right ⟨not_lt.mp hlen, not_lt.mp hcost⟩]
  constructor
  · intro h'
    exact (Except.ok.inj h').symm
  · rintro rfl
    rfl

end Host

/-! ### Replies -/

section Reply

variable {serializer : Serializer}

/-- A text that is not empty and fits into the result buffer arrives at the host. -/
theorem receive_reply {text : Str} (hpos : text ≠ []) (hlen : (asBytes text).length ≤ bufLen)
    (buf : Buffer) :
    receive serializer (Int32.ofNat (min (asBytes text).length bufLen),
        buf.overwrite (asBytes text)) =
      orFail (serializer.readDecision text) (.invalidDecision text) := by
  have hbuf : bufLen = 65536 := rfl
  have hpos' : 0 < (asBytes text).length := by
    refine List.length_pos_iff.mpr fun h => hpos (asBytes_injective h)
  have hclamp : (Int32.ofNat (asBytes text).length).toNatClampNeg = (asBytes text).length :=
    Int32.toNatClampNeg_ofNat_of_lt (by omega)
  have htoInt := Int32.toInt_ofNat_of_lt (show (asBytes text).length < 2 ^ 31 by omega)
  have hresultPos : ¬ Int32.ofNat (asBytes text).length ≤ 0 := by
    rw [Int32.le_iff_toInt_le, htoInt]
    change ¬ ((asBytes text).length : ℤ) ≤ 0
    omega
  have hpass : failIf (Int32.ofNat (asBytes text).length ≤ 0)
      (VmError.invalidLength (Int32.ofNat (asBytes text).length)) = .ok () := if_neg hresultPos
  have hpass' : failIf (maxResultLen < (asBytes text).length)
      (VmError.resultTooLong (Int32.ofNat (asBytes text).length)) = .ok () :=
    if_neg (not_lt.mpr hlen)
  have htake : (buf.overwrite (asBytes text)).bytes.take (asBytes text).length = asBytes text := by
    rw [bytes_overwrite hlen, List.take_left]
  rw [receive, Nat.min_eq_left hlen, hclamp, hpass, hpass', ok_bind, ok_bind, htake, parseResult,
    fromUtf8_asBytes]
  rfl

/-- A field that may be left out: it was written, as null when there is nothing, or there is
nothing and it was not written. -/
def WritesOption (fields : List (String × Json)) (name : String) (value : Option Str) : Prop :=
  (name, optionJson value) ∈ fields ∨ (value = none ∧ name ∉ fields.map Prod.fst)

/-- Either way the host reads the same. -/
theorem readOptional_owned {fields : List (String × Json)}
    (hnodup : (fields.map Prod.fst).Nodup) {index : ℕ} {name : String} {value : Option Str}
    (h : WritesOption fields name value) :
    readOptional index name readOwned (writeStruct fields).tokens = some value := by
  rcases h with hmem | ⟨rfl, hmem⟩
  · rw [readOptional, readField_writeStruct hnodup hmem]
    cases value <;> rfl
  · exact readField_writeStruct_of_not_mem hmem

/-- **The host reads the decision that a guest wrote.** -/
theorem ofToken_writeStruct {fields : List (String × Json)} {allow : Bool} {status : UInt16}
    {message ruleId : Option Str} (hstatus : status.toNat < 2 ^ 64)
    (hnodup : (fields.map Prod.fst).Nodup) (hallow : ("allow", .bool allow) ∈ fields)
    (hstatus' : ("status", .number (.posInt status.toNat hstatus)) ∈ fields)
    (hmessage : WritesOption fields "message" message)
    (hruleId : WritesOption fields "rule_id" ruleId) :
    WasmDecision.ofToken (writeStruct fields).tokens =
      some ⟨allow, some status, message, ruleId⟩ := by
  have hstruct : isStruct 4 (writeStruct fields).tokens = true := rfl
  have hread : readNullable readU16 (Json.number (.posInt status.toNat hstatus)).tokens =
      some (some status) := by
    change (readU16 (.int false status.toNat)).map some = _
    rw [readU16, if_pos status.toNat_lt, UInt16.ofNat_toNat]
    rfl
  rw [WasmDecision.ofToken, if_pos hstruct, readRequired, readField_writeStruct hnodup hallow,
    readOptional, readField_writeStruct hnodup hstatus', hread, readOptional_owned hnodup hmessage,
    readOptional_owned hnodup hruleId]
  rfl

end Reply

/-! ### A compiled guest -/

/-- The buffer that a memory has at an address. -/
def Memory.buffer (m : Memory) (ptr : ℕ) : Buffer where
  bytes := (List.range' ptr bufLen).map m.byte
  length_eq := by rw [List.length_map, List.length_range']

/-- The module of a guest whose memory has nothing but the two buffers, and which uses fuel only
for its decision. -/
def Layout.compile (layout : Layout) (guest : Decider) : GuestModule Unit where
  instantiate _ := some
    { state := ()
      memory := ⟨max layout.reqPtr.toNatClampNeg layout.resultPtr.toNatClampNeg + bufLen,
        fun _ => 0⟩
      fuel := layout.fuelLeft }
  exportsMemory := true
  getReqPtr := some fun store => some (layout.reqPtr, store)
  decide := some fun reqLen store =>
    let reqBuf := store.memory.buffer layout.reqPtr.toNatClampNeg
    let resultBuf := store.memory.buffer layout.resultPtr.toNatClampNeg
    if layout.cost reqBuf reqLen ≤ store.fuel then
      let (resultLen, resultBuf) := guest reqBuf resultBuf reqLen
      (store.memory.write layout.resultPtr.toNatClampNeg resultBuf.bytes).map fun memory =>
        (resultLen, (store.setMemory memory).setFuel (store.fuel - layout.cost reqBuf reqLen))
    else none
  getResultPtr := some fun store => some (layout.resultPtr, store)
  canGrow _ _ := false

section Compile

variable {layout : Layout} {guest : Decider} {m : Memory} {reqBuf resultBuf : Buffer}

theorem Memory.buffer_eq {ptr : ℕ} (h : m.read ptr bufLen = some reqBuf.bytes) :
    m.buffer ptr = reqBuf := by
  obtain ⟨bytes, hlen⟩ := reqBuf
  obtain ⟨-, rfl⟩ := Memory.read_eq_some_iff.mp h
  rfl

/-- A cleared memory has cleared buffers. -/
theorem Memory.read_zero {size ptr : ℕ} (h : ptr + bufLen ≤ size) :
    (⟨size, fun _ => 0⟩ : Memory).read ptr bufLen = some zeroBuffer.bytes := by
  refine read_eq_some_iff.mpr ⟨h, ?_⟩
  rw [List.map_const', List.length_range']
  rfl

/-- A result that was written is in the result buffer, and the request buffer is as it was. -/
theorem Layout.Holds.write_result (h : layout.Holds m reqBuf resultBuf) {m' : Memory}
    {buf : Buffer} (hwrite : m.write layout.resultPtr.toNatClampNeg buf.bytes = some m') :
    layout.Holds m' reqBuf buf where
  reqBuf := by
    have hdisjoint := layout.disjoint
    have hlen := buf.length_eq
    rw [Memory.read_of_write hwrite (by omega), h.reqBuf]
  resultBuf := by
    rw [Memory.read_written hwrite buf.length_eq.le h.resultBuf, List.drop_eq_nil_of_le,
      List.append_nil]
    rw [resultBuf.length_eq, buf.length_eq]

/-- The module does what the guest does. -/
theorem compiled_compile (layout : Layout) (guest : Decider) :
    Compiled (layout.compile guest) layout guest where
  exportsMemory := rfl
  start := by
    refine ⟨_, _, _, rfl, rfl, rfl, rfl, Memory.read_zero ?_, Memory.read_zero ?_⟩
    · exact Nat.add_le_add_right (le_max_left _ _) _
    · exact Nat.add_le_add_right (le_max_right _ _) _
  decide := by
    refine ⟨_, rfl, fun {store reqBuf resultBuf} reqLen hholds => ?_⟩
    dsimp only
    rw [Memory.buffer_eq hholds.reqBuf, Memory.buffer_eq hholds.resultBuf]
    refine ⟨fun hshort => if_neg (not_le.mpr hshort), fun henough => ?_⟩
    obtain ⟨memory, hmemory⟩ := Memory.exists_write
      (show layout.resultPtr.toNatClampNeg + (guest reqBuf resultBuf reqLen).2.bytes.length ≤
        store.memory.size by
        rw [Buffer.length_eq]
        exact hholds.le_size.2)
    rw [if_pos henough, hmemory]
    exact ⟨_, rfl, hholds.write_result hmemory⟩
  getResultPtr := ⟨_, rfl, fun store _ => ⟨store, rfl, rfl⟩⟩

end Compile

/-- The request buffer at the start of the memory and the result buffer behind it; a decision
uses a unit of fuel for each byte. -/
def twoPages : Layout where
  reqPtr := 0
  resultPtr := 65536
  fuelLeft := wasmFuelPerCall
  cost _ reqLen := reqLen.toNatClampNeg
  reqPtr_nonneg := by decide
  resultPtr_nonneg := by decide
  disjoint := Or.inr (by decide)

end Wasm

end Fywaf
