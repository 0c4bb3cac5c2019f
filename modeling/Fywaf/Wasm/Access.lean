import Mathlib.Order.Bounds.Basic
import Fywaf.Std.Traced
import Fywaf.Wasm.VmSpec

/-!
# Memory accesses of the host

`WasmVm::decide` with the integers the program computes with: pointers and lengths of 32 bits with
a sign, offsets and sizes of 64 bits without, every cast and the two additions that could overflow.
Each time the host grows, writes or reads the memory of the guest is entered in a log, with the
numbers that led there.

Whatever the guest returns, every access is in bounds and no number in it has wrapped. Numbers in
range behave as in `WasmVm.decide`, so the two functions return the same.

## Main definitions

* `Wasm.Placement`, `Wasm.Retrieval`, `Wasm.Access`
* `Wasm.WasmVm.decideRun` — `WasmVm::decide` on machine integers, with its accesses
* `Wasm.Access.InBounds`
* `Wasm.GuestModule.Addressable` — what is assumed of the runtime
-/

namespace Fywaf

namespace Wasm

variable {σ : Type}

/-! ### Machine integers -/

/-- `u64::checked_add`. -/
def checkedAdd (a b : UInt64) : Option UInt64 :=
  if a.toNat + b.toNat < 2 ^ 64 then some (a + b) else none

/-- `u64::div_ceil`. -/
def divCeil (a b : UInt64) : UInt64 := if 0 < a % b then a / b + 1 else a / b

/-- `x as u32 as u64`. -/
def pointerU64 (x : Int32) : UInt64 := x.toUInt32.toUInt64

/-- `x as u64`, which extends the sign. -/
def lengthU64 (x : Int32) : UInt64 := UInt64.ofInt x.toInt

/-- `Memory::data_size`, as a `u64`. -/
def Memory.dataSize (m : Memory) : UInt64 := UInt64.ofNat m.size

/-! ### The log -/

/-- The numbers of the request path: what the guest returned, what the host made of it, and the
length of the request and the size of the memory as they are. -/
structure Placement where
  reqPtr : Int32
  reqLen : Int32
  reqPtrU64 : UInt64
  reqEnd : UInt64
  memSize : UInt64
  length : ℕ
  size : ℕ

/-- The numbers of the result path. -/
structure Retrieval where
  resultPtr : Int32
  resultLen : Int32
  resultPtrU64 : UInt64
  resultEnd : UInt64
  memSize : UInt64
  size : ℕ

/-- An access to the memory of the guest. -/
inductive Access
  /-- `grow` by a number of pages. -/
  | grow (p : Placement) (pages : UInt64)
  /-- `write` of the request, into a memory of this size. -/
  | write (p : Placement) (size : ℕ)
  /-- `read` of the result. -/
  | read (r : Retrieval)

/-- Why there is no decision, overflows included. -/
inductive HostError
  | vm (e : VmError)
  | requestSizeOverflow
  | resultEndOverflow
  deriving DecidableEq

/-- The text of the error. -/
def HostError.text : HostError → Str
  | vm e => e.text
  | requestSizeOverflow => "request size overflow".toList
  | resultEndOverflow => "result pointer + length overflows".toList

/-- A run of the host: its accesses and its result. -/
abbrev Run := Traced HostError Access

/-! ### The host -/

/-- The memory grown, when it ends before the request does. -/
def makeRoomRun (inst : Instance σ) (store : Store σ) (p : Placement) : Run (Store σ) :=
  if p.memSize < p.reqEnd then do
    let extraBytes := p.reqEnd - p.memSize
    let pagesToGrow := divCeil extraBytes (UInt64.ofNat wasmPageSize)
    Traced.tell (.grow p pagesToGrow)
    Traced.lift (failIf (inst.canGrow store pagesToGrow.toNat = false) (.vm .growFailed))
    return store.setMemory (store.memory.grow pagesToGrow.toNat)
  else return store

/-- The request is put where the guest wants it. -/
def placeRequestRun (inst : Instance σ) (reqBytes : Bytes) : Run (Store σ) := do
  Traced.lift (failIf (maxRequestJsonLen < reqBytes.length) (.vm (.requestTooLong reqBytes.length)))
  let (reqPtr, store) ← Traced.lift (orFail (inst.getReqPtr inst.store) (.vm .getReqPtrFailed))
  Traced.lift (failIf (reqPtr < 0) (.vm (.negativeReqPtr reqPtr)))
  let reqPtrU64 := pointerU64 reqPtr
  let reqEnd ←
    Traced.lift
      (orFail (checkedAdd reqPtrU64 (UInt64.ofNat reqBytes.length)) .requestSizeOverflow)
  let memSize := store.memory.dataSize
  Traced.lift (failIf (reqPtrU64 ≥ memSize) (.vm (.reqPtrOutside reqPtr memSize.toNat)))
  let p : Placement :=
    ⟨reqPtr, Int32.ofNat reqBytes.length, reqPtrU64, reqEnd, memSize, reqBytes.length,
      store.memory.size⟩
  let store ← makeRoomRun inst store p
  Traced.tell (.write p store.memory.size)
  let memory ←
    Traced.lift (orFail (store.memory.write reqPtrU64.toNat reqBytes) (.vm .writeFailed))
  return store.setMemory memory

/-- The guest decides; it returns the length of its result. -/
def callDecideRun (inst : Instance σ) (store : Store σ) (reqLen : Int32) :
    Run (Int32 × Store σ) := do
  let (resultLen, store) ← Traced.lift (orFail (inst.decide reqLen store) (.vm .decideFailed))
  Traced.lift (failIf (resultLen ≤ 0) (.vm (.invalidLength resultLen)))
  Traced.lift (failIf (resultLen > Int32.ofNat maxResultLen) (.vm (.resultTooLong resultLen)))
  return (resultLen, store)

/-- The result is read from where the guest says, with the fuel replenished. -/
def readResultRun (inst : Instance σ) (store : Store σ) (resultLen : Int32) : Run Bytes := do
  let (resultPtr, store) ←
    Traced.lift
      (orFail (inst.getResultPtr (store.setFuel wasmFuelPerCall)) (.vm .getResultPtrFailed))
  Traced.lift (failIf (resultPtr < 0) (.vm (.negativeResultPtr resultPtr)))
  let resultPtrU64 := pointerU64 resultPtr
  let memSize := store.memory.dataSize
  let resultEnd ←
    Traced.lift (orFail (checkedAdd resultPtrU64 (lengthU64 resultLen)) .resultEndOverflow)
  Traced.lift
    (failIf (resultEnd > memSize)
      (.vm (.resultOutside resultPtr resultEnd.toNat memSize.toNat)))
  Traced.tell
    (.read ⟨resultPtr, resultLen, resultPtrU64, resultEnd, memSize, store.memory.size⟩)
  Traced.lift
    (orFail (store.memory.read resultPtrU64.toNat (lengthU64 resultLen).toNat) (.vm .readFailed))

/-- `WasmVm::decide`. -/
def WasmVm.decideRun (vm : WasmVm σ) (serializer : Serializer) (profileId : Str)
    (req : WasmRequest) : Run WasmDecision := do
  let module ← Traced.lift (orFail (vm.modules.get? profileId) (.vm (.profileNotFound profileId)))
  let inst ← Traced.lift (module.start.mapError .vm)
  let reqBytes := asBytes (serializer.requestJson req)
  let store ← placeRequestRun inst reqBytes
  let (resultLen, store) ← callDecideRun inst store (Int32.ofNat reqBytes.length)
  let resultBytes ← readResultRun inst store resultLen
  Traced.lift ((parseResult serializer resultBytes).mapError .vm)

/-! ### In bounds -/

/-- The number of pages is the least that makes room for the request. -/
def Placement.GrowsBy (p : Placement) (pages : UInt64) : Prop :=
  IsLeast {k : ℕ | p.reqEnd.toNat ≤ p.size + k * wasmPageSize} pages.toNat

/-- Nothing on the request path has wrapped, and the request is not too long. -/
structure Placement.Exact (p : Placement) : Prop where
  reqPtr_nonneg : 0 ≤ p.reqPtr
  length_le : p.length ≤ 65536
  reqLen : p.reqLen.toInt = p.length
  reqPtrU64 : (p.reqPtrU64.toNat : ℤ) = p.reqPtr.toInt
  reqEnd : p.reqEnd.toNat = p.reqPtrU64.toNat + p.length
  memSize : p.memSize.toNat = p.size

/-- Nothing on the result path has wrapped, and the result is neither empty nor too long. -/
structure Retrieval.Exact (r : Retrieval) : Prop where
  resultPtr_nonneg : 0 ≤ r.resultPtr
  one_le : 1 ≤ r.resultLen.toInt
  resultLen_le : r.resultLen.toInt ≤ 65536
  resultPtrU64 : (r.resultPtrU64.toNat : ℤ) = r.resultPtr.toInt
  resultEnd : (r.resultEnd.toNat : ℤ) = r.resultPtr.toInt + r.resultLen.toInt
  memSize : r.memSize.toNat = r.size

/-- The access is one of exact numbers, and in bounds. -/
def Access.InBounds : Access → Prop
  | grow p pages => p.Exact ∧ p.GrowsBy pages
  | write p size => p.Exact ∧ p.reqPtrU64.toNat + p.length ≤ size
  | read r => r.Exact ∧ r.resultEnd.toNat ≤ r.size

/-- The size of the memory is one of 64 bits: `Memory::data_size` is a `usize`. -/
def Store.Fits (store : Store σ) : Prop := store.memory.size < 2 ^ 64

theorem Store.Fits.setFuel {store : Store σ} (h : store.Fits) (fuel : ℕ) :
    (store.setFuel fuel).Fits := h

/-- The memory of an instance has a size of 64 bits, and keeps one whatever is called. -/
structure Instance.Addressable (inst : Instance σ) : Prop where
  store : inst.store.Fits
  getReqPtr : ∀ {store ptr store'}, store.Fits →
    inst.getReqPtr store = some (ptr, store') → store'.Fits
  decide : ∀ {reqLen store len store'}, store.Fits →
    inst.decide reqLen store = some (len, store') → store'.Fits
  getResultPtr : ∀ {store ptr store'}, store.Fits →
    inst.getResultPtr store = some (ptr, store') → store'.Fits

/-- The memory of a module has a size of 64 bits in every instance. -/
structure GuestModule.Addressable (module : GuestModule σ) : Prop where
  instantiate : ∀ {fuel store}, module.instantiate fuel = some store → store.Fits
  getReqPtr : ∀ {call store ptr store'}, module.getReqPtr = some call → store.Fits →
    call store = some (ptr, store') → store'.Fits
  decide : ∀ {call reqLen store len store'}, module.decide = some call → store.Fits →
    call reqLen store = some (len, store') → store'.Fits
  getResultPtr : ∀ {call store ptr store'}, module.getResultPtr = some call → store.Fits →
    call store = some (ptr, store') → store'.Fits

theorem addressable_of_start {module : GuestModule σ} {inst : Instance σ}
    (hmodule : module.Addressable) (h : module.start = .ok inst) : inst.Addressable := by
  obtain ⟨hstore, -, hreq, hdec, hres, -⟩ := start_eq_ok_iff.mp h
  exact ⟨hmodule.instantiate hstore, hmodule.getReqPtr hreq, hmodule.decide hdec,
    hmodule.getResultPtr hres⟩

end Wasm

end Fywaf
