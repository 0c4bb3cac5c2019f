import Fywaf.Std.Traced
import Fywaf.Wasm.VmSpec

/-!
# Loading modules

`WasmVm::load_module` reads a file, compiles it, starts an instance of it and looks for the exports
that `decide` is going to use, so that a module that cannot be used is refused before any request
arrives. The files and the compiler are arguments.

## Main definitions

* `Wasm.LoadError`, `Wasm.LoadFileError`
* `Wasm.Loader` — the files and the compiler
* `Wasm.WasmVm.loadModuleFromBytes`, `Wasm.WasmVm.loadModule`
* `Wasm.Loader.Provides` — a file has a module that can be used

## Main results

* `Wasm.Loader.load_eq_ok_iff` — exactly what is loaded
* `Wasm.WasmVm.decide_not_startup` — what was loaded starts for every request
-/

namespace Fywaf

namespace Wasm

variable {σ : Type}

/-- Why bytes are not loaded as a module. -/
inductive LoadError
  | compileFailed
  | instantiateFailed
  | noMemory
  | noGetReqPtr
  | noDecide
  | noGetResultPtr
  deriving DecidableEq

/-- The text of the error. An error of the runtime itself has its own text there. -/
def LoadError.text : LoadError → Str
  | compileFailed => "failed to compile wasm module".toList
  | instantiateFailed => "instantiate failed".toList
  | noMemory => "wasm module must export 'memory'".toList
  | noGetReqPtr => "wasm module must export 'get_req_ptr' with signature () -> i32".toList
  | noDecide => "wasm module must export 'decide' with signature (i32) -> i32".toList
  | noGetResultPtr => "wasm module must export 'get_result_ptr' with signature () -> i32".toList

/-- Why a file is not loaded. -/
inductive LoadFileError
  | unreadable (path : Str)
  | notLoaded (path : Str) (cause : LoadError)
  deriving DecidableEq

/-- The text of the error. -/
def LoadFileError.text : LoadFileError → Str
  | unreadable path => "failed to read wasm file: ".toList ++ path
  | notLoaded path _ => "failed to load wasm module: ".toList ++ path

/-- What modules are loaded from. -/
structure Loader (σ : Type) where
  /-- `std::fs::read`. -/
  readFile : Str → Option Bytes
  /-- `Module::new`. -/
  compile : Bytes → Option (GuestModule σ)

/-- `WasmVm::new`. -/
def WasmVm.new : WasmVm σ := ⟨.empty⟩

/-- `WasmVm::has_profile`. -/
def WasmVm.hasProfile (vm : WasmVm σ) (profileId : Str) : Bool := vm.modules.containsKey profileId

/-- A module is compiled, and started once to look for its exports. -/
def Loader.validated (loader : Loader σ) (wasmBytes : Bytes) :
    Except LoadError (GuestModule σ) := do
  let module ← orFail (loader.compile wasmBytes) .compileFailed
  let _ ← orFail (module.instantiate wasmFuelPerCall) .instantiateFailed
  failIf (module.exportsMemory = false) .noMemory
  let _ ← orFail module.getReqPtr .noGetReqPtr
  let _ ← orFail module.decide .noDecide
  let _ ← orFail module.getResultPtr .noGetResultPtr
  return module

/-- `WasmVm::load_module_from_bytes`. -/
def WasmVm.loadModuleFromBytes (vm : WasmVm σ) (loader : Loader σ) (profileId : Str)
    (wasmBytes : Bytes) : Except LoadError (WasmVm σ) := do
  let module ← loader.validated wasmBytes
  return ⟨vm.modules.insert profileId module⟩

/-- `WasmVm::load_module`. -/
def WasmVm.loadModule (vm : WasmVm σ) (loader : Loader σ) (profileId wasmPath : Str) :
    Except LoadFileError (WasmVm σ) := do
  let wasmBytes ← orFail (loader.readFile wasmPath) (.unreadable wasmPath)
  (vm.loadModuleFromBytes loader profileId wasmBytes).mapError (.notLoaded wasmPath)

/-- The module starts, with all its exports. -/
def GuestModule.Starts (module : GuestModule σ) : Prop := ∃ inst, module.start = .ok inst

/-- The file is there, and it is a module that starts. -/
def Loader.Provides (loader : Loader σ) (wasmPath : Str) (module : GuestModule σ) : Prop :=
  ∃ wasmBytes, loader.readFile wasmPath = some wasmBytes ∧
    loader.compile wasmBytes = some module ∧ module.Starts

/-- A file has one module. -/
theorem Loader.Provides.unique {loader : Loader σ} {wasmPath : Str} {module module' : GuestModule σ}
    (h : loader.Provides wasmPath module) (h' : loader.Provides wasmPath module') :
    module = module' := by
  obtain ⟨bytes, hread, hcompile, -⟩ := h
  obtain ⟨bytes', hread', hcompile', -⟩ := h'
  obtain rfl := Option.some.inj (hread.symm.trans hread')
  exact Option.some.inj (hcompile.symm.trans hcompile')

/-! ### What is loaded -/

section Load

variable {loader : Loader σ} {wasmPath : Str} {module : GuestModule σ}

/-- The exports that are looked for are those that are called later. -/
theorem validated_eq_ok_iff {wasmBytes : Bytes} : loader.validated wasmBytes = .ok module ↔
    loader.compile wasmBytes = some module ∧ module.Starts := by
  simp only [Loader.validated, bind_eq_ok_iff, orFail_eq_ok_iff, failIf_eq_ok_iff,
    Bool.not_eq_false, GuestModule.Starts, start_eq_ok_iff]
  constructor
  · rintro ⟨_, hcompile, store, hstore, -, hmem, getReqPtr, hreq, decide, hdec, getResultPtr, hres,
      h⟩
    obtain rfl := Except.ok.inj h
    exact ⟨hcompile, ⟨store, _, getReqPtr, decide, getResultPtr⟩, hstore, hmem, hreq, hdec, hres,
      rfl⟩
  · rintro ⟨hcompile, inst, hstore, hmem, hreq, hdec, hres, -⟩
    exact ⟨module, hcompile, _, hstore, (), hmem, _, hreq, _, hdec, _, hres, rfl⟩

/-- What loading a file comes to, whatever was loaded before. -/
def Loader.load (loader : Loader σ) (wasmPath : Str) : Except LoadFileError (GuestModule σ) := do
  let wasmBytes ← orFail (loader.readFile wasmPath) (.unreadable wasmPath)
  (loader.validated wasmBytes).mapError (.notLoaded wasmPath)

theorem WasmVm.loadModule_eq (vm : WasmVm σ) (loader : Loader σ) (profileId wasmPath : Str) :
    vm.loadModule loader profileId wasmPath =
      (loader.load wasmPath).map fun module => ⟨vm.modules.insert profileId module⟩ := by
  rw [loadModule, Loader.load]
  cases loader.readFile wasmPath with
  | none => rfl
  | some wasmBytes =>
    change (loadModuleFromBytes vm loader profileId wasmBytes).mapError _ =
      Except.map _ ((loader.validated wasmBytes).mapError _)
    rw [loadModuleFromBytes]
    cases loader.validated wasmBytes <;> rfl

/-- **Exactly what is loaded**: a file with a module that starts. -/
theorem Loader.load_eq_ok_iff : loader.load wasmPath = .ok module ↔
    loader.Provides wasmPath module := by
  simp only [load, bind_eq_ok_iff, orFail_eq_ok_iff, mapError_eq_ok_iff, validated_eq_ok_iff,
    Provides]

end Load

/-! ### What was loaded starts -/

/-- The error is that of a profile without a module, or of a module that does not start. -/
def VmError.isStartup : VmError → Bool
  | profileNotFound _ | instantiateFailed | noMemory | noGetReqPtr | noDecide | noGetResultPtr =>
    true
  | _ => false

section Started

variable {inst : Instance σ} {store : Store σ}

theorem placeRequest_not_startup (reqBytes : Bytes) :
    FailsOnly (fun e => e.isStartup = false) (placeRequest inst reqBytes) := by
  refine .bind (.failIf fun _ => rfl) fun _ _ => .bind (.orFail fun _ => rfl) ?_
  rintro ⟨reqPtr, asked⟩ -
  refine .bind (.failIf fun _ => rfl) fun _ _ => .bind (.failIf fun _ => rfl) fun _ _ => ?_
  refine .bind (fun e he => ?_) fun _ _ => .bind (.orFail fun _ => rfl) fun _ _ => .ok _
  rw [Store.makeRoom] at he
  split at he
  · dsimp only at he
    split at he
    · cases he
    · rw [← Except.error.inj he]
      rfl
  · cases he

theorem callDecide_not_startup (reqLen : Int32) :
    FailsOnly (fun e => e.isStartup = false) (callDecide inst store reqLen) :=
  .bind (.orFail fun _ => rfl) fun _ _ => .bind (.failIf fun _ => rfl) fun _ _ =>
    .bind (.failIf fun _ => rfl) fun _ _ => .ok _

theorem readResult_not_startup (resultLen : ℕ) :
    FailsOnly (fun e => e.isStartup = false) (readResult inst store resultLen) :=
  .bind (.orFail fun _ => rfl) fun _ _ => .bind (.failIf fun _ => rfl) fun _ _ =>
    .bind (.failIf fun _ => rfl) fun _ _ => .orFail fun _ => rfl

/-- No error of a decision is one of the start, as soon as the module starts. -/
theorem WasmVm.decide_not_startup {vm : WasmVm σ} {profileId : Str} {module : GuestModule σ}
    (hmodule : vm.modules.get? profileId = some module) (hstarts : module.Starts)
    (serializer : Serializer) (req : WasmRequest) :
    FailsOnly (fun e => e.isStartup = false) (vm.decide serializer profileId req) := by
  obtain ⟨inst, hinst⟩ := hstarts
  rw [decide, hmodule]
  change FailsOnly _ (module.start >>= _)
  rw [hinst]
  refine .bind (.ok inst) fun _ _ => .bind (placeRequest_not_startup _) fun _ _ => ?_
  refine .bind (callDecide_not_startup _) fun _ _ => ?_
  exact .bind (readResult_not_startup _) fun _ _ =>
    .bind (.orFail fun _ => rfl) fun _ _ => .orFail fun _ => rfl

end Started

end Wasm

end Fywaf
