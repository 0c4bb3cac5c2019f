import Mathlib.Data.Nat.Notation
import Fywaf.Std.Utf8

/-!
# Guest modules

A compiled module, as far as the host can tell: it is instantiated with some fuel, exports a
linear memory and functions, and a call to a function may do anything to the memory, use up fuel,
and trap. What else an instance keeps between calls is a type of its own, so nothing is assumed
of the guest but that it does the same again when started again in the same state.

## Main definitions

* `Wasm.Memory`, with `read`, `write` and `grow`
* `Wasm.Store`, `Wasm.GuestModule`
-/

namespace Fywaf

namespace Wasm

/-- The size of a page of linear memory. -/
def wasmPageSize : ℕ := 65536

/-- A linear memory. Addresses from `size` on are out of bounds. -/
structure Memory where
  size : ℕ
  byte : ℕ → UInt8

namespace Memory

/-- `Memory::read`: the bytes from `ptr` on, all of them in bounds. -/
def read (m : Memory) (ptr len : ℕ) : Option Bytes :=
  if ptr + len ≤ m.size then some ((List.range' ptr len).map m.byte) else none

/-- `Memory::write`. -/
def write (m : Memory) (ptr : ℕ) (bytes : Bytes) : Option Memory :=
  if ptr + bytes.length ≤ m.size then
    some { m with byte := fun i => if ptr ≤ i then bytes[i - ptr]?.getD (m.byte i) else m.byte i }
  else none

/-- `Memory::grow`: pages of zeros at the end. -/
def grow (m : Memory) (pages : ℕ) : Memory where
  size := m.size + pages * wasmPageSize
  byte i := if i < m.size then m.byte i else 0

end Memory

/-- The state of an instance: its memory, the fuel that is left, and what it keeps for itself. -/
structure Store (σ : Type) where
  state : σ
  memory : Memory
  fuel : ℕ

/-- A function of an instance; no result means that the call traps or runs out of fuel. -/
def Call (σ α : Type) : Type := Store σ → Option (α × Store σ)

/-- A compiled module. An export is missing when the module has none of the name, or one of
another type. -/
structure GuestModule (σ : Type) where
  /-- Instantiation with an amount of fuel, which may fail. -/
  instantiate : ℕ → Option (Store σ)
  /-- There is a memory of the name `memory`. -/
  exportsMemory : Bool
  /-- `get_req_ptr : () -> i32`. -/
  getReqPtr : Option (Call σ Int32)
  /-- `decide : i32 -> i32`. -/
  decide : Option (Int32 → Call σ Int32)
  /-- `get_result_ptr : () -> i32`. -/
  getResultPtr : Option (Call σ Int32)
  /-- The memory can be grown by a number of pages. -/
  canGrow : Store σ → ℕ → Bool

/-- The memory of a store replaced. -/
def Store.setMemory {σ : Type} (store : Store σ) (memory : Memory) : Store σ :=
  { store with memory := memory }

/-- The fuel of a store replaced. -/
def Store.setFuel {σ : Type} (store : Store σ) (fuel : ℕ) : Store σ := { store with fuel := fuel }

end Wasm

end Fywaf
