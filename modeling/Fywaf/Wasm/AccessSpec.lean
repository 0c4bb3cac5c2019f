import Fywaf.Wasm.Access

/-!
# The accesses are in bounds

The proofs follow the host from one call of the guest to the next. After each check the numbers so
far are exact, so that the next comparison on machine integers is the comparison of the integers
they stand for. The memory of the guest stays addressable throughout, whatever the guest does.

## Main results

* `Wasm.WasmVm.result_decideRun` — the result is that of `WasmVm.decide`
* `Wasm.WasmVm.decideRun_inBounds` — every access is in bounds, and none of them fails
-/

namespace Fywaf

namespace Wasm

variable {σ : Type}

/-! ### Numbers that do not wrap -/

theorem toNat_pointerU64 {x : Int32} (h : 0 ≤ x) : (pointerU64 x).toNat = x.toNatClampNeg := by
  rw [pointerU64, UInt32.toNat_toUInt64, Int32.toNat_toUInt32_of_le h]

theorem toNat_ofNat_u64 {n : ℕ} (h : n < 2 ^ 64) : (UInt64.ofNat n).toNat = n := by
  rw [UInt64.toNat_ofNat', Nat.mod_eq_of_lt h]

theorem toNat_lengthU64 {x : Int32} (h : 0 ≤ x) : (lengthU64 x).toNat = x.toNatClampNeg := by
  have hlt := x.toNatClampNeg_lt
  have hmod : ((x.toNatClampNeg : ℤ) % 2 ^ 64).toNat = x.toNatClampNeg := by omega
  rw [lengthU64, ← Int32.cast_toNatClampNeg x h, UInt64.ofInt, hmod, toNat_ofNat_u64 (by omega)]

theorem toNat_dataSize {m : Memory} (h : m.size < 2 ^ 64) : m.dataSize.toNat = m.size :=
  toNat_ofNat_u64 h

theorem checkedAdd_eq_some_iff {a b c : UInt64} :
    checkedAdd a b = some c ↔ c.toNat = a.toNat + b.toNat := by
  rw [checkedAdd]
  split
  · next h =>
    rw [Option.some.injEq, ← UInt64.toNat_inj, UInt64.toNat_add, Nat.mod_eq_of_lt h, eq_comm]
  · next h =>
    have := c.toNat_lt
    exact iff_of_false (fun h' => by cases h') (by omega)

theorem exists_checkedAdd {a b : UInt64} (h : a.toNat + b.toNat < 2 ^ 64) :
    ∃ c, checkedAdd a b = some c := ⟨_, if_pos h⟩

/-- The host asks for as many pages as there are begun. -/
theorem toNat_divCeil_page (a : UInt64) :
    (divCeil a (UInt64.ofNat wasmPageSize)).toNat =
      (a.toNat + (wasmPageSize - 1)) / wasmPageSize := by
  have hlt := a.toNat_lt
  have hpage : (UInt64.ofNat wasmPageSize).toNat = 65536 := rfl
  have hdiv : (a / UInt64.ofNat wasmPageSize).toNat = a.toNat / 65536 := by
    rw [UInt64.toNat_div, hpage]
  have hmod : 0 < a % UInt64.ofNat wasmPageSize ↔ 0 < a.toNat % 65536 := by
    rw [UInt64.lt_iff_toNat_lt, UInt64.toNat_mod, hpage]
    rfl
  rw [divCeil]
  split
  · next h =>
    have hpos := hmod.mp h
    rw [UInt64.toNat_add, hdiv, wasmPageSize]
    change (a.toNat / 65536 + 1) % 2 ^ 64 = _
    omega
  · next h =>
    have hzero := mt hmod.mpr h
    rw [hdiv, wasmPageSize]
    omega

/-! ### Every access is in bounds -/

section Host

variable {inst : Instance σ} {store : Store σ}

/-- The memory is grown by the least number of pages, which makes room. -/
theorem growsBy_divCeil {p : Placement} (hp : p.Exact) (h : p.memSize < p.reqEnd) :
    p.GrowsBy (divCeil (p.reqEnd - p.memSize) (UInt64.ofNat wasmPageSize)) := by
  have hlt : p.memSize.toNat < p.reqEnd.toNat := UInt64.lt_iff_toNat_lt.mp h
  have hsub : (p.reqEnd - p.memSize).toNat = p.reqEnd.toNat - p.size := by
    rw [UInt64.toNat_sub_of_le _ _ (UInt64.le_of_lt h), hp.memSize]
  rw [Placement.GrowsBy, toNat_divCeil_page, hsub, wasmPageSize]
  constructor
  · rw [Set.mem_ofPred_eq]
    omega
  · intro k hk
    have hk' : p.reqEnd.toNat ≤ p.size + k * 65536 := hk
    omega

theorem makeRoomRun_inBounds {p : Placement} (hp : p.Exact) {access : Access}
    (h : access ∈ (makeRoomRun inst store p).log) : access.InBounds := by
  rw [makeRoomRun] at h
  split at h
  · next hlt =>
    simp only [Traced.mem_log_bind_iff, Traced.log_tell, Traced.log_lift, Traced.log_pure,
      List.mem_singleton, List.not_mem_nil, and_false, exists_false, or_false] at h
    rw [h]
    exact ⟨hp, growsBy_divCeil hp hlt⟩
  · cases h

/-- Room is made by growing the memory, when the request ends beyond it. -/
theorem makeRoomRun_cases {p : Placement} {room : Store σ}
    (h : (makeRoomRun inst store p).result = .ok room) :
    (p.memSize < p.reqEnd ∧ room = store.setMemory (store.memory.grow
      (divCeil (p.reqEnd - p.memSize) (UInt64.ofNat wasmPageSize)).toNat)) ∨
    (¬ p.memSize < p.reqEnd ∧ room = store) := by
  rw [makeRoomRun] at h
  split at h
  · next hlt =>
    simp only [Traced.result_bind, Traced.result_tell, Traced.result_lift, Traced.result_pure,
      bind_eq_ok_iff, Except.ok.injEq] at h
    obtain ⟨-, -, -, -, rfl⟩ := h
    exact Or.inl ⟨hlt, rfl⟩
  · next hle => exact Or.inr ⟨hle, (Except.ok.inj h).symm⟩

/-- Where there is room, there is room for the request. -/
theorem le_size_of_makeRoomRun {p : Placement} (hp : p.Exact) (hsize : p.size = store.memory.size)
    {room : Store σ} (h : (makeRoomRun inst store p).result = .ok room) :
    p.reqEnd.toNat ≤ room.memory.size := by
  obtain ⟨hlt, rfl⟩ | ⟨hle, rfl⟩ := makeRoomRun_cases h
  · have hroom : p.reqEnd.toNat ≤ p.size + _ * wasmPageSize := (growsBy_divCeil hp hlt).1
    rwa [hsize] at hroom
  · rw [← hsize, ← hp.memSize]
    exact UInt64.le_iff_toNat_le.mp (UInt64.not_lt.mp hle)

/-- The numbers of the request path are exact once the checks have passed. -/
theorem placement_exact {reqPtr : Int32} {length : ℕ} {reqEnd : UInt64} {m : Memory}
    (hlen : length ≤ maxRequestJsonLen) (hptr : 0 ≤ reqPtr)
    (hend : reqEnd.toNat = (pointerU64 reqPtr).toNat + (UInt64.ofNat length).toNat)
    (hsize : m.size < 2 ^ 64) :
    Placement.Exact
      ⟨reqPtr, Int32.ofNat length, pointerU64 reqPtr, reqEnd, m.dataSize, length, m.size⟩ where
  reqPtr_nonneg := hptr
  length_le := hlen
  reqLen := by
    have hlen' : length ≤ 65536 := hlen
    exact Int32.toInt_ofNat_of_lt (by omega)
  reqPtrU64 := by
    rw [toNat_pointerU64 hptr, Int32.cast_toNatClampNeg _ hptr]
  reqEnd := by
    have hlen' : length ≤ 65536 := hlen
    rw [hend, toNat_ofNat_u64 (by omega)]
  memSize := toNat_dataSize hsize

theorem placeRequestRun_inBounds (hinst : inst.Addressable) {reqBytes : Bytes} {access : Access}
    (h : access ∈ (placeRequestRun inst reqBytes).log) : access.InBounds := by
  simp only [placeRequestRun, Traced.mem_log_bind_iff, Traced.log_lift, Traced.result_lift,
    List.not_mem_nil, false_or, failIf_eq_ok_iff, orFail_eq_ok_iff, Prod.exists,
    checkedAdd_eq_some_iff, Traced.log_tell, List.mem_singleton, Traced.result_tell,
    Traced.log_pure, and_false, exists_false, or_false, not_lt, Int32.not_lt] at h
  obtain ⟨-, hlen, reqPtr, asked, hcall, -, hptr, reqEnd, hend, -, hinside, h⟩ := h
  have hexact := placement_exact hlen hptr hend (hinst.getReqPtr hinst.store hcall)
  rcases h with h | ⟨room, hroom, rfl⟩
  · exact makeRoomRun_inBounds hexact h
  · refine ⟨hexact, ?_⟩
    have hle := le_size_of_makeRoomRun hexact rfl hroom
    rwa [hexact.reqEnd] at hle

/-- The numbers of the result path are exact once the checks have passed. -/
theorem retrieval_exact {resultPtr resultLen : Int32} {resultEnd : UInt64} {m : Memory}
    (hpos : 0 < resultLen) (hle : resultLen ≤ Int32.ofNat maxResultLen) (hptr : 0 ≤ resultPtr)
    (hend : resultEnd.toNat = (pointerU64 resultPtr).toNat + (lengthU64 resultLen).toNat)
    (hsize : m.size < 2 ^ 64) :
    Retrieval.Exact
      ⟨resultPtr, resultLen, pointerU64 resultPtr, resultEnd, m.dataSize, m.size⟩ where
  resultPtr_nonneg := hptr
  one_le := Int32.lt_iff_toInt_lt.mp hpos
  resultLen_le := Int32.le_iff_toInt_le.mp hle
  resultPtrU64 := by
    rw [toNat_pointerU64 hptr, Int32.cast_toNatClampNeg _ hptr]
  resultEnd := by
    have hlen := Int32.cast_toNatClampNeg _ (Int32.le_of_lt hpos)
    have hptr' := Int32.cast_toNatClampNeg _ hptr
    rw [hend, toNat_pointerU64 hptr, toNat_lengthU64 (Int32.le_of_lt hpos)]
    push_cast
    omega
  memSize := toNat_dataSize hsize

theorem readResultRun_inBounds (hinst : inst.Addressable) (hstore : store.Fits)
    {resultLen : Int32} (hpos : 0 < resultLen) (hle : resultLen ≤ Int32.ofNat maxResultLen)
    {access : Access} (h : access ∈ (readResultRun inst store resultLen).log) :
    access.InBounds := by
  simp only [readResultRun, Traced.mem_log_bind_iff, Traced.log_lift, Traced.result_lift,
    List.not_mem_nil, false_or, failIf_eq_ok_iff, orFail_eq_ok_iff, Prod.exists,
    checkedAdd_eq_some_iff, Traced.log_tell, List.mem_singleton, Traced.result_tell,
    and_false, exists_false, or_false, Int32.not_lt, gt_iff_lt, UInt64.not_lt] at h
  obtain ⟨resultPtr, done, hcall, -, hptr, resultEnd, hend, -, hin, rfl⟩ := h
  have hsize := hinst.getResultPtr (hstore.setFuel _) hcall
  refine ⟨retrieval_exact hpos hle hptr hend hsize, ?_⟩
  rw [← toNat_dataSize hsize]
  exact UInt64.le_iff_toNat_le.mp hin

/-! ### The memory stays addressable -/

theorem fits_of_makeRoomRun {p : Placement} (hp : p.Exact) (hstore : store.Fits)
    (hsize : p.size = store.memory.size) {room : Store σ}
    (h : (makeRoomRun inst store p).result = .ok room) : room.Fits := by
  obtain ⟨hlt, rfl⟩ | ⟨-, rfl⟩ := makeRoomRun_cases h
  · -- with one page less the request would not fit, and it ends below `2 ^ 32`
    obtain ⟨-, hleast⟩ := growsBy_divCeil hp hlt
    have hend := hp.reqEnd
    have hptr := hp.reqPtrU64
    have hlt' := p.reqPtr.toInt_lt
    have hlen := hp.length_le
    generalize hpages : (divCeil (p.reqEnd - p.memSize) (UInt64.ofNat wasmPageSize)).toNat = pages
    rw [hpages] at hleast
    have hless : ¬ p.reqEnd.toNat ≤ p.size + (pages - 1) * 65536 ∨ pages = 0 := by
      rcases Nat.eq_zero_or_pos pages with h0 | hpos
      · exact Or.inr h0
      · exact Or.inl fun hfit => absurd (hleast hfit) (by omega)
    have hstore' : store.memory.size < 2 ^ 64 := hstore
    change store.memory.size + pages * 65536 < 2 ^ 64
    rcases hless with hless | rfl
    · omega
    · omega
  · exact hstore

theorem fits_of_placeRequestRun (hinst : inst.Addressable) {reqBytes : Bytes}
    (h : (placeRequestRun inst reqBytes).result = .ok store) : store.Fits := by
  simp only [placeRequestRun, Traced.result_bind, Traced.result_lift, Traced.result_tell,
    Traced.result_pure, bind_eq_ok_iff, failIf_eq_ok_iff, orFail_eq_ok_iff, Prod.exists,
    checkedAdd_eq_some_iff, not_lt, Int32.not_lt, Except.ok.injEq] at h
  obtain ⟨-, hlen, reqPtr, asked, hcall, -, hptr, reqEnd, hend, -, -, room, hroom, -, -, memory,
    hwrite, rfl⟩ := h
  have hasked := hinst.getReqPtr hinst.store hcall
  have hfits := fits_of_makeRoomRun (placement_exact hlen hptr hend hasked) hasked rfl hroom
  rw [Memory.write] at hwrite
  split at hwrite
  · cases hwrite
    exact hfits
  · cases hwrite

/-! ### The same result -/

theorem result_makeRoomRun {p : Placement} (hp : p.Exact) (hsize : p.size = store.memory.size) :
    (makeRoomRun inst store p).result =
      (store.makeRoom inst.canGrow p.reqEnd.toNat).mapError .vm := by
  have hiff : p.memSize < p.reqEnd ↔ store.memory.size < p.reqEnd.toNat := by
    rw [UInt64.lt_iff_toNat_lt, hp.memSize, hsize]
  rw [makeRoomRun, Store.makeRoom]
  by_cases h : p.memSize < p.reqEnd
  · have hsub : (p.reqEnd - p.memSize).toNat = p.reqEnd.toNat - store.memory.size := by
      rw [UInt64.toNat_sub_of_le _ _ (UInt64.le_of_lt h), hp.memSize, hsize]
    have hpages : (divCeil (p.reqEnd - p.memSize) (UInt64.ofNat wasmPageSize)).toNat =
        (p.reqEnd.toNat - store.memory.size + (wasmPageSize - 1)) / wasmPageSize := by
      rw [toNat_divCeil_page, hsub]
    rw [if_pos h, if_pos (hiff.mp h)]
    simp only [Traced.result_bind, Traced.result_tell, Traced.result_lift, Traced.result_pure,
      hpages, failIf]
    cases hgrow : inst.canGrow store
        ((p.reqEnd.toNat - store.memory.size + (wasmPageSize - 1)) / wasmPageSize)
    · rfl
    · rfl
  · rw [if_neg h, if_neg (mt hiff.mpr h)]
    rfl

theorem result_placeRequestRun (hinst : inst.Addressable) (reqBytes : Bytes) :
    (placeRequestRun inst reqBytes).result = (placeRequest inst reqBytes).mapError .vm := by
  simp only [placeRequestRun, placeRequest, Traced.result_bind, Traced.result_lift, mapError_bind,
    mapError_failIf, mapError_orFail]
  refine bind_congr_of_ok fun _ hlen => bind_congr_of_ok ?_
  rintro ⟨reqPtr, asked⟩ hcall
  refine bind_congr_of_ok fun _ hneg => ?_
  rw [failIf_eq_ok_iff] at hlen hneg
  rw [orFail_eq_ok_iff] at hcall
  have hsize := hinst.getReqPtr hinst.store hcall
  have hptr : 0 ≤ reqPtr := Int32.not_lt.mp hneg
  have hlen' : reqBytes.length ≤ 65536 := Nat.not_lt.mp hlen
  have hlt := reqPtr.toNatClampNeg_lt
  have hlength : (UInt64.ofNat reqBytes.length).toNat = reqBytes.length :=
    toNat_ofNat_u64 (by omega)
  -- the addition does not overflow
  obtain ⟨reqEnd, hadd⟩ : ∃ reqEnd,
      checkedAdd (pointerU64 reqPtr) (UInt64.ofNat reqBytes.length) = some reqEnd :=
    exists_checkedAdd (by rw [toNat_pointerU64 hptr, hlength]; omega)
  have hend := checkedAdd_eq_some_iff.mp hadd
  have hexact := placement_exact (Nat.not_lt.mp hlen) hptr hend hsize
  have hend' : reqEnd.toNat = reqPtr.toNatClampNeg + reqBytes.length := by
    rw [hend, toNat_pointerU64 hptr, hlength]
  have houtside : pointerU64 reqPtr ≥ asked.memory.dataSize ↔
      asked.memory.size ≤ reqPtr.toNatClampNeg := by
    rw [ge_iff_le, UInt64.le_iff_toNat_le, toNat_dataSize hsize, toNat_pointerU64 hptr]
  simp only [hadd, orFail_some_bind, toNat_dataSize hsize, failIf_congr houtside]
  refine bind_congr_of_ok fun _ _ => ?_
  rw [result_makeRoomRun hexact rfl, ← hend']
  refine bind_congr_of_ok fun room _ => ?_
  simp only [toNat_pointerU64 hptr]
  rfl

theorem result_callDecideRun (reqLen : Int32) :
    (callDecide inst store reqLen).mapError .vm =
      (callDecideRun inst store reqLen).result.map fun r => (r.1.toNatClampNeg, r.2) := by
  rw [callDecideRun, callDecide]
  cases hcall : inst.decide reqLen store with
  | none => rfl
  | some r =>
    obtain ⟨len, decided⟩ := r
    by_cases hle : len ≤ 0
    · simp only [orFail_some_bind, Traced.result_bind, Traced.result_lift, failIf, if_pos hle]
      rfl
    · have hpos : 0 ≤ len := Int32.le_of_lt (Int32.not_le.mp hle)
      have hiff : maxResultLen < len.toNatClampNeg ↔ len > Int32.ofNat maxResultLen := by
        have hmax : (Int32.ofNat maxResultLen).toInt = 65536 := rfl
        have hcast := Int32.cast_toNatClampNeg len hpos
        rw [gt_iff_lt, Int32.lt_iff_toInt_lt, hmax, maxResultLen, wasmPageSize]
        omega
      simp only [orFail_some_bind, Traced.result_bind, Traced.result_lift, failIf, if_neg hle,
        hiff]
      by_cases hlong : len > Int32.ofNat maxResultLen
      · simp only [if_pos hlong]
        rfl
      · simp only [if_neg hlong]
        rfl

theorem result_readResultRun (hinst : inst.Addressable) (hstore : store.Fits)
    {resultLen : Int32} (hpos : 0 < resultLen) :
    (readResultRun inst store resultLen).result =
      (readResult inst store resultLen.toNatClampNeg).mapError .vm := by
  simp only [readResultRun, readResult, Traced.result_bind, Traced.result_lift, mapError_bind,
    mapError_failIf, mapError_orFail]
  refine bind_congr_of_ok ?_
  rintro ⟨resultPtr, done⟩ hcall
  refine bind_congr_of_ok fun _ hneg => ?_
  rw [failIf_eq_ok_iff] at hneg
  rw [orFail_eq_ok_iff] at hcall
  have hsize := hinst.getResultPtr (hstore.setFuel _) hcall
  have hptr : 0 ≤ resultPtr := Int32.not_lt.mp hneg
  have hlt := resultPtr.toNatClampNeg_lt
  have hlength := toNat_lengthU64 (Int32.le_of_lt hpos)
  have hlt' := resultLen.toNatClampNeg_lt
  obtain ⟨resultEnd, hadd⟩ : ∃ resultEnd,
      checkedAdd (pointerU64 resultPtr) (lengthU64 resultLen) = some resultEnd :=
    exists_checkedAdd (by rw [toNat_pointerU64 hptr, hlength]; omega)
  have hend : resultEnd.toNat = resultPtr.toNatClampNeg + resultLen.toNatClampNeg := by
    rw [checkedAdd_eq_some_iff.mp hadd, toNat_pointerU64 hptr, hlength]
  have houtside : resultEnd > done.memory.dataSize ↔
      done.memory.size < resultPtr.toNatClampNeg + resultLen.toNatClampNeg := by
    rw [gt_iff_lt, UInt64.lt_iff_toNat_lt, toNat_dataSize hsize, hend]
  simp only [hadd, orFail_some_bind, toNat_dataSize hsize, failIf_congr houtside, hend]
  refine bind_congr_of_ok fun _ _ => ?_
  simp only [toNat_pointerU64 hptr, hlength]
  rfl

/-- A result that the host goes on with is of a length it accepts. -/
theorem of_callDecideRun (hinst : inst.Addressable) (hstore : store.Fits)
    {reqLen resultLen : Int32} {decided : Store σ}
    (h : (callDecideRun inst store reqLen).result = .ok (resultLen, decided)) :
    0 < resultLen ∧ resultLen ≤ Int32.ofNat maxResultLen ∧ decided.Fits := by
  simp only [callDecideRun, Traced.result_bind, Traced.result_lift, Traced.result_pure,
    bind_eq_ok_iff, orFail_eq_ok_iff, failIf_eq_ok_iff, Except.ok.injEq, Prod.exists,
    Prod.mk.injEq, Int32.not_le, gt_iff_lt, Int32.not_lt] at h
  obtain ⟨_, _, hcall, -, hpos, -, hle, rfl, rfl⟩ := h
  exact ⟨hpos, hle, hinst.decide hstore hcall⟩

/-- Nothing is entered while the guest decides. -/
theorem callDecideRun_log (reqLen : Int32) : (callDecideRun inst store reqLen).log = [] := by
  refine List.eq_nil_iff_forall_not_mem.mpr fun access h => ?_
  simp only [callDecideRun, Traced.mem_log_bind_iff, Traced.log_lift, Traced.log_pure,
    List.not_mem_nil, and_false, exists_false, or_false] at h

/-! ### No access fails -/

/-- Room is made, or the memory cannot be grown. -/
theorem makeRoom_cases (canGrow : Store σ → ℕ → Bool) (store : Store σ) (reqEnd : ℕ) :
    store.makeRoom canGrow reqEnd = .error .growFailed ∨
      ∃ room, store.makeRoom canGrow reqEnd = .ok room ∧ reqEnd ≤ room.memory.size := by
  rw [Store.makeRoom]
  split
  · dsimp only
    split
    · refine Or.inr ⟨_, rfl, ?_⟩
      change reqEnd ≤ store.memory.size + _ / wasmPageSize * wasmPageSize
      rw [wasmPageSize]
      omega
    · exact Or.inl rfl
  · next h => exact Or.inr ⟨store, rfl, Nat.not_lt.mp h⟩

/-- The error is not that of an access. -/
def VmError.NotAccess (e : VmError) : Prop := e ≠ .writeFailed ∧ e ≠ .readFailed

theorem start_notAccess (module : GuestModule σ) : FailsOnly VmError.NotAccess module.start := by
  refine .bind (.orFail fun _ => by simp [VmError.NotAccess]) fun _ _ => ?_
  refine .bind (.failIf fun _ => by simp [VmError.NotAccess]) fun _ _ => ?_
  refine .bind (.orFail fun _ => by simp [VmError.NotAccess]) fun _ _ => ?_
  refine .bind (.orFail fun _ => by simp [VmError.NotAccess]) fun _ _ => ?_
  exact .bind (.orFail fun _ => by simp [VmError.NotAccess]) fun _ _ => .ok _

theorem placeRequest_notAccess (reqBytes : Bytes) :
    FailsOnly VmError.NotAccess (placeRequest inst reqBytes) := by
  refine .bind (.failIf fun _ => by simp [VmError.NotAccess]) fun _ _ => ?_
  refine .bind (.orFail fun _ => by simp [VmError.NotAccess]) ?_
  rintro ⟨reqPtr, asked⟩ -
  refine .bind (.failIf fun _ => by simp [VmError.NotAccess]) fun _ _ => ?_
  refine .bind (.failIf fun _ => by simp [VmError.NotAccess]) fun _ _ => ?_
  rcases makeRoom_cases inst.canGrow asked (reqPtr.toNatClampNeg + reqBytes.length) with
    h | ⟨room, h, hle⟩
  · rw [h]
    exact .bind (fun e he => by cases he; simp [VmError.NotAccess]) fun _ hok => by cases hok
  · rw [h]
    refine .bind (.ok room) fun room' hroom => ?_
    cases hroom
    refine .bind (.orFail fun hnone => ?_) fun _ _ => .ok _
    rw [Memory.write, if_pos hle] at hnone
    cases hnone

theorem callDecide_notAccess (reqLen : Int32) :
    FailsOnly VmError.NotAccess (callDecide inst store reqLen) := by
  refine .bind (.orFail fun _ => by simp [VmError.NotAccess]) fun _ _ => ?_
  refine .bind (.failIf fun _ => by simp [VmError.NotAccess]) fun _ _ => ?_
  exact .bind (.failIf fun _ => by simp [VmError.NotAccess]) fun _ _ => .ok _

theorem readResult_notAccess (resultLen : ℕ) :
    FailsOnly VmError.NotAccess (readResult inst store resultLen) := by
  refine .bind (.orFail fun _ => by simp [VmError.NotAccess]) fun _ _ => ?_
  refine .bind (.failIf fun _ => by simp [VmError.NotAccess]) fun _ _ => ?_
  refine .bind (.failIf fun _ => by simp [VmError.NotAccess]) fun _ hin => .orFail fun hnone => ?_
  rw [Memory.read, if_pos (Nat.not_lt.mp (failIf_eq_ok_iff.mp hin))] at hnone
  cases hnone

theorem parseResult_notAccess (serializer : Serializer) (resultBytes : Bytes) :
    FailsOnly VmError.NotAccess (parseResult serializer resultBytes) :=
  .bind (.orFail fun _ => by simp [VmError.NotAccess])
    fun _ _ => .orFail fun _ => by simp [VmError.NotAccess]

end Host

section Vm

variable {vm : WasmVm σ}

/-- **The machine integers do not show**: the result is that of `WasmVm.decide`. -/
theorem WasmVm.result_decideRun
    (hvm : ∀ {profileId module}, vm.modules.get? profileId = some module → module.Addressable)
    (serializer : Serializer) (profileId : Str) (req : WasmRequest) :
    (vm.decideRun serializer profileId req).result =
      (vm.decide serializer profileId req).mapError .vm := by
  simp only [decideRun, decide, Traced.result_bind, Traced.result_lift, mapError_bind,
    mapError_orFail]
  refine bind_congr_of_ok fun module hmodule => bind_congr_of_ok fun inst hinst => ?_
  have hstart : module.start = .ok inst := mapError_eq_ok_iff.mp hinst
  have hinst' : inst.Addressable :=
    addressable_of_start (hvm (orFail_eq_ok_iff.mp hmodule)) hstart
  rw [result_placeRequestRun hinst']
  refine bind_congr_of_ok fun store hstore => ?_
  rw [result_callDecideRun, map_bind_left]
  refine bind_congr_of_ok ?_
  rintro ⟨resultLen, decided⟩ hdecided
  obtain ⟨hpos, -, hfits⟩ := of_callDecideRun hinst'
    (fits_of_placeRequestRun hinst' ((result_placeRequestRun hinst' _).trans hstore)) hdecided
  rw [result_readResultRun hinst' hfits hpos]

/-- Neither the write nor the read fails. -/
theorem WasmVm.decide_notAccess (vm : WasmVm σ) (serializer : Serializer) (profileId : Str)
    (req : WasmRequest) :
    FailsOnly VmError.NotAccess (vm.decide serializer profileId req) := by
  refine .bind (.orFail fun _ => by simp [VmError.NotAccess]) fun module _ => ?_
  refine .bind (start_notAccess module) fun _ _ => ?_
  refine .bind (placeRequest_notAccess _) fun _ _ => ?_
  refine .bind (callDecide_notAccess _) fun _ _ => ?_
  exact .bind (readResult_notAccess _) fun _ _ => parseResult_notAccess serializer _

/-- **Every access is in bounds**, and none of them fails or comes from a number that has
wrapped. -/
theorem WasmVm.decideRun_inBounds
    (hvm : ∀ {profileId module}, vm.modules.get? profileId = some module → module.Addressable)
    (serializer : Serializer) (profileId : Str) (req : WasmRequest) :
    (∀ access ∈ (vm.decideRun serializer profileId req).log, access.InBounds) ∧
      ∀ e ∈ [.vm .writeFailed, .vm .readFailed, .requestSizeOverflow, .resultEndOverflow],
        (vm.decideRun serializer profileId req).result ≠ .error e := by
  constructor
  · intro access h
    simp only [decideRun, Traced.mem_log_bind_iff, Traced.log_lift, Traced.result_lift,
      List.not_mem_nil, false_or, orFail_eq_ok_iff, Prod.exists, and_false, exists_false,
      or_false, mapError_eq_ok_iff] at h
    obtain ⟨module, hmodule, inst, hstart, h⟩ := h
    have hinst := addressable_of_start (hvm hmodule) hstart
    rcases h with h | ⟨store, hplaced, h⟩
    · exact placeRequestRun_inBounds hinst h
    · simp only [callDecideRun_log, List.not_mem_nil, false_or] at h
      obtain ⟨resultLen, decided, hdecided, h⟩ := h
      obtain ⟨hpos, hle, hfits⟩ :=
        of_callDecideRun hinst (fits_of_placeRequestRun hinst hplaced) hdecided
      exact readResultRun_inBounds hinst hfits hpos hle h
  · intro e he h
    rw [result_decideRun hvm] at h
    obtain ⟨e', h', rfl⟩ := mapError_eq_error_iff.mp h
    have hfailed := vm.decide_notAccess serializer profileId req e' h'
    simp only [List.mem_cons, List.not_mem_nil, or_false, HostError.vm.injEq, reduceCtorEq] at he
    rcases he with rfl | rfl
    · exact hfailed.1 rfl
    · exact hfailed.2 rfl

end Vm

/-! ### A guest at the edge -/

/-- The module with one page, its request buffer at the last byte of it and its result at the
first. -/
def edgeGuest : GuestModule Unit where
  instantiate fuel := some ⟨(), ⟨wasmPageSize, fun _ => 0⟩, fuel⟩
  exportsMemory := true
  getReqPtr := some fun store => some (65535, store)
  decide := some fun _ store => some (1, store)
  getResultPtr := some fun store => some (0, store)
  canGrow _ _ := true

theorem edgeGuest_addressable : edgeGuest.Addressable where
  instantiate := by
    rintro fuel store ⟨⟩
    exact (by decide : wasmPageSize < 2 ^ 64)
  getReqPtr := by
    rintro call store ptr store' ⟨⟩ hstore ⟨⟩
    exact hstore
  decide := by
    rintro call reqLen store len store' ⟨⟩ hstore ⟨⟩
    exact hstore
  getResultPtr := by
    rintro call store ptr store' ⟨⟩ hstore ⟨⟩
    exact hstore

/-- The one profile `p`. -/
def edgeVm : WasmVm Unit := ⟨⟨[(['p'], edgeGuest)], by decide⟩⟩

/-- A request without anything. -/
def plainRequest : WasmRequest where
  clientIp := []
  method := []
  path := []
  query := none
  userAgent := none
  headers := .empty
  body := none
  params := .empty

/-- The memory of the guest at the edge is grown, written and read, in bounds. -/
theorem edgeVm_inBounds :
    (edgeVm.decideRun .compact ['p'] plainRequest).log.length = 3 ∧
      ∀ access ∈ (edgeVm.decideRun .compact ['p'] plainRequest).log, access.InBounds := by
  refine ⟨by decide, (WasmVm.decideRun_inBounds ?_ .compact ['p'] plainRequest).1⟩
  intro profileId module hmodule
  obtain ⟨-, rfl⟩ := Prod.mk.inj (List.mem_singleton.mp (HashMap.get?_eq_some_iff _ |>.mp hmodule))
  exact edgeGuest_addressable

end Wasm

end Fywaf
