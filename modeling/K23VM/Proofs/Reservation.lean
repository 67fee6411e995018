import K23VM.Cranelift.Env
import K23VM.Proofs.MemoryDesc
import K23VM.Runtime.Memory

/-!
# What the code generator assumes of a memory and what the allocator reserves

`makeMemory` takes the bound of a memory from its index type; `Memory.tryNew` clamps the
reservation to the declared maximum.  They agree, `reservationAgrees_iff`, exactly for the memories
whose maximum is the whole index space.
-/

namespace K23VM

/-- The code generator and the allocator agree on a memory: the reservation covers the bound and the
guard pages, its accessible part is a prefix that holds the minimum, and everything behind that
prefix up to the end of the guard pages faults. -/
def ReservationAgrees (debug : Bool) (host : Host) (desc : MemoryDesc) : Prop :=
  ∀ defined heapBase memoryType cm,
    Cranelift.makeMemory debug desc defined heapBase memoryType = .ok cm →
    ∃ minimum accessible memory, desc.minimumByteSize debug = .ok (.ok minimum)
      ∧ host.roundUsizeUpToHostPages minimum = .ok accessible
      ∧ allocateMemory debug host desc = .ok (.ok memory)
      ∧ cm.bound + cm.offsetGuardSize ≤ memory.mmap.len
      ∧ minimum ≤ accessible ∧ accessible ≤ memory.mmap.len
      ∧ (∀ i, memory.mmap.accessible i = true ↔ i < accessible)
      ∧ ∀ i, accessible ≤ i → i < cm.bound + cm.offsetGuardSize →
        i < memory.mmap.len ∧ memory.mmap.accessible i = false

/-- A 32-bit memory type with the default page size that validates. -/
structure Valid32 (ty : WasmparserMemoryType) : Prop where
  memory64 : ty.memory64 = false
  pageSize : ty.pageSizeLog2 = none ∨ ty.pageSizeLog2 = some 16
  initial_le : ty.initial ≤ 2 ^ 16
  maximum_le : ∀ m ∈ ty.maximum, ty.initial ≤ m ∧ m ≤ 2 ^ 16

/-- A host whose pages are not larger than a WebAssembly page and whose system calls succeed. -/
structure HostOk (host : Host) (k : ℕ) : Prop where
  pageSize : host.pageSize = 2 ^ k
  le : k ≤ 16
  mmapOk : ∀ n, host.mmapOk n = true
  mprotectOk : ∀ s n, host.mprotectOk s n = true

section Sizes

variable {debug : Bool} {ty : WasmparserMemoryType}

theorem fromWasmparser_eq (h : Valid32 ty) : MemoryDesc.fromWasmparser ty = .ok
    { minimum := ty.initial, maximum := ty.maximum, offsetGuardSize := DEFAULT_OFFSET_GUARD_SIZE
      pageSizeLog2 := 16, memory64 := false, shared := ty.shared } := by
  rcases h.pageSize with hp | hp <;>
    simp [MemoryDesc.fromWasmparser, hp, h.memory64, MemoryDesc.DEFAULT_PAGE_SIZE_LOG2, bind,
      Except.bind, pure, Except.pure]

theorem SizeOf.eq_ok {desc : MemoryDesc} {pages : ℕ} {size : Fallible SizeOverflow ℕ}
    (hsize : SizeOf desc pages size) (h : desc.pageSizeLog2 = 16) (hp : pages ≤ 2 ^ 16) :
    size = .ok (.ok (pages * 2 ^ 16)) := by
  unfold SizeOf at hsize
  rw [h] at hsize
  have hle : pages * 2 ^ 16 ≤ U64_MAX := by
    unfold U64_MAX
    omega
  exact hsize.trans (if_pos hle)

theorem minimumByteSize_eq {desc : MemoryDesc} (h : desc.pageSizeLog2 = 16)
    (hm : desc.minimum ≤ 2 ^ 16) :
    desc.minimumByteSize debug = .ok (.ok (desc.minimum * 2 ^ 16)) :=
  (minimumByteSize_sizeOf _ (.inl h)).eq_ok h hm

theorem maximumByteSize_eq {desc : MemoryDesc} (h : desc.pageSizeLog2 = 16)
    (h32 : desc.memory64 = false) (hm : desc.minimum ≤ 2 ^ 16)
    (hx : ∀ m ∈ desc.maximum, m ≤ 2 ^ 16) :
    desc.maximumByteSize debug = .ok (.ok (desc.maximum.getD (2 ^ 16) * 2 ^ 16)) := by
  cases hd : desc.maximum with
  | none =>
    have hmax : max (desc.minimum * 2 ^ 16) WASM32_MAX_SIZE = 2 ^ 16 * 2 ^ 16 := by
      unfold WASM32_MAX_SIZE
      omega
    rw [maximumByteSize_undeclared h32 hd (minimumByteSize_eq h hm), hmax]
    rfl
  | some m => exact (maximumByteSize_sizeOf _ (.inl h) hd).eq_ok h (hx m hd)

theorem roundUp_multiple {host : Host} {k bytes : ℕ} (h : HostOk host k) (hb : bytes ≤ 2 ^ 33)
    (hd : 2 ^ k ∣ bytes) : host.roundUsizeUpToHostPages bytes = .ok bytes := by
  have hk : 2 ^ k ≤ 2 ^ 16 := Nat.pow_le_pow_right (by norm_num) h.le
  rw [Host.roundUsizeUpToHostPages_eq h.pageSize (h.le.trans_lt (by norm_num)) (by omega),
    (roundUp_eq_self_iff (Nat.two_pow_pos k)).2 hd]

theorem wasmPage_dvd {host : Host} {k : ℕ} (h : HostOk host k) (n : ℕ) : 2 ^ k ∣ n * 2 ^ 16 :=
  Dvd.dvd.mul_left (Nat.pow_dvd_pow 2 h.le) n

theorem memoryMax_dvd {host : Host} {k : ℕ} (h : HostOk host k) : 2 ^ k ∣ MEMORY_MAX :=
  Nat.pow_dvd_pow 2 (h.le.trans (by norm_num))

end Sizes

section Reservation

variable {debug : Bool} {host : Host} {k : ℕ} {desc : MemoryDesc}

/-- A description `fromWasmparser` makes of a valid 32-bit memory type. -/
structure Desc32 (desc : MemoryDesc) : Prop where
  memory64 : desc.memory64 = false
  pageSizeLog2 : desc.pageSizeLog2 = 16
  offsetGuardSize : desc.offsetGuardSize = 2 ^ 15 * 2 ^ 16
  minimum_le : desc.minimum ≤ desc.maximum.getD (2 ^ 16)
  maximum_le : desc.maximum.getD (2 ^ 16) ≤ 2 ^ 16

theorem Desc32.minimum_le_pages (h : Desc32 desc) : desc.minimum ≤ 2 ^ 16 :=
  h.minimum_le.trans h.maximum_le

theorem Desc32.maximum_le_pages (h : Desc32 desc) : ∀ m ∈ desc.maximum, m ≤ 2 ^ 16 := by
  intro m hm
  have := h.maximum_le
  rwa [Option.mem_def.1 hm] at this

theorem desc32_of_valid {ty : WasmparserMemoryType} (h : Valid32 ty)
    (hd : MemoryDesc.fromWasmparser ty = .ok desc) : Desc32 desc := by
  rw [fromWasmparser_eq h, Except.ok.injEq] at hd
  subst hd
  refine ⟨rfl, rfl, by simp [DEFAULT_OFFSET_GUARD_SIZE], ?_, ?_⟩
  · rcases hm : ty.maximum with _ | m
    · exact h.initial_le
    · exact (h.maximum_le m hm).1
  · rcases hm : ty.maximum with _ | m
    · exact le_rfl
    · exact (h.maximum_le m hm).2

theorem makeMemory_bounds (h : Desc32 desc) {defined : Bool} {heapBase : ℕ}
    {memoryType : Option ℕ} {cm : Cranelift.CraneliftMemory}
    (hc : Cranelift.makeMemory debug desc defined heapBase memoryType = .ok cm) :
    cm.bound + cm.offsetGuardSize = 2 ^ 16 * 2 ^ 16 + 2 ^ 15 * 2 ^ 16 := by
  unfold Cranelift.makeMemory at hc
  obtain ⟨-, -, hc⟩ := bind_eq_ok.1 hc
  obtain ⟨_, -, hc⟩ := bind_eq_ok.1 hc
  obtain ⟨_, -, hc⟩ := bind_eq_ok.1 hc
  obtain ⟨bound, hb, hc⟩ := bind_eq_ok.1 hc
  rw [MemoryDesc.maxSizeBasedOnIndexType, h.memory64] at hb
  obtain rfl : bound = 2 ^ 32 := (Except.ok.inj hb).symm
  obtain rfl := Except.ok.inj hc
  simp only [h.offsetGuardSize]
  norm_num

theorem makeMemory_imported (debug : Bool) (h : Desc32 desc) :
    ∃ cm, Cranelift.makeMemory debug desc false 0 none = .ok cm := by
  simp only [Cranelift.makeMemory, Cranelift.makeMemoryMinSize,
    minimumByteSize_eq h.pageSizeLog2 h.minimum_le_pages,
    maximumByteSize_eq h.pageSizeLog2 h.memory64 h.minimum_le_pages h.maximum_le_pages, okOrNone_ok,
    MemoryDesc.maxSizeBasedOnIndexType, h.memory64]
  exact ⟨_, rfl⟩

theorem withReserve_eq (hh : HostOk host k) {n : ℕ} (hd : 2 ^ k ∣ n) (hpos : 0 < n) :
    Mmap.withReserve host n = .ok (.ok ⟨n, []⟩) := by
  have h1 : host.usizeIsMultipleOfHostPageSize n = true := by
    rw [Host.usizeIsMultipleOfHostPageSize, hh.pageSize, Nat.mod_eq_zero_of_dvd hd]
    rfl
  have h2 : decide (0 < n) = true := decide_eq_true hpos
  simp only [Mmap.withReserve, h1, h2, assertThat_true, fallible_lift_ok_bind, hh.mmapOk, if_true,
    fallible_pure]

theorem makeAccessible_eq (hh : HostOk host k) {m : Mmap} {n : ℕ} (hn : n ≤ m.len) :
    m.makeAccessible host 0 n = .ok (.ok { m with ranges := (0, n) :: m.ranges }) := by
  have h1 : decide (0 + n ≤ m.len) = true := decide_eq_true (by omega)
  have h2 : decide (0 % host.pageSize = 0) = true := by simp
  simp only [Mmap.makeAccessible, h1, h2, assertThat_true, fallible_lift_ok_bind, hh.mprotectOk,
    if_true, fallible_pure]

/-- What is reserved where sizes are multiples of the host's pages: the maximum, then the guard
pages. -/
theorem tryNew_eq (hh : HostOk host k) {n m : ℕ} (hn : 2 ^ k ∣ n) (hm : 2 ^ k ∣ m)
    (hg : 2 ^ k ∣ desc.offsetGuardSize) (hnm : n ≤ m) (hmax : m ≤ MEMORY_MAX)
    (hpos : 0 < desc.offsetGuardSize) (hle : desc.offsetGuardSize ≤ MEMORY_MAX) :
    ∃ memory, Memory.tryNew host desc n (some m) = .ok (.ok memory)
      ∧ memory.mmap.len = m + desc.offsetGuardSize
      ∧ ∀ i, memory.mmap.accessible i = true ↔ i < n := by
  have hM : MEMORY_MAX ≤ 2 ^ 33 := by norm_num [MEMORY_MAX]
  have hguard := roundUp_multiple hh (hle.trans hM) hg
  have hbound := roundUp_multiple hh hM (memoryMax_dvd hh)
  have hmin := roundUp_multiple hh ((hnm.trans hmax).trans hM) hn
  have hadd : addOrPanic (min MEMORY_MAX m) desc.offsetGuardSize
      = .ok (m + desc.offsetGuardSize) := by
    rw [min_eq_right hmax]
    exact if_pos (by omega)
  have hres := withReserve_eq hh (Dvd.dvd.add hm hg) (Nat.add_pos_right m hpos)
  simp only [Memory.tryNew, hguard, hbound, fallible_lift_ok_bind, Option.getD_some, hadd, hres,
    fallible_ok_bind]
  by_cases h0 : 0 < n
  · simp only [if_pos h0, hmin, fallible_lift_ok_bind]
    rw [makeAccessible_eq hh (by simp only; omega)]
    exact ⟨_, rfl, rfl, fun i => by simp [Mmap.accessible]⟩
  · simp only [if_neg h0]
    exact ⟨_, rfl, rfl, fun i => by simp [Mmap.accessible]; omega⟩

theorem allocateMemory_eq (debug : Bool) (hh : HostOk host k) (h : Desc32 desc) :
    ∃ memory, allocateMemory debug host desc = .ok (.ok memory)
      ∧ memory.mmap.len = desc.maximum.getD (2 ^ 16) * 2 ^ 16 + 2 ^ 15 * 2 ^ 16
      ∧ ∀ i, memory.mmap.accessible i = true ↔ i < desc.minimum * 2 ^ 16 := by
  have hg := h.offsetGuardSize
  have hle := h.minimum_le
  have hmax := h.maximum_le
  obtain ⟨memory, hnew, hlen, hacc⟩ := tryNew_eq hh (wasmPage_dvd hh desc.minimum)
    (wasmPage_dvd hh (desc.maximum.getD (2 ^ 16))) (hg ▸ wasmPage_dvd hh _)
    (Nat.mul_le_mul_right _ hle) (by rw [MEMORY_MAX]; omega) (by omega)
    (by rw [hg, MEMORY_MAX]; norm_num)
  refine ⟨memory, ?_, by rw [hlen, hg], hacc⟩
  unfold allocateMemory
  rw [minimumByteSize_eq h.pageSizeLog2 h.minimum_le_pages,
    maximumByteSize_eq h.pageSizeLog2 h.memory64 h.minimum_le_pages h.maximum_le_pages,
    okOrNone_ok, fallible_lift_ok_bind, unwrap_some, fallible_lift_ok_bind, okOrNone_ok,
    fallible_lift_ok_bind, hnew]

theorem reservationAgrees_desc_iff (hh : HostOk host k) (h : Desc32 desc) :
    ReservationAgrees debug host desc ↔ desc.maximum.getD (2 ^ 16) = 2 ^ 16 := by
  have hmax := h.maximum_le
  obtain ⟨memory, halloc, hlen, hacc⟩ := allocateMemory_eq debug hh h
  constructor
  · intro hagree
    obtain ⟨cm, hcm⟩ := makeMemory_imported debug h
    obtain ⟨_, _, memory', -, -, halloc', hle, -⟩ := hagree _ _ _ _ hcm
    rw [halloc, Except.ok.injEq, Except.ok.injEq] at halloc'
    subst halloc'
    rw [makeMemory_bounds h hcm, hlen] at hle
    omega
  · intro hfull defined heapBase memoryType cm hcm
    have hround := roundUp_multiple hh (show desc.minimum * 2 ^ 16 ≤ 2 ^ 33 by
      have := h.minimum_le
      omega) (wasmPage_dvd hh _)
    have hb := makeMemory_bounds h hcm
    rw [hfull] at hlen
    refine ⟨_, _, memory, minimumByteSize_eq h.pageSizeLog2 h.minimum_le_pages, hround, halloc,
      by omega, le_rfl, by have := h.minimum_le; omega, hacc, fun i hi hlt => ⟨by omega, ?_⟩⟩
    rw [Bool.eq_false_iff, ne_eq, hacc]
    omega

end Reservation

/-- The code generator and the allocator agree on a 32-bit memory exactly where its declared maximum
is the whole index space, or absent. -/
theorem reservationAgrees_iff {debug : Bool} {host : Host} {k : ℕ} (hh : HostOk host k)
    {ty : WasmparserMemoryType} (h : Valid32 ty) {desc : MemoryDesc}
    (hd : MemoryDesc.fromWasmparser ty = .ok desc) :
    ReservationAgrees debug host desc ↔ ty.maximum = none ∨ ty.maximum = some (2 ^ 16) := by
  rw [reservationAgrees_desc_iff hh (desc32_of_valid h hd)]
  rw [fromWasmparser_eq h, Except.ok.injEq] at hd
  subst hd
  rcases hm : ty.maximum with _ | m <;> simp

/-- A host with pages of four kilobytes. -/
def smallPages : Host := ⟨2 ^ 12, fun _ => true, fun _ _ => true⟩

/-- A memory of one page that may grow up to `maximum`. -/
def onePage (maximum : Option ℕ) : WasmparserMemoryType := ⟨false, false, 1, maximum, none⟩

theorem smallPages_ok : HostOk smallPages 12 :=
  ⟨rfl, by norm_num, fun _ => rfl, fun _ _ => rfl⟩

theorem reservationAgrees_unbounded : ∃ desc, MemoryDesc.fromWasmparser (onePage none) = .ok desc
    ∧ ReservationAgrees true smallPages desc := by
  have h : Valid32 (onePage none) := ⟨rfl, .inl rfl, by norm_num [onePage], by simp [onePage]⟩
  exact ⟨_, rfl, (reservationAgrees_iff smallPages_ok h rfl).2 (.inl rfl)⟩

/-- A memory of one page that may not grow: the code is compiled for four gigabytes and two of
guard pages, of which the allocator reserves one page and the guard pages. -/
theorem reservationAgrees_not_onePage :
    Valid32 (onePage (some 1)) ∧ HostOk smallPages 12
      ∧ ∃ desc, MemoryDesc.fromWasmparser (onePage (some 1)) = .ok desc
        ∧ ¬ReservationAgrees true smallPages desc := by
  have h : Valid32 (onePage (some 1)) :=
    ⟨rfl, .inl rfl, by norm_num [onePage], by simp [onePage]⟩
  refine ⟨h, smallPages_ok, _, rfl, ?_⟩
  rw [reservationAgrees_desc_iff smallPages_ok (desc32_of_valid h rfl)]
  simp [onePage]

end K23VM
