import K23VM.Translate.MemoryDesc
import Mathlib.Tactic

/-!
# The sizes of declared memories

The sizes of a memory are computed in 64 bits, where the largest 64-bit memory does not fit.
-/

namespace K23VM

/-- The number of pages that the index space of a memory holds. -/
def WasmparserMemoryType.maxPages (ty : WasmparserMemoryType) : ℕ :=
  2 ^ ((if ty.memory64 then 64 else 32) - ty.pageSizeLog2.getD 16)

/-- A memory type that validates, of 32 or 64 bits and with either page size. -/
structure WasmparserMemoryType.Valid (ty : WasmparserMemoryType) : Prop where
  /-- The limits are words. -/
  initial_lt : ty.initial < 2 ^ 64
  maximum_lt : ∀ m ∈ ty.maximum, m < 2 ^ 64
  pageSize : ty.pageSizeLog2 = none ∨ ty.pageSizeLog2 = some 0 ∨ ty.pageSizeLog2 = some 16
  initial_le : ty.initial ≤ ty.maxPages
  maximum_le : ∀ m ∈ ty.maximum, ty.initial ≤ m ∧ m ≤ ty.maxPages

/-- A computed size is the number of bytes of that many pages, or an error where these do not fit a
word. -/
def SizeOf (desc : MemoryDesc) (pages : ℕ) (size : Except Fault (Except SizeOverflow ℕ)) : Prop :=
  size = if pages * 2 ^ desc.pageSizeLog2 ≤ U64_MAX
    then .ok (.ok (pages * 2 ^ desc.pageSizeLog2)) else .ok (.error {})

/-- The sizes of a memory are computed without a panic, and are right. -/
structure SizesSafe (debug : Bool) (desc : MemoryDesc) : Prop where
  minimum : SizeOf desc desc.minimum (desc.minimumByteSize debug)
  maximum : ∀ m ∈ desc.maximum, SizeOf desc m (desc.maximumByteSize debug)
  maximum_noPanic : NoPanic (desc.maximumByteSize debug)
  bound : ∃ n, desc.maxSizeBasedOnIndexType debug = .ok n
  minimum_le : ∀ n m, desc.minimumByteSize debug = .ok (.ok n) →
    desc.maximumByteSize debug = .ok (.ok m) → n ≤ m
  minimum_le_max32 : desc.memory64 = false → ∀ n, desc.minimumByteSize debug = .ok (.ok n) →
    n ≤ WASM32_MAX_SIZE
  maximum_le_max32 : desc.memory64 = false → ∀ n, desc.maximumByteSize debug = .ok (.ok n) →
    n ≤ WASM32_MAX_SIZE

/-! ## The operations -/

section Sizes

variable {debug : Bool} {desc : MemoryDesc}

theorem pageSize_eq (h : desc.pageSizeLog2 = 16 ∨ desc.pageSizeLog2 = 0) :
    desc.pageSize debug = .ok (2 ^ desc.pageSizeLog2) := by
  have hlt : desc.pageSizeLog2 < 64 := by omega
  simp only [MemoryDesc.pageSize, decide_eq_true h, debugAssert_true, if_pos hlt]
  rfl

theorem sizeOf_checkedMul (pages : ℕ) :
    SizeOf desc pages (match checkedMul pages (2 ^ desc.pageSizeLog2) with
      | some n => .ok (.ok n)
      | none => .ok (.error {})) := by
  unfold SizeOf checkedMul U64_MAX
  by_cases h : pages * 2 ^ desc.pageSizeLog2 < 2 ^ 64
  · rw [if_pos h, if_pos (by omega)]
  · rw [if_neg h, if_neg (by omega)]

theorem SizeOf.ok {pages n : ℕ} (h : SizeOf desc pages (.ok (.ok n))) :
    n = pages * 2 ^ desc.pageSizeLog2 := by
  unfold SizeOf at h
  split at h
  · exact Except.ok.inj (Except.ok.inj h)
  · cases Except.ok.inj h

theorem SizeOf.noPanic {pages : ℕ} {size : Fallible SizeOverflow ℕ} (h : SizeOf desc pages size) :
    NoPanic size := by
  unfold SizeOf at h
  split at h
  · exact ⟨_, h⟩
  · exact ⟨_, h⟩

theorem minimumByteSize_sizeOf (debug : Bool) (h : desc.pageSizeLog2 = 16 ∨ desc.pageSizeLog2 = 0) :
    SizeOf desc desc.minimum (desc.minimumByteSize debug) := by
  unfold MemoryDesc.minimumByteSize
  rw [pageSize_eq h]
  exact sizeOf_checkedMul desc.minimum

theorem maximumByteSize_sizeOf (debug : Bool) {m : ℕ}
    (h : desc.pageSizeLog2 = 16 ∨ desc.pageSizeLog2 = 0) (hm : desc.maximum = some m) :
    SizeOf desc m (desc.maximumByteSize debug) := by
  unfold MemoryDesc.maximumByteSize
  rw [pageSize_eq h, hm]
  exact sizeOf_checkedMul m

theorem maxSizeBasedOnIndexType_32 (h : desc.memory64 = false) :
    desc.maxSizeBasedOnIndexType debug = .ok WASM32_MAX_SIZE := by
  rw [MemoryDesc.maxSizeBasedOnIndexType, h]
  rfl

/-- The size of a page is subtracted from zero. -/
theorem maxSizeBasedOnIndexType_64 (hpage : desc.pageSizeLog2 = 16 ∨ desc.pageSizeLog2 = 0)
    (h : desc.memory64 = true) :
    desc.maxSizeBasedOnIndexType debug = panicking "attempt to subtract with overflow" := by
  have hpos : ¬ 2 ^ desc.pageSizeLog2 ≤ 0 := not_le.2 (Nat.two_pow_pos _)
  rw [MemoryDesc.maxSizeBasedOnIndexType, h, pageSize_eq hpage]
  show (if 2 ^ desc.pageSizeLog2 ≤ 0 then _ else _) = _
  rw [if_neg hpos]

/-- A maximum that is not declared is the whole index space. -/
theorem maximumByteSize_undeclared {n : ℕ} (h : desc.memory64 = false) (hm : desc.maximum = none)
    (hmin : desc.minimumByteSize debug = .ok (.ok n)) :
    desc.maximumByteSize debug = .ok (.ok (max n WASM32_MAX_SIZE)) := by
  unfold MemoryDesc.maximumByteSize
  rw [hm]
  show (desc.minimumByteSize debug >>= _) = _
  rw [fallible_ok_bind_of_eq hmin, maxSizeBasedOnIndexType_32 h]
  rfl

end Sizes

/-! ## Valid memories -/

section Valid

variable {debug : Bool} {ty : WasmparserMemoryType}

/-- What the description of a valid memory keeps of its type. -/
structure Describes (ty : WasmparserMemoryType) (desc : MemoryDesc) : Prop where
  minimum : desc.minimum = ty.initial
  maximum : desc.maximum = ty.maximum
  pageSizeLog2 : desc.pageSizeLog2 = ty.pageSizeLog2.getD 16
  memory64 : desc.memory64 = ty.memory64

theorem fromWasmparser_describes (h : ty.Valid) :
    ∃ desc, MemoryDesc.fromWasmparser ty = .ok desc ∧ Describes ty desc := by
  unfold MemoryDesc.fromWasmparser
  rcases h.pageSize with hp | hp | hp <;> rw [hp] <;>
    exact ⟨_, rfl, rfl, rfl, by rw [hp]; rfl, rfl⟩

theorem Describes.pageSize {desc : MemoryDesc} (hd : Describes ty desc) (h : ty.Valid) :
    desc.pageSizeLog2 = 16 ∨ desc.pageSizeLog2 = 0 := by
  rw [hd.pageSizeLog2]
  rcases h.pageSize with hp | hp | hp <;> simp [hp]

/-- The pages of a 32-bit memory fill its index space. -/
theorem Describes.bytes_le {desc : MemoryDesc} {pages : ℕ} (hd : Describes ty desc) (h : ty.Valid)
    (h32 : ty.memory64 = false) (hpages : pages ≤ ty.maxPages) :
    pages * 2 ^ desc.pageSizeLog2 ≤ WASM32_MAX_SIZE := by
  have hlog : desc.pageSizeLog2 ≤ 32 := by
    rcases hd.pageSize h with hp | hp <;> omega
  have hmax : ty.maxPages = 2 ^ (32 - desc.pageSizeLog2) := by
    simp [WasmparserMemoryType.maxPages, h32, hd.pageSizeLog2]
  calc pages * 2 ^ desc.pageSizeLog2
      ≤ 2 ^ (32 - desc.pageSizeLog2) * 2 ^ desc.pageSizeLog2 :=
        Nat.mul_le_mul_right _ (hmax ▸ hpages)
    _ = WASM32_MAX_SIZE := by rw [← Nat.pow_add, Nat.sub_add_cancel hlog]; rfl

theorem Describes.sizesSafe {desc : MemoryDesc} (hd : Describes ty desc) (h : ty.Valid)
    (h32 : ty.memory64 = false) : SizesSafe debug desc := by
  have hpage := hd.pageSize h
  have hdesc32 : desc.memory64 = false := hd.memory64.trans h32
  have hmin := minimumByteSize_sizeOf debug hpage
  have hminimum : desc.minimum * 2 ^ desc.pageSizeLog2 ≤ WASM32_MAX_SIZE :=
    hd.bytes_le h h32 (hd.minimum ▸ h.initial_le)
  have hminOk : desc.minimumByteSize debug = .ok (.ok (desc.minimum * 2 ^ desc.pageSizeLog2)) := by
    refine hmin.trans (if_pos (hminimum.trans ?_))
    decide
  cases hm : desc.maximum with
  | none =>
    have hmaxOk := maximumByteSize_undeclared hdesc32 hm hminOk
    rw [max_eq_right hminimum] at hmaxOk
    refine ⟨hmin, ?_, ⟨_, hmaxOk⟩, ⟨_, maxSizeBasedOnIndexType_32 hdesc32⟩, ?_, ?_, ?_⟩
    · intro m hmem
      rw [hm] at hmem
      cases hmem
    · intro n m hn hm
      rw [hminOk] at hn
      rw [hmaxOk] at hm
      cases hn
      cases hm
      exact hminimum
    · intro _ n hn
      rw [hminOk] at hn
      cases hn
      exact hminimum
    · intro _ n hn
      rw [hmaxOk] at hn
      cases hn
      exact le_rfl
  | some m =>
    have hmax := maximumByteSize_sizeOf debug hpage hm
    obtain ⟨hle, hmaxPages⟩ := h.maximum_le m (hd.maximum ▸ hm)
    refine ⟨hmin, ?_, hmax.noPanic, ⟨_, maxSizeBasedOnIndexType_32 hdesc32⟩, ?_, ?_, ?_⟩
    · intro m' hmem
      rw [hm] at hmem
      obtain rfl := Option.some.inj hmem
      exact hmax
    · intro n n' hn hn'
      rw [hn] at hmin
      rw [hn'] at hmax
      rw [hmin.ok, hmax.ok, hd.minimum]
      exact Nat.mul_le_mul_right _ hle
    · intro _ n hn
      rw [hn] at hmin
      exact hmin.ok ▸ hminimum
    · intro _ n hn
      rw [hn] at hmax
      exact hmax.ok ▸ hd.bytes_le h h32 hmaxPages

theorem Describes.not_sizesSafe {desc : MemoryDesc} (hd : Describes ty desc) (h : ty.Valid)
    (h64 : ty.memory64 = true) : ¬ SizesSafe debug desc := by
  intro hs
  obtain ⟨n, hn⟩ := hs.bound
  rw [maxSizeBasedOnIndexType_64 (hd.pageSize h) (hd.memory64.trans h64)] at hn
  cases hn

/-- The sizes of a valid memory are safe exactly where it is a 32-bit memory: the bound that the
index type of any 64-bit memory sets is computed by a subtraction that overflows. -/
theorem memorySizes_safe_iff (debug : Bool) (h : ty.Valid) :
    ∃ desc, MemoryDesc.fromWasmparser ty = .ok desc
      ∧ (SizesSafe debug desc ↔ ty.memory64 = false) := by
  obtain ⟨desc, hdesc, hd⟩ := fromWasmparser_describes h
  refine ⟨desc, hdesc, fun hs => ?_, hd.sizesSafe h⟩
  by_contra h64
  exact hd.not_sizesSafe h (eq_true_of_ne_false h64) hs

/-- A 64-bit memory of one page. -/
def onePage64 : WasmparserMemoryType :=
  { memory64 := true, shared := false, initial := 1, maximum := none, pageSizeLog2 := none }

theorem onePage64_valid : onePage64.Valid :=
  ⟨by decide, by rintro m ⟨⟩, .inl rfl, by decide, by rintro m ⟨⟩⟩

theorem not_memorySizes_safe_onePage64 :
    onePage64.Valid
      ∧ ∃ desc, MemoryDesc.fromWasmparser onePage64 = .ok desc ∧ ¬ SizesSafe false desc := by
  obtain ⟨desc, hdesc, hd⟩ := fromWasmparser_describes onePage64_valid
  exact ⟨onePage64_valid, desc, hdesc, hd.not_sizesSafe onePage64_valid rfl⟩

theorem memorySizes_safe_iff_onePage64 :
    ∃ desc, MemoryDesc.fromWasmparser onePage64 = .ok desc
      ∧ (SizesSafe true desc ↔ onePage64.memory64 = false) :=
  memorySizes_safe_iff true onePage64_valid

end Valid

end K23VM
