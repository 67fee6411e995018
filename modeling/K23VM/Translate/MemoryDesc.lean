import K23VM.Lib.Word

/-!
# Memory descriptions

A linear memory as the module declares it, and its sizes in bytes.
-/

namespace K23VM

/-- Maximum size, in bytes, of 32-bit memories (4G). -/
def WASM32_MAX_SIZE : ℕ := 2 ^ 32

/-- 2 GiB of guard pages. -/
def DEFAULT_OFFSET_GUARD_SIZE : ℕ := 0x80000000

/-- The absolute maximum size of a memory in bytes. -/
def MEMORY_MAX : ℕ := 2 ^ 32

/-- A memory type as the parser decodes it. -/
structure WasmparserMemoryType where
  memory64 : Bool
  shared : Bool
  initial : ℕ
  maximum : Option ℕ
  pageSizeLog2 : Option ℕ
  deriving DecidableEq, Repr

structure SizeOverflow where
  deriving DecidableEq, Repr

structure MemoryDesc where
  /-- The minimum number of pages. -/
  minimum : ℕ
  /-- The optional maximum, in pages. -/
  maximum : Option ℕ
  offsetGuardSize : ℕ
  pageSizeLog2 : ℕ
  memory64 : Bool
  shared : Bool
  deriving DecidableEq, Repr

namespace MemoryDesc

def DEFAULT_PAGE_SIZE_LOG2 : ℕ := 16

def fromWasmparser (ty : WasmparserMemoryType) : Except Fault MemoryDesc := do
  let pageSizeLog2 ←
    match ty.pageSizeLog2 with
    | none => pure DEFAULT_PAGE_SIZE_LOG2
    | some log2 =>
      if log2 < 2 ^ 8 then pure log2
      else panicking "out of range integral type conversion attempted"
  pure
    { minimum := ty.initial
      maximum := ty.maximum
      offsetGuardSize := DEFAULT_OFFSET_GUARD_SIZE
      pageSizeLog2
      memory64 := ty.memory64
      shared := ty.shared }

variable (debug : Bool) (desc : MemoryDesc)

/-- The size of the memory's pages, in bytes. -/
def pageSize : Except Fault ℕ := do
  debugAssert debug (desc.pageSizeLog2 = 16 ∨ desc.pageSizeLog2 = 0) "invalid page_size_log2"
  if desc.pageSizeLog2 < 64 then .ok (2 ^ desc.pageSizeLog2)
  else panicking "attempt to shift left with overflow"

/-- The minimum size in bytes. -/
def minimumByteSize : Fallible SizeOverflow ℕ := do
  match checkedMul desc.minimum (← desc.pageSize debug) with
  | some n => pure n
  | none => throw {}

/-- The largest size the index type allows. -/
def maxSizeBasedOnIndexType : Except Fault ℕ := do
  if desc.memory64 then
    subOrPanic 0 (← desc.pageSize debug)
  else
    pure WASM32_MAX_SIZE

/-- The maximum size in bytes; a memory that declares none may fill its index space. -/
def maximumByteSize : Fallible SizeOverflow ℕ := do
  match desc.maximum with
  | some max =>
    match checkedMul max (← desc.pageSize debug) with
    | some n => pure n
    | none => throw {}
  | none =>
    let min ← desc.minimumByteSize debug
    pure (max min (← desc.maxSizeBasedOnIndexType debug))

end MemoryDesc

end K23VM
