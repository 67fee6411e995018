import K23VM.Cranelift.Memory
import K23VM.Translate.MemoryDesc

/-!
# The translation environment

What the function translator is told about the entities of the module.
-/

namespace K23VM.Cranelift

/-- The minimum size; the only valid one that does not fit a word is the largest of memory64. -/
def makeMemoryMinSize (debug : Bool) (plan : MemoryDesc) : Except Fault ℕ := do
  match ← Fallible.okOrNone (plan.minimumByteSize debug) with
  | some n => pure n
  | none =>
    debugAssert debug (plan.minimum = 2 ^ 48) "plan.minimum == 1 << 48"
    debugAssert debug ((← plan.pageSize debug) = 2 ^ 16) "plan.page_size() == 1 << 16"
    pure U64_MAX

/-- Describe a memory to the bounds checker.  Its base is loaded from the vmctx through `heapBase`,
and `memoryType` is its region where proof-carrying code is enabled. -/
def makeMemory (debug : Bool) (plan : MemoryDesc) (defined : Bool) (heapBase : ℕ)
    (memoryType : Option ℕ) : Except Fault CraneliftMemory := do
  assertThat (!(defined && plan.shared)) "not yet implemented: shared memory"
  let minSize ← makeMemoryMinSize debug plan
  let maxSize ← Fallible.okOrNone (plan.maximumByteSize debug)
  let bound ← plan.maxSizeBasedOnIndexType debug
  pure
    { baseGv := heapBase
      memoryType
      minSize
      maxSize
      bound
      indexType := if plan.memory64 then .I64 else .I32
      offsetGuardSize := plan.offsetGuardSize
      pageSizeLog2 := plan.pageSizeLog2 }

end K23VM.Cranelift
