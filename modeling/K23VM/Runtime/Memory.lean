import K23VM.Runtime.Mmap
import K23VM.Translate.MemoryDesc

/-!
# Instance memories

What the allocator reserves for a linear memory: its maximum, clamped to `MEMORY_MAX`, and the
guard pages behind it.
-/

namespace K23VM

structure Memory where
  mmap : Mmap
  /-- The current length in bytes. -/
  len : ℕ
  maximum : Option ℕ
  pageSizeLog2 : ℕ
  offsetGuardSize : ℕ
  deriving DecidableEq, Repr

def Memory.tryNew (host : Host) (desc : MemoryDesc) (actualMinimumBytes : ℕ)
    (actualMaximumBytes : Option ℕ) : Fallible Error Memory := do
  let offsetGuardBytes ← host.roundUsizeUpToHostPages desc.offsetGuardSize
  let boundBytes ← host.roundUsizeUpToHostPages MEMORY_MAX
  let allocationBytes := min boundBytes (actualMaximumBytes.getD U64_MAX)
  let requestBytes ← addOrPanic allocationBytes offsetGuardBytes
  let mmap ← Mmap.withReserve host requestBytes
  let mmap ←
    if 0 < actualMinimumBytes then do
      let accessible ← host.roundUsizeUpToHostPages actualMinimumBytes
      mmap.makeAccessible host 0 accessible
    else
      pure mmap
  pure
    { mmap
      len := actualMinimumBytes
      maximum := actualMaximumBytes
      pageSizeLog2 := desc.pageSizeLog2
      offsetGuardSize := offsetGuardBytes }

/-- `PlaceholderAllocatorDontUse::allocate_memory`. -/
def allocateMemory (debug : Bool) (host : Host) (memoryDesc : MemoryDesc) :
    Fallible Error Memory := do
  let minimum ← Fallible.okOrNone (memoryDesc.minimumByteSize debug)
  let minimum ← (unwrap "memory minimum size exceeds memory limits" minimum : Except Fault ℕ)
  let maximum ← Fallible.okOrNone (memoryDesc.maximumByteSize debug)
  Memory.tryNew host memoryDesc minimum maximum

end K23VM
