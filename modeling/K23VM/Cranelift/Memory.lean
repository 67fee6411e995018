import K23VM.Lib.StraightLine
import K23VM.Lib.Word
import K23VM.Trap

/-!
# The address of a heap access

`prepareAddr` emits the bounds check and the address computation of one access to a linear memory.
Which of three shapes the code takes is decided when it is emitted: the access traps whatever its
index, the check is left to the guard pages, or the index is compared with the bound.  The facts
of proof-carrying code are annotations of the emitted values and are not kept; the checked
arithmetic that computes them is.
-/

namespace K23VM.Cranelift

open StraightLine

/-- Whether the code after an emitted sequence can be reached. -/
inductive Reachability (α : Type) where
  | reachable (a : α)
  | unreachable
  deriving DecidableEq, Repr

inductive Endianness where
  | little | big
  deriving DecidableEq, Repr

inductive AliasRegion where
  | heap | table | vmctx
  deriving DecidableEq, Repr

/-- The flags of a memory instruction. -/
structure MemFlags where
  endianness : Option Endianness := none
  checked : Bool := false
  aliasRegion : Option AliasRegion := none
  deriving DecidableEq, Repr

/-- The immediate of a WebAssembly load or store. -/
structure MemArg where
  offset : ℕ
  deriving DecidableEq, Repr

/-- What the translation reads of the target and its settings. -/
structure TargetIsa where
  pointerType : IntTy
  pageSizeAlignLog2 : ℕ
  heapAccessSpectreMitigation : Bool
  deriving DecidableEq, Repr

structure CraneliftMemory where
  /-- The address of the start of the heap's storage. -/
  baseGv : ℕ
  indexType : IntTy
  /-- The memory type for the pointed-to memory, if using proof-carrying code. -/
  memoryType : Option ℕ
  /-- Heap bound in bytes. The offset-guard pages are allocated after the bound. -/
  bound : ℕ
  minSize : ℕ
  maxSize : Option ℕ
  offsetGuardSize : ℕ
  pageSizeLog2 : ℕ
  deriving DecidableEq, Repr

def castIndexToPointerTy (index : ℕ) (indexTy pointerTy : IntTy) : Build TrapCode ℕ :=
  if indexTy = pointerTy then
    pure index
  else do
    assertThat (indexTy.bits < pointerTy.bits) "index_ty.bits() < pointer_ty.bits()"
    ins (.uextend pointerTy index)

namespace CraneliftMemory

variable (mem : CraneliftMemory)

def computeAddr (addrTy : IntTy) (index : ℕ) (offset : ℕ) : Build TrapCode ℕ := do
  let heapBase ← ins (.globalValue mem.baseGv)
  let baseAndIndex ← ins (.iadd addrTy heapBase index)
  if offset = 0 then
    pure baseAndIndex
  else
    let offsetVal ← ins (.iconst addrTy offset)
    ins (.iadd addrTy baseAndIndex offsetVal)

/-- The largest offset in the fact about a guarded address. -/
def guardedAddrFact (pcc : Option (ℕ × ℕ)) (accessSize : ℕ) : Except Fault Unit :=
  match pcc with
  | some (_, size) => do let _ ← checkedSub size accessSize
  | none => pure ()

/-- The size of the region in the fact about an address computed without a check. -/
def uncheckedRegionFact : Except Fault Unit :=
  match mem.memoryType with
  | some _ => do let _ ← addOrPanic mem.bound mem.offsetGuardSize
  | none => pure ()

def explicitCheckOobConditionAndComputeAddr (addrTy : IntTy) (index : ℕ)
    (offset accessSize : ℕ) (spectreMitigationsEnabled : Bool) (pcc : Option (ℕ × ℕ))
    (oobCondition : ℕ) : Build TrapCode ℕ := do
  if !spectreMitigationsEnabled then
    ins_ (.trapnz oobCondition .heapOutOfBounds)
  let addr ← mem.computeAddr addrTy index offset
  if spectreMitigationsEnabled then
    let null ← ins (.iconst addrTy 0)
    let addr ← ins (.selectSpectreGuard oobCondition null addr)
    guardedAddrFact pcc accessSize
    pure addr
  else
    pure addr

def boundsCheckAndComputeAddr (isa : TargetIsa) (index : ℕ) (offset accessSize : ℕ) :
    Build TrapCode (Reachability ℕ) := do
  let index ← castIndexToPointerTy index mem.indexType isa.pointerType
  let offsetAndSize := offset + accessSize
  assertThat (isa.pageSizeAlignLog2 ≤ mem.pageSizeLog2)
    "k23's memories require the ability to use virtual memory"
  if mem.bound < offsetAndSize then
    ins_ (.trap .heapOutOfBounds)
    pure .unreachable
  else if mem.indexType = .I32
      ∧ 2 ^ 32 - 1 ≤ saturatingAdd (saturatingAdd mem.bound mem.offsetGuardSize) offsetAndSize then
    mem.uncheckedRegionFact
    let addr ← mem.computeAddr isa.pointerType index offset
    pure (.reachable addr)
  else
    let adjustedBound ← checkedSub mem.bound offsetAndSize
    let adjustedBound ← toI64 adjustedBound
    let adjustedBoundValue ← ins (.iconst isa.pointerType adjustedBound)
    let oob ← ins (.icmp .unsignedGreaterThan index adjustedBoundValue)
    let addr ← mem.explicitCheckOobConditionAndComputeAddr isa.pointerType index offset accessSize
      isa.heapAccessSpectreMitigation (mem.memoryType.map fun ty => (ty, mem.bound)) oob
    pure (.reachable addr)

/-- Emit the address computation of one access: the flags of the memory instruction, the WebAssembly
address and the native one, unless the access traps unconditionally. -/
def prepareAddr (isa : TargetIsa) (index : ℕ) (accessSize : ℕ) (memarg : MemArg) :
    Build TrapCode (Reachability (MemFlags × ℕ × ℕ)) := do
  let addr ←
    if memarg.offset < 2 ^ 32 then
      mem.boundsCheckAndComputeAddr isa index memarg.offset accessSize
    else do
      let imm ← toI64 memarg.offset
      let offset ← ins (.iconst mem.indexType imm)
      let adjustedIndex ← ins (.uaddOverflowTrap mem.indexType index offset .heapOutOfBounds)
      mem.boundsCheckAndComputeAddr isa adjustedIndex 0 accessSize
  match addr with
  | .unreachable => pure .unreachable
  | .reachable addr =>
    let flags : MemFlags :=
      { endianness := some .little, checked := mem.memoryType.isSome, aliasRegion := some .heap }
    pure (.reachable (flags, index, addr))

end CraneliftMemory

end K23VM.Cranelift
