import K23VM.Cranelift.CallIndirect
import K23VM.Cranelift.Env
import K23VM.Cranelift.PlainOperators

/-!
# The environment of a module

The environment that the function translator has for a module: which entities the operators ask for,
what is made of them, and what the calls call.
-/

namespace K23VM

def WasmSubType.asFunc (ty : WasmSubType) : Option WasmFuncType :=
  match ty.compositeType.inner with
  | .func ty => some ty
  | _ => none

def WasmHeapType.isVmgcrefType (ty : WasmHeapType) : Bool :=
  match ty.top with
  | .any | .extern_ => true
  | .func | .exn | .cont => false

end K23VM

namespace K23VM.Cranelift

open Wasmparser

/-- The entities that a plain operator asks for. -/
def PlainOperator.entities : PlainOperator → List EntityIndex
  | .globalGet globalIndex | .globalSet globalIndex => [.global globalIndex]
  | .load _ memarg | .store _ memarg | .loadExtend _ memarg | .loadSplat _ memarg | .loadZero _ memarg
  | .loadLane _ memarg _ | .storeLane _ memarg _ => [.memory memarg.memory]
  | .callRef typeIndex => [.signature typeIndex]
  | _ => []

def ModuleOperator.entities : ModuleOperator → List EntityIndex
  | .plain op => PlainOperator.entities op
  | .call functionIndex => [.function functionIndex]
  | .callIndirect typeIndex tableIndex => [.signature typeIndex, .table tableIndex]
  | .returnCallIndirect typeIndex _ | .returnCallRef typeIndex => [.signature typeIndex]
  | .tag _ => []

structure ModuleEnvironment where
  debug : Bool
  isa : TargetIsa
  pointerType : Ty
  module : TranslatedModule
  wasmTypes : List WasmSubType
  seenTypes : List (ℕ × ℕ)
  offsets : VMOffsets
  /-- What the validator knows of the module. -/
  resources : ModuleResources
  /-- The number that a function gives to a signature, another function or a place in memory that is
  made in it. -/
  number : FunctionBuilder (ModuleOperator × List Entity) → EntityIndex → ℕ
  /-- The region of the vmctx, where proof-carrying code is enabled. -/
  memoryType : Option ℕ

namespace ModuleEnvironment

variable (m : ModuleEnvironment)

def types : WasmparserTypeConverter := ⟨m.seenTypes, m.wasmTypes, m.module.types⟩

def plain : PlainEnvironment := ⟨m.debug, m.isa, m.pointerType, m.types⟩

/-- The function type with the given index in the module. -/
def wasmFuncType (typeIndex : ℕ) : Except Fault WasmFuncType := do
  let interned ← unwrap "index out of bounds" m.module.types[typeIndex]?
  let ty ← unwrap "called `Option::unwrap()` on a `None` value" m.wasmTypes[interned]?
  unwrap "expected &WasmFuncType" ty.asFunc

/-! ## Entities -/

section Entities

variable (b : FunctionBuilder (ModuleOperator × List Entity)) (index : ℕ)

def makeIndirectSig : Except Fault (ℕ × ℕ) := do
  let sig ← wasmCallSignature m.pointerType (← m.wasmFuncType index)
  pure (m.number b (.signature index), sig.wasmParams.length)

def makeDirectFunc : Except Fault (ℕ × ℕ) := do
  let function ← unwrap "index out of bounds" m.module.functions[index]?
  let sig ← wasmCallSignature m.pointerType (← m.wasmFuncType function.signature)
  pure (m.number b (.function index), sig.wasmParams.length)

def makeTable : Except Fault CraneliftTable := do
  let table ← unwrap "index out of bounds" m.module.tables[index]?
  match m.module.definedTableIndex index with
  | some defIndex => do let _ ← toI32 (← m.offsets.vmctxVmtableDefinitionBase defIndex)
  | none => do let _ ← toI32 (← m.offsets.vmctxVmtableImportFrom index)
  let elementSize ←
    if table.elementType.heapType.isVmgcrefType then pure Ty.I32.bytes
    else do pure (← referenceType m.pointerType table.elementType.heapType).bytes
  let bound ←
    if some table.minimum = table.maximum then pure table.minimum
    else panicking "not yet implemented: resizable tables"
  pure ⟨m.number b (.table index), bound, elementSize⟩

def makeMemory : Except Fault CraneliftMemory := do
  let plan ← unwrap "index out of bounds" m.module.memories[index]?
  match m.module.definedMemoryIndex index with
  | some defIndex => do
    assertThat (!plan.shared) "not yet implemented: shared memory"
    let _ ← toI32 (← m.offsets.vmctxVmmemoryDefinitionBase defIndex)
  | none => do let _ ← toI32 (← m.offsets.vmctxVmmemoryImportFrom index)
  Cranelift.makeMemory m.debug plan (m.module.definedMemoryIndex index).isSome
    (m.number b (.memory index)) m.memoryType

def getGlobalLocation : Except Fault ℕ :=
  match m.module.definedGlobalIndex index with
  | some defIndex => do toI32 (← m.offsets.vmctxVmglobalDefinition defIndex)
  | none => do
    let _ ← toI32 (← m.offsets.vmctxVmglobalImportFrom index)
    pure 0

def makeGlobal : Except Fault CraneliftGlobal := do
  let global ← unwrap "index out of bounds" m.module.globals[index]?
  debugAssert m.debug (!global.shared) "assertion failed: !global.shared"
  let offset ← m.getGlobalLocation index
  let ty ← valueType m.pointerType global.contentType
  pure (.memory (m.number b (.global index)) offset ty)

end Entities

/-! ## Operators -/

def translatePlain : ModuleOperator × List Entity → List Ty → Fallible Error PlainShape
  | (.plain op, entities), stack => m.plain.translatePlain entities op stack
  | _, _ => (panicking "internal error: entered unreachable code" : Except Fault _)

def callee : ModuleOperator × List Entity → Except Fault Callee
  | (.call functionIndex, _) => do
    let function ← unwrap "index out of bounds" m.module.functions[functionIndex]?
    pure ⟨← m.wasmFuncType function.signature, !m.module.isImportedFunc functionIndex⟩
  | _ => panicking "internal error: entered unreachable code"

def indirectCallee : ModuleOperator × List Entity → Except Fault WasmFuncType
  | (.callIndirect typeIndex _, _) | (.returnCallIndirect typeIndex _, _) | (.returnCallRef typeIndex, _) =>
    m.wasmFuncType typeIndex
  | _ => panicking "internal error: entered unreachable code"

def checkIndirectCall : ModuleOperator × List Entity → Except Fault (Option TrapCode)
  | (.callIndirect typeIndex tableIndex, _) => do
    let table ← unwrap "index out of bounds" m.module.tables[tableIndex]?
    let (code, check) ← checkIndirectCallTypeSignature m.offsets.static_ table.elementType m.module.types
      typeIndex 0 1
    match check, code.getLast? with
    | .staticTrap, some (.trap code) => pure (some code)
    | _, _ => pure none
  | _ => panicking "internal error: entered unreachable code"

def environment : FunctionEnvironment ModuleOperator where
  translation :=
    { debug := m.debug
      resources := m.resources.toWasmModuleResources
      types := m.types
      pointerType := m.pointerType
      translatePlain := m.translatePlain
      callee := m.callee
      indirectCallee := m.indirectCallee
      checkIndirectCall := m.checkIndirectCall }
  entities := ModuleOperator.entities
  makeIndirectSig := m.makeIndirectSig
  makeDirectFunc := m.makeDirectFunc
  makeTable := m.makeTable
  makeMemory := m.makeMemory
  makeGlobal := m.makeGlobal

end ModuleEnvironment

end K23VM.Cranelift
