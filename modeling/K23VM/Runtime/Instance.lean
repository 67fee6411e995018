import K23VM.Cranelift.CallIndirect
import K23VM.Lib.Logged
import K23VM.Runtime.CodeMemory
import K23VM.Runtime.ConstEval
import K23VM.Runtime.Memory

/-!
# Instances

Instantiating a module: its tables, memories and vmctx are allocated, the vmctx is filled in, and the
tables and memories are initialized.  What is written into a vmctx is recorded, as the offset and the
record of each write.

The allocator is a parameter; its defaults, which allocate one table or memory after the other, are
those of the trait.  The address of the array of builtin functions is a parameter too.
-/

namespace K23VM

open Compile (CompiledFunctionInfo)

/-! ## Modules and what they are given -/

/-- A compiled module. -/
structure Module where
  translated : TranslatedModule
  offsets : VMOffsets
  code : CodeMemory
  typeCollection : RuntimeTypeCollection
  /-- The address of the type ids. -/
  typeIds : ℕ
  functionInfo : List CompiledFunctionInfo

/-- What the compilation reads of a module. -/
def TranslatedModule.moduleFunctions (m : TranslatedModule) : Compile.ModuleFunctions :=
  ⟨m.numImportedFunctions, m.functions.map FunctionDesc.isEscaping⟩

/-- The last step of `Module::from_bytes`, where the code was mapped at `base` and the types were
registered. -/
def Module.fromLinked (m : TranslatedModule) (linked : Compile.Linked) (base : ℕ)
    (typeCollection : RuntimeTypeCollection) (typeIds : ℕ) : Except Fault Module := do
  let offsets ← VMOffsets.forModule 8 m
  pure
    { translated := m
      offsets
      code := .new base linked.text linked.trapOffsets linked.traps
      typeCollection, typeIds
      functionInfo := linked.funcs }

structure Imports where
  functions : List VMFunctionImport := []
  tables : List VMTableImport := []
  memories : List VMMemoryImport := []
  globals : List VMGlobalImport := []
  deriving DecidableEq, Repr

/-- A handle to something in a store. -/
inductive Extern where
  | func (index : ℕ)
  | table (index : ℕ)
  | memory (index : ℕ)
  | global (index : ℕ)
  deriving DecidableEq, Repr

structure Table where
  /-- The address of the elements. -/
  base : ℕ
  elements : List (Option ℕ)
  maximum : Option ℕ
  deriving DecidableEq, Repr

def Table.asVmtableDefinition (t : Table) : VMTableDefinition := ⟨t.base, t.elements.length⟩

/-- A memory, the address of its mapping, and what was copied into it. -/
structure InstanceMemory where
  base : ℕ
  memory : Memory
  copied : List (ℕ × List UInt8) := []
  deriving DecidableEq, Repr

def InstanceMemory.asVmmemoryDefinition (m : InstanceMemory) : VMMemoryDefinition :=
  ⟨m.base, m.memory.len⟩

/-! ## Allocation -/

structure InstanceAllocator where
  /-- The address of the vmctx. -/
  allocateVmctx : TranslatedModule → VMOffsets → Fallible Error ℕ
  allocateMemory : TranslatedModule → MemoryDesc → ℕ → Fallible Error InstanceMemory
  allocateTable : TranslatedModule → TableDesc → ℕ → Fallible Error Table

namespace InstanceAllocator

/-- Allocate the entities that the module defines, in order. -/
def allocateDefined {δ β : Type} (debug : Bool) (definedIndex : ℕ → Option ℕ)
    (allocate : δ → ℕ → Fallible Error β) (plans : List δ) : Fallible Error (List β) :=
  plans.zipIdx.foldlM (fun done (plan, index) => do
    match definedIndex index with
    | none => pure done
    | some defIndex => do
      let new ← allocate plan defIndex
      debugAssert debug (defIndex = done.length) "assertion `left == right` failed"
      pure (done ++ [new])) []

def allocateTables (debug : Bool) (alloc : InstanceAllocator) (module : TranslatedModule) :
    Fallible Error (List Table) :=
  allocateDefined debug module.definedTableIndex (alloc.allocateTable module) module.tables

def allocateMemories (debug : Bool) (alloc : InstanceAllocator) (module : TranslatedModule) :
    Fallible Error (List InstanceMemory) :=
  allocateDefined debug module.definedMemoryIndex (alloc.allocateMemory module) module.memories

def allocateModule (debug : Bool) (alloc : InstanceAllocator) (module : Module) :
    Fallible Error (ℕ × List Table × List InstanceMemory) := do
  -- The counts are computed for the capacity of the lists.
  let _ ← module.translated.numDefinedTables
  let _ ← module.translated.numDefinedMemories
  let tables ← alloc.allocateTables debug module.translated
  let memories ← alloc.allocateMemories debug module.translated
  let vmctx ← alloc.allocateVmctx module.translated module.offsets
  pure (vmctx, tables, memories)

end InstanceAllocator

/-! ## The vmctx -/

/-- `u32::from_le_bytes(*b"vmcx")`. -/
def VMCONTEXT_MAGIC : ℕ := 0x78636d76

/-- What can be written into a vmctx. -/
inductive VMRecord where
  | magic (value : ℕ)
  | pointer (address : ℕ)
  | funcRef (record : VMFuncRef)
  | functionImport (record : VMFunctionImport)
  | tableImport (record : VMTableImport)
  | memoryImport (record : VMMemoryImport)
  | globalImport (record : VMGlobalImport)
  | tableDefinition (record : VMTableDefinition)
  | memoryDefinition (record : VMMemoryDefinition)
  | globalDefinition (record : VMGlobalDefinition)
  deriving DecidableEq, Repr

def VMRecord.layout : VMRecord → Layout
  | .magic _ => .u32
  | .pointer _ => .pointer
  | .funcRef _ => VMFuncRef.layout
  | .functionImport _ => VMFunctionImport.layout
  | .tableImport _ => VMTableImport.layout
  | .memoryImport _ => VMMemoryImport.layout
  | .globalImport _ => VMGlobalImport.layout
  | .tableDefinition _ => VMTableDefinition.layout
  | .memoryDefinition _ => VMMemoryDefinition.layout
  | .globalDefinition _ => VMGlobalDefinition.layout

structure VMWrite where
  offset : ℕ
  record : VMRecord
  deriving DecidableEq, Repr

/-- A computation that writes into a vmctx. -/
abbrev Writing := Logged VMWrite Fault

def VMGlobalDefinition.fromVmval (val : VMVal) : VMGlobalDefinition := ⟨val.v128.toNat⟩

/-- `NonNull::new(address).unwrap()`. -/
def nonNull (address : ℕ) : Except Fault ℕ :=
  if address ≠ 0 then .ok address else panicking "called `Option::unwrap()` on a `None` value"

/-- The `VMFuncRef` of the function `index` of the instance with the given vmctx. -/
def vmFuncRef (debug : Bool) (vmctx : ℕ) (module : Module) (imports : Imports) (func : FunctionDesc)
    (index : ℕ) : Except Fault VMFuncRef :=
  match module.translated.definedFuncIndex index with
  | some defIndex => do
    let info ← unwrap "index out of bounds" module.functionInfo[defIndex]?
    let arrayCall ← unwrap "escaping function requires trampoline" info.hostToWasmTrampoline
    let arrayCall ← module.code.resolveFunctionLoc debug arrayCall
    let wasmCall ← nonNull (← module.code.resolveFunctionLoc debug info.wasmFuncLoc)
    let typeIndex ← vmFuncRefTypeIndex module.translated.types module.typeCollection func.signature
    pure ⟨arrayCall, wasmCall, vmctx, typeIndex⟩
  | none => do
    let import_ ← unwrap "index out of bounds" imports.functions[index]?
    let typeIndex ← vmFuncRefTypeIndex module.translated.types module.typeCollection func.signature
    pure ⟨import_.arrayCall, import_.wasmCall, import_.vmctx, typeIndex⟩

def initializeVmfuncRefs (debug : Bool) (vmctx : ℕ) (module : Module) (imports : Imports) :
    Writing Unit :=
  .recordAll (fun (func, index) => do
      let funcRef ← vmFuncRef debug vmctx module imports func index
      let offset ← module.offsets.vmctxVmfuncRef func.funcRef
      pure ⟨offset, .funcRef funcRef⟩)
    (module.translated.functions.zipIdx.filter (·.1.isEscaping))

/-- Copy records into an array at `begin_`, one behind the other. -/
def copyNonoverlapping (begin_ : ℕ) (layout : Layout) (records : List VMRecord) : Writing Unit :=
  .recordAll (fun (record, i) => pure ⟨begin_ + i * layout.size, record⟩) records.zipIdx

def initializeDefinedTables (tables : List Table) (module : Module) : Writing Unit :=
  .recordAll (fun defIndex => do
      let offset ← module.offsets.vmctxVmtableDefinition defIndex
      let table ← unwrap "index out of bounds" tables[defIndex]?
      pure ⟨offset, .tableDefinition table.asVmtableDefinition⟩)
    ((List.range module.translated.tables.length).filterMap module.translated.definedTableIndex)

def initializeDefinedMemories (memories : List InstanceMemory) (module : Module) : Writing Unit :=
  .recordAll (fun (defIndex, plan) => do
      assertThat (!plan.shared) "shared memories are not currently supported"
      let offset ← module.offsets.vmctxVmmemoryDefinition defIndex
      let memory ← unwrap "index out of bounds" memories[defIndex]?
      pure ⟨offset, .memoryDefinition memory.asVmmemoryDefinition⟩)
    (module.translated.memories.zipIdx.filterMap fun (plan, index) =>
      (module.translated.definedMemoryIndex index).map (·, plan))

def initializeDefinedGlobals (ev : ConstExprEvaluator) (module : Module) :
    Writing ConstExprEvaluator :=
  .forEach (fun ev (initExpr, defIndex) => do
      let (val, ev) ← ev.eval initExpr
      let offset ← module.offsets.vmctxVmglobalDefinition defIndex
      pure (⟨offset, .globalDefinition (.fromVmval val)⟩, ev))
    ev module.translated.globalInitializers.zipIdx

def initializeVmctx (debug : Bool) (builtinFunctions : ℕ) (ev : ConstExprEvaluator) (vmctx : ℕ)
    (tables : List Table) (memories : List InstanceMemory) (module : Module) (imports : Imports) :
    Writing ConstExprEvaluator := do
  let offsets := module.offsets
  Logged.record ⟨offsets.static_.vmctxMagic, .magic VMCONTEXT_MAGIC⟩
  Logged.record ⟨offsets.static_.vmctxBuiltinFunctions, .pointer builtinFunctions⟩
  Logged.record ⟨offsets.static_.vmctxTypeIds, .pointer module.typeIds⟩
  initializeVmfuncRefs debug vmctx module imports
  copyNonoverlapping offsets.importedFunctions VMFunctionImport.layout
    (imports.functions.map .functionImport)
  copyNonoverlapping offsets.importedTables VMTableImport.layout (imports.tables.map .tableImport)
  copyNonoverlapping offsets.importedMemories VMMemoryImport.layout
    (imports.memories.map .memoryImport)
  copyNonoverlapping offsets.importedGlobals VMGlobalImport.layout (imports.globals.map .globalImport)
  initializeDefinedTables tables module
  initializeDefinedMemories memories module
  initializeDefinedGlobals ev module

/-! ## Tables and memories -/

/-- The reference that an expression evaluates to. -/
def evalFuncref (ev : ConstExprEvaluator) (expr : ConstExpr) :
    Except Fault (Option ℕ × ConstExprEvaluator) := do
  let (val, ev) ← ev.eval expr
  pure (some (← nonNull val.getFuncref), ev)

/-- The references of a list of expressions. -/
def evalFuncrefs : ConstExprEvaluator → List ConstExpr →
    Except Fault (List (Option ℕ) × ConstExprEvaluator)
  | ev, [] => pure ([], ev)
  | ev, expr :: exprs => do
    let (funcref, ev) ← evalFuncref ev expr
    let (funcrefs, ev) ← evalFuncrefs ev exprs
    pure (funcref :: funcrefs, ev)

/-- `xs[offset..offset + ys.len()].copy_from_slice(ys)`. -/
def copyFromSlice {α : Type} (xs ys : List α) (offset : ℕ) : Except Fault (List α) := do
  let end_ ← addOrPanic offset ys.length
  if end_ ≤ xs.length then pure (xs.take offset ++ ys ++ xs.drop end_)
  else panicking "range end index out of range for slice"

def fillTable (s : ConstExprEvaluator × List Table) (init : TableInitialValue × ℕ) :
    Except Fault (ConstExprEvaluator × List Table) := do
  let (val, ev) ←
    match init.1 with
    | .refNull => pure (none, s.1)
    | .constExpr expr => evalFuncref s.1 expr
  let table ← unwrap "index out of bounds" s.2[init.2]?
  pure (ev, s.2.set init.2 { table with elements := table.elements.map fun _ => val })

def runSegment (module : TranslatedModule) (s : ConstExprEvaluator × List Table)
    (segment : TableSegment) : Except Fault (ConstExprEvaluator × List Table) := do
  let (elements, ev) ←
    match segment.elements with
    | .functions _ => panicking "not yet implemented"
    | .expressions exprs => evalFuncrefs s.1 exprs
  let (offset, ev) ← ev.eval segment.offset
  match module.definedTableIndex segment.tableIndex with
  | some defIndex => do
    let table ← unwrap "index out of bounds" s.2[defIndex]?
    let elements ← copyFromSlice table.elements elements offset.getU64
    pure (ev, s.2.set defIndex { table with elements })
  | none => panicking "not yet implemented: initializing imported table"

def initializeTables (ev : ConstExprEvaluator) (tables : List Table) (module : TranslatedModule) :
    Except Fault (ConstExprEvaluator × List Table) := do
  let s ← module.tableInitializers.initialValues.zipIdx.foldlM fillTable (ev, tables)
  module.tableInitializers.segments.foldlM (runSegment module) s

def initializeMemory (module : TranslatedModule) (s : ConstExprEvaluator × List InstanceMemory)
    (init : MemoryInitializer) : Except Fault (ConstExprEvaluator × List InstanceMemory) := do
  let (offset, ev) ← s.1.eval init.offset
  match module.definedMemoryIndex init.memoryIndex with
  | some defIndex => do
    let memory ← unwrap "index out of bounds" s.2[defIndex]?
    assertThat (memory.memory.len ≤ memory.memory.mmap.len) "assertion failed: range.end <= self.len()"
    let end_ ← addOrPanic offset.getU64 init.data.length
    if end_ ≤ memory.memory.len then
      pure (ev, s.2.set defIndex
        { memory with copied := memory.copied ++ [(offset.getU64, init.data)] })
    else
      panicking "range end index out of range for slice"
  | none => panicking "not yet implemented: initializing imported table"

def initializeMemories (ev : ConstExprEvaluator) (memories : List InstanceMemory)
    (module : TranslatedModule) : Except Fault (ConstExprEvaluator × List InstanceMemory) :=
  module.memoryInitializers.foldlM (initializeMemory module) (ev, memories)

/-! ## Instantiation -/

/-- A vmctx: its address, and what was written into it. -/
structure OwnedVMContext where
  address : ℕ
  writes : List VMWrite

structure Instance where
  module : Module
  vmctx : OwnedVMContext
  tables : List Table
  memories : List InstanceMemory
  droppedElems : List ℕ
  droppedData : List ℕ
  exports : List (Option Extern)

/-- `runtime::Instance::new_unchecked`. -/
def Instance.newUnchecked (debug : Bool) (builtinFunctions : ℕ) (alloc : InstanceAllocator)
    (ev : ConstExprEvaluator) (module : Module) (imports : Imports) :
    Fallible Error (Instance × ConstExprEvaluator) := do
  let (vmctx, tables, memories) ← alloc.allocateModule debug module
  let writing := initializeVmctx debug builtinFunctions ev vmctx tables memories module imports
  let ev ← (writing.result : Except Fault ConstExprEvaluator)
  let (ev, tables) ← initializeTables ev tables module.translated
  let (ev, memories) ← initializeMemories ev memories module.translated
  pure (
    { module
      vmctx := ⟨vmctx, writing.log⟩
      tables, memories
      droppedElems := module.translated.activeTableInitializers
      droppedData := module.translated.activeMemoryInitializers
      exports := module.translated.exports.map fun _ => none }, ev)

end K23VM
