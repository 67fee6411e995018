import K23VM.Store

/-!
# The exports of instances

The exports of an instance are pushed onto the store one by one, when they are first asked for, and the
handles are kept with the instance.
-/

namespace K23VM

/-! ## Reading a vmctx

A vmctx is zeroed before it is filled in, so that a record that was never written is zero. -/

namespace OwnedVMContext

/-- The last record that was written at an offset. -/
def recordAt (vmctx : OwnedVMContext) (offset : ℕ) : Option VMRecord :=
  (vmctx.writes.reverse.find? fun w => w.offset = offset).map VMWrite.record

def funcRefAt (vmctx : OwnedVMContext) (offset : ℕ) : VMFuncRef :=
  match vmctx.recordAt offset with
  | some (.funcRef record) => record
  | _ => ⟨0, 0, 0, 0⟩

def tableImportAt (vmctx : OwnedVMContext) (offset : ℕ) : VMTableImport :=
  match vmctx.recordAt offset with
  | some (.tableImport record) => record
  | _ => ⟨0, 0⟩

def memoryImportAt (vmctx : OwnedVMContext) (offset : ℕ) : VMMemoryImport :=
  match vmctx.recordAt offset with
  | some (.memoryImport record) => record
  | _ => ⟨0, 0⟩

def globalImportAt (vmctx : OwnedVMContext) (offset : ℕ) : VMGlobalImport :=
  match vmctx.recordAt offset with
  | some (.globalImport record) => record
  | _ => ⟨0, 0⟩

end OwnedVMContext

/-! ## Exports -/

/-- `runtime::Export`. -/
inductive Export where
  | function (export_ : ExportedFunction)
  | table (export_ : ExportedTable)
  | memory (export_ : ExportedMemory)
  | global (export_ : ExportedGlobal)
  deriving DecidableEq, Repr

namespace Instance

variable (instance_ : Instance)

def getExportedFunc (index : ℕ) : Except Fault ExportedFunction := do
  assertThat (index ≠ 2 ^ 32 - 1) "called `Option::unwrap()` on a `None` value"
  let func ← unwrap "index out of bounds" instance_.module.translated.functions[index]?
  let offset ← instance_.module.offsets.vmctxVmfuncRef func.funcRef
  let _ ← nonNull (instance_.vmctx.address + offset)
  pure ⟨instance_.vmctx.funcRefAt offset⟩

def getExportedTable (index : ℕ) : Except Fault ExportedTable := do
  let (definition, vmctx) ←
    match instance_.module.translated.definedTableIndex index with
    | some defIndex => do
      let offset ← instance_.module.offsets.vmctxVmtableDefinition defIndex
      pure (instance_.vmctx.address + offset, instance_.vmctx.address)
    | none => do
      let import_ := instance_.vmctx.tableImportAt
        (← instance_.module.offsets.vmctxVmtableImport index)
      pure (import_.from_, import_.vmctx)
  let table ← unwrap "index out of bounds" instance_.module.translated.tables[index]?
  pure ⟨definition, vmctx, table⟩

def getExportedMemory (index : ℕ) : Except Fault ExportedMemory := do
  let (definition, vmctx) ←
    match instance_.module.translated.definedMemoryIndex index with
    | some defIndex => do
      let offset ← instance_.module.offsets.vmctxVmmemoryDefinition defIndex
      pure (instance_.vmctx.address + offset, instance_.vmctx.address)
    | none => do
      let import_ := instance_.vmctx.memoryImportAt
        (← instance_.module.offsets.vmctxVmmemoryImport index)
      pure (import_.from_, import_.vmctx)
  let memory ← unwrap "index out of bounds" instance_.module.translated.memories[index]?
  pure ⟨definition, vmctx, memory⟩

def getExportedGlobal (index : ℕ) : Except Fault ExportedGlobal := do
  let (definition, vmctx) ←
    match instance_.module.translated.definedGlobalIndex index with
    | some defIndex => do
      let offset ← instance_.module.offsets.vmctxVmglobalDefinition defIndex
      pure (instance_.vmctx.address + offset, instance_.vmctx.address)
    | none => do
      let import_ := instance_.vmctx.globalImportAt
        (← instance_.module.offsets.vmctxVmglobalImport index)
      pure (import_.from_, import_.vmctx)
  let ty ← unwrap "index out of bounds" instance_.module.translated.globals[index]?
  pure ⟨definition, vmctx, ty⟩

def getExportByIndex : EntityIndex → Except Fault Export
  | .function i => do pure (.function (← instance_.getExportedFunc i))
  | .global i => do pure (.global (← instance_.getExportedGlobal i))
  | .table i => do pure (.table (← instance_.getExportedTable i))
  | .memory i => do pure (.memory (← instance_.getExportedMemory i))
  | .tag _ => panicking "not yet implemented"

end Instance

/-- `Extern::from_export`: the export is pushed onto the store. -/
def Extern.fromExport (export_ : Export) (store : Store) : Extern × Store :=
  match export_ with
  | .function e => let (handle, store) := store.pushFunction e; (.func handle, store)
  | .table e => let (handle, store) := store.pushTable e; (.table handle, store)
  | .memory e => let (handle, store) := store.pushMemory e; (.memory handle, store)
  | .global e => let (handle, store) := store.pushGlobal e; (.global handle, store)

namespace Store

/-- `IndexMap::get_full` on the exports of a module: the position of the name and what it names. -/
def getFull (exports : List (String × EntityIndex)) (name : String) : Option (ℕ × EntityIndex) :=
  (exports.zipIdx.find? fun p => p.1.1 = name).map fun p => (p.2, p.1.2)

def getExportInner (store : Store) (instance_ : ℕ) (entity : EntityIndex) (exportNameIndex : ℕ) :
    Except Fault (Extern × Store) := do
  let data ← index store.instances instance_
  match ← unwrap "index out of bounds" data.exports[exportNameIndex]? with
  | some export_ => pure (export_, store)
  | none => do
    let export_ ← data.getExportByIndex entity
    let (item, store) := Extern.fromExport export_ store
    let data ← index store.instances instance_
    let data := { data with exports := data.exports.set exportNameIndex (some item) }
    pure (item, { store with instances := store.instances.set instance_ data })

/-- Fill in the exports of an instance under some names. -/
def fillExports (instance_ : ℕ) (exports : List (String × EntityIndex)) (store : Store)
    (name : String) : Except Fault Store :=
  match getFull exports name with
  | some (exportNameIndex, entity) => do
    let (_, store) ← store.getExportInner instance_ entity exportNameIndex
    pure store
  | none => pure store

/-- `Instance::exports`: the names and values of all exports of an instance. -/
def exports (store : Store) (instance_ : ℕ) : Except Fault (List (String × Extern) × Store) := do
  let data ← index store.instances instance_
  let store ←
    if data.exports.any Option.isNone then
      (data.module.translated.exports.map Prod.fst).foldlM
        (fillExports instance_ data.module.translated.exports) store
    else
      pure store
  let data ← index store.instances instance_
  let exports ← (data.module.translated.exports.zip data.exports).mapM fun p => do
    let value ← unwrap "called `Option::unwrap()` on a `None` value" p.2
    pure (p.1.1, value)
  pure (exports, store)

/-- `Instance::get_export`. -/
def getExport (store : Store) (instance_ : ℕ) (name : String) :
    Except Fault (Option Extern × Store) := do
  let data ← index store.instances instance_
  match getFull data.module.translated.exports name with
  | none => pure (none, store)
  | some (exportNameIndex, entity) => do
    let (item, store) ← store.getExportInner instance_ entity exportNameIndex
    pure (some item, store)

end Store

/-! ## Exports of one kind

`owned_enum_accessors!`, and the look-ups that go through them. -/

namespace Extern

def intoFunc : Extern → Option ℕ
  | .func handle => some handle
  | _ => none

def intoTable : Extern → Option ℕ
  | .table handle => some handle
  | _ => none

def intoMemory : Extern → Option ℕ
  | .memory handle => some handle
  | _ => none

def intoGlobal : Extern → Option ℕ
  | .global handle => some handle
  | _ => none

end Extern

/-- The look-up of an export that is then taken for one of a kind. -/
def Store.getExportAs (into : Extern → Option ℕ) (store : Store) (instance_ : ℕ) (name : String) :
    Except Fault (Option ℕ × Store) := do
  let (item, store) ← store.getExport instance_ name
  pure (item.bind into, store)

namespace InstanceHandle

variable (instance_ : ℕ) (store : Store) (name : String)

def getFunc : Except Fault (Option ℕ × Store) := store.getExportAs Extern.intoFunc instance_ name

def getTable : Except Fault (Option ℕ × Store) := store.getExportAs Extern.intoTable instance_ name

def getMemory : Except Fault (Option ℕ × Store) := store.getExportAs Extern.intoMemory instance_ name

def getGlobal : Except Fault (Option ℕ × Store) := store.getExportAs Extern.intoGlobal instance_ name

end InstanceHandle

end K23VM
