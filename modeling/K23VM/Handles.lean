import K23VM.Linker

/-!
# Handles

A handle is a position in one of the lists of a store, and its type says which one.  Which store issued
it is not part of it: the ledger keeps a record of the handles that a store issues and of what each one
was issued for.
-/

namespace K23VM

/-- The types that a handle is for. -/
inductive StoredType where
  | instance_
  | function
  | table
  | memory
  | global
  deriving DecidableEq, Repr

structure Stored where
  type : StoredType
  index : ℕ
  deriving DecidableEq, Repr

/-- What a handle is looked up as. -/
inductive StoredObject where
  | instance_ (instance_ : Instance)
  | function (func : ExportedFunction)
  | table (table : ExportedTable)
  | memory (memory : ExportedMemory)
  | global (global : ExportedGlobal)

def Extern.stored : Extern → Stored
  | .func handle => ⟨.function, handle⟩
  | .table handle => ⟨.table, handle⟩
  | .memory handle => ⟨.memory, handle⟩
  | .global handle => ⟨.global, handle⟩

def Export.object : Export → StoredObject
  | .function e => .function e
  | .table e => .table e
  | .memory e => .memory e
  | .global e => .global e

namespace Store

/-- `has_*`. -/
def has (store : Store) (handle : Stored) : Bool :=
  match handle.type with
  | .instance_ => store.hasInstance handle.index
  | .function => store.hasFunction handle.index
  | .table => store.hasTable handle.index
  | .memory => store.hasMemory handle.index
  | .global => store.hasGlobal handle.index

/-- `get_*`. -/
def get (store : Store) (handle : Stored) : Option StoredObject :=
  match handle.type with
  | .instance_ => (store.getInstance handle.index).map .instance_
  | .function => (store.getFunction handle.index).map .function
  | .table => (store.getTable handle.index).map .table
  | .memory => (store.getMemory handle.index).map .memory
  | .global => (store.getGlobal handle.index).map .global

/-- `comes_from_same_store`, which a function does not have. -/
def comesFromSameStore (store : Store) (handle : Stored) : Option Bool :=
  match handle.type with
  | .instance_ => some (store.hasInstance handle.index)
  | .function => none
  | .table => some (store.hasTable handle.index)
  | .memory => some (store.hasMemory handle.index)
  | .global => some (store.hasGlobal handle.index)

/-- The names and values of the exports of an instance, once all are known. -/
def knownExports (store : Store) (instance_ : ℕ) : Except Fault (List (String × Extern)) := do
  let data ← index store.instances instance_
  (data.module.translated.exports.zip data.exports).mapM fun p => do
    let value ← unwrap "called `Option::unwrap()` on a `None` value" p.2
    pure (p.1.1, value)

end Store

/-! ## Calls on a store -/

/-- The calls that push onto a store. -/
inductive StoreOp where
  | instantiate (debug : Bool) (builtinFunctions : ℕ) (linker : Linker) (alloc : InstanceAllocator)
    (ev : ConstExprEvaluator) (module : Module)
  | exports (instance_ : ℕ)
  | getExport (instance_ : ℕ) (name : String)

def Store.step (store : Store) : StoreOp → Except Fault Store
  | .instantiate debug builtinFunctions linker alloc ev module => do
    match ← (linker.instantiate debug builtinFunctions store alloc ev module).run with
    | .ok ((_, store), _) => pure store
    | .error _ => pure store
  | .exports instance_ => do
    let (_, store) ← store.exports instance_
    pure store
  | .getExport instance_ name => do
    let (_, store) ← store.getExport instance_ name
    pure store

/-- A store, and the handles it has issued, the newest first. -/
structure Ledger where
  store : Store := {}
  issued : List (Stored × StoredObject) := []

namespace Ledger

def pushInstance (ledger : Ledger) (instance_ : Instance) : ℕ × Ledger :=
  let (handle, store) := ledger.store.pushInstance instance_
  (handle, ⟨store, (⟨.instance_, handle⟩, .instance_ instance_) :: ledger.issued⟩)

def fromExport (export_ : Export) (ledger : Ledger) : Extern × Ledger :=
  let (item, store) := Extern.fromExport export_ ledger.store
  (item, ⟨store, (item.stored, export_.object) :: ledger.issued⟩)

def instantiate (ledger : Ledger) (debug : Bool) (builtinFunctions : ℕ) (linker : Linker)
    (alloc : InstanceAllocator) (ev : ConstExprEvaluator) (module : Module) :
    Fallible Error ((ℕ × Ledger) × ConstExprEvaluator) := do
  let imports ← linker.resolveImports ledger.store module
  let (instance_, ev) ← Instance.newUnchecked debug builtinFunctions alloc ev module imports
  pure (ledger.pushInstance instance_, ev)

def getExportInner (ledger : Ledger) (instance_ : ℕ) (entity : EntityIndex) (exportNameIndex : ℕ) :
    Except Fault (Extern × Ledger) := do
  let data ← Store.index ledger.store.instances instance_
  match ← unwrap "index out of bounds" data.exports[exportNameIndex]? with
  | some export_ => pure (export_, ledger)
  | none => do
    let export_ ← data.getExportByIndex entity
    let (item, ledger) := ledger.fromExport export_
    let data ← Store.index ledger.store.instances instance_
    let data := { data with exports := data.exports.set exportNameIndex (some item) }
    let instances := ledger.store.instances.set instance_ data
    pure (item, { ledger with store := { ledger.store with instances } })

def fillExports (instance_ : ℕ) (exports : List (String × EntityIndex)) (ledger : Ledger)
    (name : String) : Except Fault Ledger :=
  match Store.getFull exports name with
  | some (exportNameIndex, entity) => do
    let (_, ledger) ← ledger.getExportInner instance_ entity exportNameIndex
    pure ledger
  | none => pure ledger

/-- Fill in all exports of an instance, where some are not known. -/
def fillAll (ledger : Ledger) (instance_ : ℕ) (data : Instance) : Except Fault Ledger :=
  if data.exports.any Option.isNone then
    (data.module.translated.exports.map Prod.fst).foldlM
      (fillExports instance_ data.module.translated.exports) ledger
  else
    pure ledger

def exports (ledger : Ledger) (instance_ : ℕ) :
    Except Fault (List (String × Extern) × Ledger) := do
  let data ← Store.index ledger.store.instances instance_
  let ledger ← ledger.fillAll instance_ data
  pure (← ledger.store.knownExports instance_, ledger)

def getExport (ledger : Ledger) (instance_ : ℕ) (name : String) :
    Except Fault (Option Extern × Ledger) := do
  let data ← Store.index ledger.store.instances instance_
  match Store.getFull data.module.translated.exports name with
  | none => pure (none, ledger)
  | some (exportNameIndex, entity) => do
    let (item, ledger) ← ledger.getExportInner instance_ entity exportNameIndex
    pure (some item, ledger)

/-- A call, with a record of the handles it issues and the handles it returns. -/
def step (ledger : Ledger) : StoreOp → Except Fault (List Stored × Ledger)
  | .instantiate debug builtinFunctions linker alloc ev module => do
    match ← (ledger.instantiate debug builtinFunctions linker alloc ev module).run with
    | .ok ((handle, ledger), _) => pure ([⟨.instance_, handle⟩], ledger)
    | .error _ => pure ([], ledger)
  | .exports instance_ => do
    let (exports, ledger) ← ledger.exports instance_
    pure (exports.map fun e => e.2.stored, ledger)
  | .getExport instance_ name => do
    let (item, ledger) ← ledger.getExport instance_ name
    pure (item.toList.map Extern.stored, ledger)

def run : Ledger → List StoreOp → Except Fault Ledger
  | ledger, [] => pure ledger
  | ledger, op :: ops => do
    let (_, ledger) ← ledger.step op
    run ledger ops

/-- The records that calls on a new store leave. -/
def Reachable (ledger : Ledger) : Prop := ∃ ops, ({} : Ledger).run ops = .ok ledger

end Ledger

end K23VM
