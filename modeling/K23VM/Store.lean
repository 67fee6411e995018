import K23VM.Runtime.Instance

/-!
# Stores

A store owns instances and what they export.  Handles to these are positions in the store's lists; which
list a handle is for is known from its type.
-/

namespace K23VM

/-- An exported function, as the record that its pointer refers to. -/
structure ExportedFunction where
  funcRef : VMFuncRef
  deriving DecidableEq, Repr

structure ExportedTable where
  /-- The address of the table's definition. -/
  definition : ℕ
  vmctx : ℕ
  table : TableDesc
  deriving DecidableEq, Repr

structure ExportedMemory where
  definition : ℕ
  vmctx : ℕ
  memory : MemoryDesc
  deriving DecidableEq, Repr

structure ExportedGlobal where
  definition : ℕ
  vmctx : ℕ
  ty : GlobalDesc
  deriving DecidableEq, Repr

structure Store where
  instances : List Instance := []
  exportedFuncs : List ExportedFunction := []
  exportedTables : List ExportedTable := []
  exportedMemories : List ExportedMemory := []
  exportedGlobals : List ExportedGlobal := []
  /-- The instances by their vmctx, the newest first. -/
  vmctx2instance : List (ℕ × ℕ) := []

namespace Store

/-! `stored_impls!` -/

/-- The look-up of a handle, with bounds checked. -/
def getIn {α : Type} (items : List α) (handle : ℕ) : Option α := items[handle]?

def hasIn {α : Type} (items : List α) (handle : ℕ) : Bool := (getIn items handle).isSome

def hasInstance (store : Store) (handle : ℕ) : Bool := hasIn store.instances handle

def getInstance (store : Store) (handle : ℕ) : Option Instance := getIn store.instances handle

def hasFunction (store : Store) (handle : ℕ) : Bool := hasIn store.exportedFuncs handle

def getFunction (store : Store) (handle : ℕ) : Option ExportedFunction :=
  getIn store.exportedFuncs handle

def hasTable (store : Store) (handle : ℕ) : Bool := hasIn store.exportedTables handle

def getTable (store : Store) (handle : ℕ) : Option ExportedTable :=
  getIn store.exportedTables handle

def hasMemory (store : Store) (handle : ℕ) : Bool := hasIn store.exportedMemories handle

def getMemory (store : Store) (handle : ℕ) : Option ExportedMemory :=
  getIn store.exportedMemories handle

def hasGlobal (store : Store) (handle : ℕ) : Bool := hasIn store.exportedGlobals handle

def getGlobal (store : Store) (handle : ℕ) : Option ExportedGlobal :=
  getIn store.exportedGlobals handle

/-- A handle is looked up with `get(..).unwrap()`. -/
def index {α : Type} (items : List α) (handle : ℕ) : Except Fault α :=
  unwrap "called `Option::unwrap()` on a `None` value" items[handle]?

def pushInstance (store : Store) (instance_ : Instance) : ℕ × Store :=
  let handle := store.instances.length
  (handle,
    { store with
      instances := store.instances ++ [instance_]
      vmctx2instance := (instance_.vmctx.address, handle) :: store.vmctx2instance })

def pushFunction (store : Store) (func : ExportedFunction) : ℕ × Store :=
  (store.exportedFuncs.length, { store with exportedFuncs := store.exportedFuncs ++ [func] })

def pushTable (store : Store) (table : ExportedTable) : ℕ × Store :=
  (store.exportedTables.length, { store with exportedTables := store.exportedTables ++ [table] })

def pushMemory (store : Store) (memory : ExportedMemory) : ℕ × Store :=
  (store.exportedMemories.length,
    { store with exportedMemories := store.exportedMemories ++ [memory] })

def pushGlobal (store : Store) (global : ExportedGlobal) : ℕ × Store :=
  (store.exportedGlobals.length, { store with exportedGlobals := store.exportedGlobals ++ [global] })

/-- The handle of the instance with the given vmctx. -/
def getInstanceFromVmctx (store : Store) (vmctx : ℕ) : Except Fault ℕ :=
  unwrap "no entry found for key" (store.vmctx2instance.lookup vmctx)

def asVmfunctionImport (store : Store) (func : ℕ) : Except Fault VMFunctionImport := do
  let export_ ← index store.exportedFuncs func
  pure ⟨export_.funcRef.wasmCall, export_.funcRef.arrayCall, export_.funcRef.vmctx⟩

def asVmtableImport (store : Store) (table : ℕ) : Except Fault VMTableImport := do
  let export_ ← index store.exportedTables table
  pure ⟨export_.definition, export_.vmctx⟩

def asVmmemoryImport (store : Store) (memory : ℕ) : Except Fault VMMemoryImport := do
  let export_ ← index store.exportedMemories memory
  pure ⟨export_.definition, export_.vmctx⟩

def asVmglobalImport (store : Store) (global : ℕ) : Except Fault VMGlobalImport := do
  let export_ ← index store.exportedGlobals global
  pure ⟨export_.definition, export_.vmctx⟩

end Store

end K23VM
