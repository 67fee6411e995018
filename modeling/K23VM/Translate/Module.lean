import K23VM.Lib.Word
import K23VM.Translate.MemoryDesc
import K23VM.Translate.Types

/-!
# Translated modules

A module as the translator describes it: its types, functions, tables, memories and globals, of which
the imported ones come first, its imports and exports, and what its tables, memories and globals are
initialized with.
-/

namespace K23VM

/-! ## Entities -/

/-- The `func_ref` of a function that does not escape. -/
def FUNC_REF_RESERVED : ℕ := 2 ^ 32 - 1

structure FunctionDesc where
  signature : ℕ
  /-- The index of the function to the outside world, or the reserved value. -/
  funcRef : ℕ
  deriving DecidableEq, Repr

def FunctionDesc.isEscaping (f : FunctionDesc) : Bool := f.funcRef != FUNC_REF_RESERVED

structure TableDesc where
  elementType : WasmRefType
  table64 : Bool
  /-- The minimum number of elements. -/
  minimum : ℕ
  maximum : Option ℕ
  shared : Bool
  deriving DecidableEq, Repr

structure GlobalDesc where
  contentType : WasmValType
  mutable : Bool
  shared : Bool
  deriving DecidableEq, Repr

/-- What an import has to be. -/
inductive EntityType where
  | function (ty : CanonicalizedTypeIndex)
  | table (desc : TableDesc)
  | memory (desc : MemoryDesc)
  | global (desc : GlobalDesc)
  deriving DecidableEq, Repr

inductive EntityIndex where
  | function (index : ℕ)
  | table (index : ℕ)
  | memory (index : ℕ)
  | global (index : ℕ)
  | tag (index : ℕ)
  deriving DecidableEq, Repr

structure Import where
  module : String
  name : String
  ty : EntityType
  deriving DecidableEq, Repr

/-! ## Initializers -/

/-- The operators of constant expressions; the bits of a number are a natural number. -/
inductive ConstOp where
  | i32Const (value : ℤ)
  | i64Const (value : ℤ)
  | f32Const (bits : ℕ)
  | f64Const (bits : ℕ)
  | v128Const (bits : ℕ)
  | globalGet (index : ℕ)
  | refI31
  | refNull
  | refFunc (index : ℕ)
  | i32Add | i32Sub | i32Mul | i64Add | i64Sub | i64Mul
  deriving DecidableEq, Repr

structure ConstExpr where
  ops : List ConstOp
  deriving DecidableEq, Repr

inductive TableInitialValue where
  | refNull
  | constExpr (expr : ConstExpr)
  deriving DecidableEq, Repr

inductive TableSegmentElements where
  | functions (funcs : List ℕ)
  | expressions (exprs : List ConstExpr)
  deriving DecidableEq, Repr

structure TableSegment where
  tableIndex : ℕ
  offset : ConstExpr
  elements : TableSegmentElements
  deriving DecidableEq, Repr

structure TableInitializers where
  /-- The initial values of the tables that the module defines. -/
  initialValues : List TableInitialValue
  segments : List TableSegment
  deriving DecidableEq, Repr

structure MemoryInitializer where
  memoryIndex : ℕ
  offset : ConstExpr
  data : List UInt8
  deriving DecidableEq, Repr

/-! ## Modules -/

structure TranslatedModule where
  name : Option String := none
  /-- The interned type of each declared type. -/
  types : List ℕ := []
  functions : List FunctionDesc := []
  tables : List TableDesc := []
  memories : List MemoryDesc := []
  globals : List GlobalDesc := []
  start : Option ℕ := none
  imports : List Import := []
  exports : List (String × EntityIndex) := []
  globalInitializers : List ConstExpr := []
  tableInitializers : TableInitializers := ⟨[], []⟩
  memoryInitializers : List MemoryInitializer := []
  passiveTableInitializers : List (ℕ × TableSegmentElements) := []
  passiveMemoryInitializers : List (ℕ × List UInt8) := []
  activeTableInitializers : List ℕ := []
  activeMemoryInitializers : List ℕ := []
  numImportedFunctions : ℕ := 0
  numImportedTables : ℕ := 0
  numImportedMemories : ℕ := 0
  numImportedGlobals : ℕ := 0
  numEscapedFunctions : ℕ := 0
  deriving DecidableEq, Repr

namespace TranslatedModule

/-! The validator's limits on the entities of a module, imported ones included. -/

def MAX_WASM_FUNCTIONS : ℕ := 1000000

def MAX_WASM_IMPORTS : ℕ := 1000000

def MAX_WASM_GLOBALS : ℕ := 1000000

def MAX_WASM_TABLES : ℕ := 100

def MAX_WASM_MEMORIES : ℕ := 100

variable (m : TranslatedModule)

def isImportedFunc (index : ℕ) : Bool := index < m.numImportedFunctions

def isImportedTable (index : ℕ) : Bool := index < m.numImportedTables

def isImportedMemory (index : ℕ) : Bool := index < m.numImportedMemories

def isImportedGlobal (index : ℕ) : Bool := index < m.numImportedGlobals

def definedFuncIndex (index : ℕ) : Option ℕ :=
  if m.isImportedFunc index then none else some (index - m.numImportedFunctions)

def definedTableIndex (index : ℕ) : Option ℕ :=
  if m.isImportedTable index then none else some (index - m.numImportedTables)

def definedMemoryIndex (index : ℕ) : Option ℕ :=
  if m.isImportedMemory index then none else some (index - m.numImportedMemories)

def definedGlobalIndex (index : ℕ) : Option ℕ :=
  if m.isImportedGlobal index then none else some (index - m.numImportedGlobals)

theorem definedFuncIndex_eq (index : ℕ) : m.definedFuncIndex index
    = if index < m.numImportedFunctions then none else some (index - m.numImportedFunctions) := by
  simp [definedFuncIndex, isImportedFunc]

theorem definedTableIndex_eq (index : ℕ) : m.definedTableIndex index
    = if index < m.numImportedTables then none else some (index - m.numImportedTables) := by
  simp [definedTableIndex, isImportedTable]

theorem definedMemoryIndex_eq (index : ℕ) : m.definedMemoryIndex index
    = if index < m.numImportedMemories then none else some (index - m.numImportedMemories) := by
  simp [definedMemoryIndex, isImportedMemory]

theorem definedGlobalIndex_eq (index : ℕ) : m.definedGlobalIndex index
    = if index < m.numImportedGlobals then none else some (index - m.numImportedGlobals) := by
  simp [definedGlobalIndex, isImportedGlobal]

def numTables : Except Fault ℕ := toU32 m.tables.length

def numMemories : Except Fault ℕ := toU32 m.memories.length

def numGlobals : Except Fault ℕ := toU32 m.globals.length

def numDefinedTables : Except Fault ℕ := do subOrPanic (← m.numTables) m.numImportedTables

def numDefinedMemories : Except Fault ℕ := do subOrPanic (← m.numMemories) m.numImportedMemories

def numDefinedGlobals : Except Fault ℕ := do subOrPanic (← m.numGlobals) m.numImportedGlobals

/-- The entities respect the validator's limits, and the imported ones are among them. -/
structure WithinLimits : Prop where
  escaped : m.numEscapedFunctions ≤ MAX_WASM_FUNCTIONS
  functions : m.functions.length ≤ MAX_WASM_FUNCTIONS
  tables : m.tables.length ≤ MAX_WASM_TABLES
  memories : m.memories.length ≤ MAX_WASM_MEMORIES
  globals : m.globals.length ≤ MAX_WASM_GLOBALS
  importedFunctions : m.numImportedFunctions ≤ m.functions.length
  importedTables : m.numImportedTables ≤ m.tables.length
  importedMemories : m.numImportedMemories ≤ m.memories.length
  importedGlobals : m.numImportedGlobals ≤ m.globals.length

end TranslatedModule

end K23VM
