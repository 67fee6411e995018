import K23VM.Translate.Module

/-!
# The layout of a vmctx

A `VMContext` starts with seven words that every instance has, and goes on with eight arrays, whose
lengths depend on the module: the `VMFuncRef`s of the functions that escape, the imported functions,
tables, memories and globals, and the tables, memories and globals that the module defines.  `VMOffsets`
has the offset of each array, and an accessor for the elements of each.

The sizes of the elements are those that `repr(C)` gives to the records on a 64-bit target.
-/

namespace K23VM

/-! ## Records -/

/-- The size and the alignment of a type. -/
structure Layout where
  size : ℕ
  align : ℕ
  deriving DecidableEq, Repr

namespace Layout

def u8x16 : Layout := ⟨16, 1⟩

def u32 : Layout := ⟨4, 4⟩

def u64 : Layout := ⟨8, 8⟩

/-- A pointer on a 64-bit target. -/
def pointer : Layout := ⟨8, 8⟩

def alignUp (n align : ℕ) : ℕ := (n + align - 1) / align * align

/-- The offset behind the fields, from the offset `n` on. -/
def fieldsEnd : ℕ → List Layout → ℕ
  | n, [] => n
  | n, field :: fields => fieldsEnd (alignUp n field.align + field.size) fields

/-- A `repr(C)` record, with an alignment of at least `align`. -/
def reprC (fields : List Layout) (align : ℕ) : Layout :=
  let align := fields.foldr (fun field a => max field.align a) align
  ⟨alignUp (fieldsEnd 0 fields) align, align⟩

/-- The offset of the field with the given fields before it. -/
def offsetOf (before : List Layout) (field : Layout) : ℕ :=
  alignUp (fieldsEnd 0 before) field.align

end Layout

structure VMFuncRef where
  arrayCall : ℕ
  wasmCall : ℕ
  vmctx : ℕ
  typeIndex : ℕ
  deriving DecidableEq, Repr

structure VMFunctionImport where
  wasmCall : ℕ
  arrayCall : ℕ
  vmctx : ℕ
  deriving DecidableEq, Repr

structure VMTableImport where
  from_ : ℕ
  vmctx : ℕ
  deriving DecidableEq, Repr

structure VMMemoryImport where
  from_ : ℕ
  vmctx : ℕ
  deriving DecidableEq, Repr

structure VMGlobalImport where
  from_ : ℕ
  vmctx : ℕ
  deriving DecidableEq, Repr

structure VMTableDefinition where
  base : ℕ
  currentLength : ℕ
  deriving DecidableEq, Repr

structure VMMemoryDefinition where
  base : ℕ
  currentLength : ℕ
  deriving DecidableEq, Repr

structure VMGlobalDefinition where
  /-- The sixteen bytes of the global as a number. -/
  data : ℕ
  deriving DecidableEq, Repr

def VMFuncRef.layout : Layout := .reprC [.pointer, .pointer, .pointer, .u32] 1

def VMFunctionImport.layout : Layout := .reprC [.pointer, .pointer, .pointer] 1

def VMTableImport.layout : Layout := .reprC [.pointer, .pointer] 1

def VMMemoryImport.layout : Layout := .reprC [.pointer, .pointer] 1

def VMGlobalImport.layout : Layout := .reprC [.pointer, .pointer] 1

def VMTableDefinition.layout : Layout := .reprC [.pointer, .u64] 1

def VMMemoryDefinition.layout : Layout := .reprC [.pointer, .u64] 1

def VMGlobalDefinition.layout : Layout := .reprC [.u8x16] 16

/-! ## Offsets -/

/-- The offsets in a vmctx that do not depend on the module. -/
structure StaticVMOffsets where
  ptrSize : ℕ
  deriving DecidableEq, Repr

namespace StaticVMOffsets

def vmctxMagic (_ : StaticVMOffsets) : ℕ := 0

def vmctxBuiltinFunctions (off : StaticVMOffsets) : ℕ := off.vmctxMagic + off.ptrSize

def vmctxTypeIds (off : StaticVMOffsets) : ℕ := off.vmctxBuiltinFunctions + off.ptrSize

def vmctxStackLimit (off : StaticVMOffsets) : ℕ := off.vmctxTypeIds + off.ptrSize

def vmctxLastWasmExitFp (off : StaticVMOffsets) : ℕ := off.vmctxStackLimit + off.ptrSize

def vmctxLastWasmExitPc (off : StaticVMOffsets) : ℕ := off.vmctxLastWasmExitFp + off.ptrSize

def vmctxLastWasmEntryFp (off : StaticVMOffsets) : ℕ := off.vmctxLastWasmExitPc + off.ptrSize

/-- The size of the part that does not depend on the module. -/
def size (off : StaticVMOffsets) : ℕ := off.vmctxLastWasmEntryFp + off.ptrSize

/-- The offset of `type_index` in a `VMFuncRef`, behind three pointers. -/
def vmFuncRefTypeIndex (off : StaticVMOffsets) : ℕ := 3 * off.ptrSize

def sizeOfVmsharedTypeIndex (_ : StaticVMOffsets) : ℕ := 4

end StaticVMOffsets

structure VMOffsets where
  numImportedFuncs : ℕ
  numImportedTables : ℕ
  numImportedMemories : ℕ
  numImportedGlobals : ℕ
  numDefinedTables : ℕ
  numDefinedMemories : ℕ
  numDefinedGlobals : ℕ
  numEscapedFuncs : ℕ
  static_ : StaticVMOffsets
  funcRefs : ℕ
  importedFunctions : ℕ
  importedTables : ℕ
  importedMemories : ℕ
  importedGlobals : ℕ
  tables : ℕ
  memories : ℕ
  globals : ℕ
  size : ℕ
  deriving DecidableEq, Repr

namespace VMOffsets

/-- The offset behind a member of `count` elements at `offset`. -/
def memberEnd (offset : ℕ) (layout : Layout) (count : ℕ) : Except Fault ℕ := do
  addU32OrPanic offset (← mulU32OrPanic layout.size count)

def forModule (ptrSize : ℕ) (module : TranslatedModule) : Except Fault VMOffsets := do
  let static_ : StaticVMOffsets := ⟨ptrSize⟩
  let numDefinedTables ← module.numDefinedTables
  let numDefinedMemories ← module.numDefinedMemories
  let numDefinedGlobals ← module.numDefinedGlobals
  let funcRefs := static_.size
  let importedFunctions ← memberEnd funcRefs VMFuncRef.layout module.numEscapedFunctions
  let importedTables ←
    memberEnd importedFunctions VMFunctionImport.layout module.numImportedFunctions
  let importedMemories ← memberEnd importedTables VMTableImport.layout module.numImportedTables
  let importedGlobals ← memberEnd importedMemories VMMemoryImport.layout module.numImportedMemories
  let tables ← memberEnd importedGlobals VMGlobalImport.layout module.numImportedGlobals
  let memories ← memberEnd tables VMTableDefinition.layout numDefinedTables
  let globals ← memberEnd memories VMMemoryDefinition.layout numDefinedMemories
  let size ← memberEnd globals VMGlobalDefinition.layout numDefinedGlobals
  pure
    { numImportedFuncs := module.numImportedFunctions
      numImportedTables := module.numImportedTables
      numImportedMemories := module.numImportedMemories
      numImportedGlobals := module.numImportedGlobals
      numDefinedTables, numDefinedMemories, numDefinedGlobals
      numEscapedFuncs := module.numEscapedFunctions
      static_, funcRefs, importedFunctions, importedTables, importedMemories, importedGlobals, tables
      memories, globals, size }

/-- The offset of the element `index` of an array of `count` elements at `begin_`; `num` names the
count. -/
def element (begin_ : ℕ) (layout : Layout) (num : String) (count index : ℕ) : Except Fault ℕ := do
  assertThat (index < count) ("assertion failed: index.as_u32() < self." ++ num)
  addU32OrPanic begin_ (← mulU32OrPanic index layout.size)

/-- The offset of a field of an element. -/
def field (element : Except Fault ℕ) (offset : ℕ) : Except Fault ℕ := do
  addU32OrPanic (← element) offset

section Accessors

variable (off : VMOffsets)

def vmctxVmfuncRef (index : ℕ) : Except Fault ℕ := do
  -- Non-escaping functions are marked using the reserved value.
  assertThat (index ≠ FUNC_REF_RESERVED) "assertion failed: !index.is_reserved_value()"
  element off.funcRefs VMFuncRef.layout "num_escaped_funcs" off.numEscapedFuncs index

def vmctxVmfuncRefArrayCall (index : ℕ) : Except Fault ℕ :=
  field (off.vmctxVmfuncRef index) (Layout.offsetOf [] .pointer)

def vmctxVmfuncRefWasmCall (index : ℕ) : Except Fault ℕ :=
  field (off.vmctxVmfuncRef index) (Layout.offsetOf [.pointer] .pointer)

def vmctxVmfuncRefVmctx (index : ℕ) : Except Fault ℕ :=
  field (off.vmctxVmfuncRef index) (Layout.offsetOf [.pointer, .pointer] .pointer)

def vmctxVmfuncRefTypeIndex (index : ℕ) : Except Fault ℕ :=
  field (off.vmctxVmfuncRef index) (Layout.offsetOf [.pointer, .pointer, .pointer] .u32)

def vmctxVmfunctionImport (index : ℕ) : Except Fault ℕ :=
  element off.importedFunctions VMFunctionImport.layout "num_imported_funcs" off.numImportedFuncs index

def vmctxVmfunctionImportWasmCall (index : ℕ) : Except Fault ℕ :=
  field (off.vmctxVmfunctionImport index) (Layout.offsetOf [] .pointer)

def vmctxVmfunctionImportArrayCall (index : ℕ) : Except Fault ℕ :=
  field (off.vmctxVmfunctionImport index) (Layout.offsetOf [.pointer] .pointer)

def vmctxVmfunctionImportVmctx (index : ℕ) : Except Fault ℕ :=
  field (off.vmctxVmfunctionImport index) (Layout.offsetOf [.pointer, .pointer] .pointer)

def vmctxVmtableImport (index : ℕ) : Except Fault ℕ :=
  element off.importedTables VMTableImport.layout "num_imported_tables" off.numImportedTables index

def vmctxVmtableImportFrom (index : ℕ) : Except Fault ℕ :=
  field (off.vmctxVmtableImport index) (Layout.offsetOf [] .pointer)

def vmctxVmtableImportVmctx (index : ℕ) : Except Fault ℕ :=
  field (off.vmctxVmtableImport index) (Layout.offsetOf [.pointer] .pointer)

def vmctxVmmemoryImport (index : ℕ) : Except Fault ℕ :=
  element off.importedMemories VMMemoryImport.layout "num_imported_memories" off.numImportedMemories index

def vmctxVmmemoryImportFrom (index : ℕ) : Except Fault ℕ :=
  field (off.vmctxVmmemoryImport index) (Layout.offsetOf [] .pointer)

def vmctxVmmemoryImportVmctx (index : ℕ) : Except Fault ℕ :=
  field (off.vmctxVmmemoryImport index) (Layout.offsetOf [.pointer] .pointer)

def vmctxVmglobalImport (index : ℕ) : Except Fault ℕ :=
  element off.importedGlobals VMGlobalImport.layout "num_imported_globals" off.numImportedGlobals index

def vmctxVmglobalImportFrom (index : ℕ) : Except Fault ℕ :=
  field (off.vmctxVmglobalImport index) (Layout.offsetOf [] .pointer)

def vmctxVmglobalImportVmctx (index : ℕ) : Except Fault ℕ :=
  field (off.vmctxVmglobalImport index) (Layout.offsetOf [.pointer] .pointer)

def vmctxVmtableDefinition (index : ℕ) : Except Fault ℕ :=
  element off.tables VMTableDefinition.layout "num_defined_tables" off.numDefinedTables index

def vmctxVmtableDefinitionBase (index : ℕ) : Except Fault ℕ :=
  field (off.vmctxVmtableDefinition index) (Layout.offsetOf [] .pointer)

def vmctxVmtableDefinitionCurrentLength (index : ℕ) : Except Fault ℕ :=
  field (off.vmctxVmtableDefinition index) (Layout.offsetOf [.pointer] .u64)

def vmctxVmmemoryDefinition (index : ℕ) : Except Fault ℕ :=
  element off.memories VMMemoryDefinition.layout "num_defined_memories" off.numDefinedMemories index

def vmctxVmmemoryDefinitionBase (index : ℕ) : Except Fault ℕ :=
  field (off.vmctxVmmemoryDefinition index) (Layout.offsetOf [] .pointer)

def vmctxVmmemoryDefinitionCurrentLength (index : ℕ) : Except Fault ℕ :=
  field (off.vmctxVmmemoryDefinition index) (Layout.offsetOf [.pointer] .u64)

def vmctxVmglobalDefinition (index : ℕ) : Except Fault ℕ :=
  element off.globals VMGlobalDefinition.layout "num_defined_globals" off.numDefinedGlobals index

end Accessors

end VMOffsets

end K23VM
