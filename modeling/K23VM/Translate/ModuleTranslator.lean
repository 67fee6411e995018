import K23VM.Translate.ModuleTypes
import K23VM.Translate.Payload
import K23VM.Translate.TargetFeatures

/-!
# Translating a module

The payloads of a binary are validated and translated one after the other.  Functions that can become
values, or be called from outside, are flagged as they are met and are numbered in that order.

The validator is a parameter.  Its state is passed on explicitly, since it outlives a translation that
fails.  Names and other debug information are not modelled.
-/

namespace K23VM

open Wasmparser (BinaryReaderError SectionReader Payload Validator ValidatorTypes)

/-! ## Constant expressions -/

def ConstOp.fromWasmparser (op : Wasmparser.ConstOperator) (offset : ℕ) : Except Error ConstOp :=
  let unsupported (text : String) : Except Error ConstOp :=
    .error (.unsupported ("unsupported opcode in const expression at offset 0x"
      ++ String.ofList (Nat.toDigits 16 offset) ++ ": " ++ text))
  match op with
  | .i32Const value => .ok (.i32Const value)
  | .i64Const value => .ok (.i64Const value)
  | .f32Const bits => .ok (.f32Const bits)
  | .f64Const bits => .ok (.f64Const bits)
  | .v128Const bits => .ok (.v128Const bits)
  | .refNull => .ok .refNull
  | .refFunc functionIndex => .ok (.refFunc functionIndex)
  | .globalGet globalIndex => .ok (.globalGet globalIndex)
  | .refI31 => .ok .refI31
  | .i32Add => .ok .i32Add
  | .i32Sub => .ok .i32Sub
  | .i32Mul => .ok .i32Mul
  | .i64Add => .ok .i64Add
  | .i64Sub => .ok .i64Sub
  | .i64Mul => .ok .i64Mul
  | .end_ => unsupported "End"
  | .other text => unsupported text

/-- The expression up to an `end` that nothing follows, and the functions its `ref.func` operators
name. -/
def ConstExpr.fromWasmparser : Wasmparser.ConstExpr → Except Error (ConstExpr × List ℕ)
  | [] => .ok (⟨[]⟩, [])
  | .error e :: _ => .error (.invalidWebAssembly e)
  | .ok (op, offset) :: iter =>
    if op = .end_ ∧ iter.isEmpty then .ok (⟨[]⟩, [])
    else do
      let constOp ← ConstOp.fromWasmparser op offset
      let (expr, escaped) ← fromWasmparser iter
      pure (⟨constOp :: expr.ops⟩,
        match op with
        | .refFunc functionIndex => functionIndex :: escaped
        | _ => escaped)

/-! ## Sections -/

structure ModuleTranslator where
  module : TranslatedModule
  functionBodies : List Wasmparser.FunctionBody
  types : ModuleTypesBuilder

/-- Translate the items of a section one after the other. -/
def forItems {τ α : Type} (f : τ → α → Fallible Error τ) : τ → SectionReader α → Fallible Error τ
  | t, [] => pure t
  | _, .error e :: _ => throw (.invalidWebAssembly e)
  | t, .ok x :: xs => do forItems f (← f t x) xs

namespace ModuleTranslator

def new (validatorId : ℕ) : ModuleTranslator := ⟨{}, [], ⟨validatorId, ⟨[], []⟩, [], [], none⟩⟩

def flagFuncAsEscaped (t : ModuleTranslator) (funcIndex : ℕ) : Except Fault ModuleTranslator := do
  let ty ← unwrap "index out of bounds" t.module.functions[funcIndex]?
  if ty.isEscaping then
    pure t
  else
    let index := t.module.numEscapedFunctions
    let functions := t.module.functions.set funcIndex { ty with funcRef := index }
    let numEscapedFunctions ← addU32OrPanic index 1
    pure { t with module := { t.module with functions, numEscapedFunctions } }

def flagEscaped (t : ModuleTranslator) (escaped : List ℕ) : Except Fault ModuleTranslator :=
  escaped.foldlM flagFuncAsEscaped t

def tyConvert (t : ModuleTranslator) : WasmparserTypeConverter :=
  ⟨t.types.seenTypes, t.types.types.wasmTypes, t.module.types⟩

def tableDesc (t : ModuleTranslator) (ty : Wasmparser.TableType) : Except Fault TableDesc := do
  pure ⟨← t.tyConvert.convertRefType ty.elementType, ty.table64, ty.initial, ty.maximum, ty.shared⟩

def globalDesc (t : ModuleTranslator) (ty : Wasmparser.GlobalType) : Except Fault GlobalDesc := do
  pure ⟨← t.tyConvert.convertValType ty.contentType, ty.mutable, ty.shared⟩

def translateTypes (debug : Bool) (types : Option ValidatorTypes) (t : ModuleTranslator)
    (count : ℕ) : Except Fault ModuleTranslator := do
  if count = 0 then
    pure t
  else
    let v ← unwrap "called `Option::unwrap()` on a `None` value" types
    let (types, moduleTypes) ← translateRecGroups debug v count t.types t.module.types 0
    pure { t with types, module := { t.module with types := moduleTypes } }

/-- The entity that an import declares is added to the module before the import itself. -/
def importEntity (t : ModuleTranslator) :
    Wasmparser.TypeRef → Except Fault (TranslatedModule × EntityType)
  | .func index => do
    let numImportedFunctions ← addU32OrPanic t.module.numImportedFunctions 1
    let interned ← unwrap "index out of bounds" t.module.types[index]?
    let functions := t.module.functions ++ [⟨index, FUNC_REF_RESERVED⟩]
    pure ({ t.module with numImportedFunctions, functions }, .function (.module interned))
  | .table ty => do
    let numImportedTables ← addU32OrPanic t.module.numImportedTables 1
    let table ← t.tableDesc ty
    pure ({ t.module with numImportedTables, tables := t.module.tables ++ [table] }, .table table)
  | .memory ty => do
    let numImportedMemories ← addU32OrPanic t.module.numImportedMemories 1
    let memory ← MemoryDesc.fromWasmparser ty
    pure ({ t.module with numImportedMemories, memories := t.module.memories ++ [memory] },
      .memory memory)
  | .global ty => do
    let numImportedGlobals ← addU32OrPanic t.module.numImportedGlobals 1
    let global ← t.globalDesc ty
    pure ({ t.module with numImportedGlobals, globals := t.module.globals ++ [global] },
      .global global)
  -- Doesn't get past validation.
  | .tag => panicking "internal error: entered unreachable code"

def translateImport (t : ModuleTranslator) (import_ : Wasmparser.Import) :
    Fallible Error ModuleTranslator := do
  let (module, ty) ← t.importEntity import_.ty
  pure { t with module :=
    { module with imports := module.imports ++ [⟨import_.module, import_.name, ty⟩] } }

def translateFunction (t : ModuleTranslator) (index : ℕ) : Fallible Error ModuleTranslator :=
  pure { t with module :=
    { t.module with functions := t.module.functions ++ [⟨index, FUNC_REF_RESERVED⟩] } }

def pushInitialValue (t : ModuleTranslator) (init : TableInitialValue) : ModuleTranslator :=
  { t with module := { t.module with tableInitializers :=
    { t.module.tableInitializers with
      initialValues := t.module.tableInitializers.initialValues ++ [init] } } }

def translateTable (t : ModuleTranslator) (table : Wasmparser.Table) :
    Fallible Error ModuleTranslator := do
  let plan ← t.tableDesc table.ty
  let t := { t with module := { t.module with tables := t.module.tables ++ [plan] } }
  match table.init with
  | .refNull => pure (t.pushInitialValue .refNull)
  | .expr expr =>
    let (expr, escaped) ← ConstExpr.fromWasmparser expr
    let t ← t.flagEscaped escaped
    pure (t.pushInitialValue (.constExpr expr))

def translateMemory (t : ModuleTranslator) (ty : WasmparserMemoryType) :
    Fallible Error ModuleTranslator := do
  let memory ← MemoryDesc.fromWasmparser ty
  pure { t with module := { t.module with memories := t.module.memories ++ [memory] } }

def translateGlobal (t : ModuleTranslator) (global : Wasmparser.Global) :
    Fallible Error ModuleTranslator := do
  let desc ← t.globalDesc global.ty
  let t := { t with module := { t.module with globals := t.module.globals ++ [desc] } }
  let (initExpr, escaped) ← ConstExpr.fromWasmparser global.initExpr
  let t ← t.flagEscaped escaped
  pure { t with module :=
    { t.module with globalInitializers := t.module.globalInitializers ++ [initExpr] } }

/-- `IndexMap::insert`: an entry keeps its place. -/
def insertExport (name : String) (index : EntityIndex) :
    List (String × EntityIndex) → List (String × EntityIndex)
  | [] => [(name, index)]
  | e :: es => if e.1 = name then (name, index) :: es else e :: insertExport name index es

/-- The index that is exported; an exported function is flagged. -/
def exportIndex (t : ModuleTranslator) (export_ : Wasmparser.Export) :
    Except Fault (ModuleTranslator × EntityIndex) :=
  match export_.kind with
  | .func => do pure (← t.flagFuncAsEscaped export_.index, .function export_.index)
  | .table => pure (t, .table export_.index)
  | .memory => pure (t, .memory export_.index)
  | .global => pure (t, .global export_.index)
  | .tag => pure (t, .tag export_.index)

def translateExport (t : ModuleTranslator) (export_ : Wasmparser.Export) :
    Fallible Error ModuleTranslator := do
  let (t, index) ← t.exportIndex export_
  pure { t with module :=
    { t.module with exports := insertExport export_.name index t.module.exports } }

/-- The items of an element segment; the functions of a list of expressions are flagged. -/
def translateElementItems (t : ModuleTranslator) :
    Wasmparser.ElementItems → Fallible Error (ModuleTranslator × TableSegmentElements)
  | .functions funcs => do
    let out ← forItems (fun out func => pure (out ++ [func])) [] funcs
    pure (t, .functions out)
  | .expressions exprs => do
    let (t, out) ← forItems (fun (t, out) expr => do
      let (expr, escaped) ← ConstExpr.fromWasmparser expr
      let t ← t.flagEscaped escaped
      pure (t, out ++ [expr])) (t, []) exprs
    pure (t, .expressions out)

def translateElement (debug : Bool) (t : ModuleTranslator) (elemIndex : ℕ)
    (element : Wasmparser.Element) : Fallible Error ModuleTranslator := do
  let elemIndex ← toU32 elemIndex
  let (t, elements) ← t.translateElementItems element.items
  match element.kind with
  | .active tableIndex offsetExpr =>
    let (offset, escaped) ← ConstExpr.fromWasmparser offsetExpr
    debugAssert debug escaped.isEmpty "assertion failed: escaped.is_empty()"
    pure { t with module := { t.module with
      tableInitializers := { t.module.tableInitializers with
        segments := t.module.tableInitializers.segments ++ [⟨tableIndex.getD 0, offset, elements⟩] }
      activeTableInitializers := t.module.activeTableInitializers ++ [elemIndex] } }
  | .passive =>
    pure { t with module := { t.module with
      passiveTableInitializers := t.module.passiveTableInitializers ++ [(elemIndex, elements)] } }
  | .declared => pure t

def translateElementSection (debug : Bool) (t : ModuleTranslator)
    (elements : SectionReader Wasmparser.Element) : Fallible Error ModuleTranslator := do
  let (t, _) ← forItems (fun (t, elemIndex) element => do
    pure (← translateElement debug t elemIndex element, elemIndex + 1)) (t, 0) elements
  pure t

def translateData (debug : Bool) (t : ModuleTranslator) (dataIndex : ℕ) (entry : Wasmparser.Data) :
    Fallible Error ModuleTranslator := do
  let dataIndex ← toU32 dataIndex
  match entry.kind with
  | .active memoryIndex offsetExpr =>
    let (offset, escaped) ← ConstExpr.fromWasmparser offsetExpr
    debugAssert debug escaped.isEmpty "assertion failed: escaped.is_empty()"
    pure { t with module := { t.module with
      memoryInitializers := t.module.memoryInitializers ++ [⟨memoryIndex, offset, entry.data⟩]
      activeMemoryInitializers := t.module.activeMemoryInitializers ++ [dataIndex] } }
  | .passive =>
    pure { t with module := { t.module with
      passiveMemoryInitializers :=
        t.module.passiveMemoryInitializers ++ [(dataIndex, entry.data)] } }

def translateDataSection (debug : Bool) (t : ModuleTranslator)
    (data : SectionReader Wasmparser.Data) : Fallible Error ModuleTranslator := do
  let (t, _) ← forItems (fun (t, dataIndex) entry => do
    pure (← translateData debug t dataIndex entry, dataIndex + 1)) (t, 0) data
  pure t

def translateName (t : ModuleTranslator) : Wasmparser.Name → Fallible Error ModuleTranslator
  | .module name => pure { t with module := { t.module with name := some name } }
  | .direct names => forItems (fun t _ => pure t) t names
  | .indirect names => forItems (fun t names => forItems (fun t _ => pure t) t names) t names
  | .unknown => pure t

def translateProducersField (t : ModuleTranslator) (field : Wasmparser.ProducersField) :
    Fallible Error ModuleTranslator :=
  if field.name = "language" ∨ field.name = "processed-by" ∨ field.name = "sdk" then
    forItems (fun t _ => pure t) t field.values
  else
    (panicking "internal error: entered unreachable code" : Except Fault ModuleTranslator)

def translateCustomSection (t : ModuleTranslator) :
    Wasmparser.CustomSection → Fallible Error ModuleTranslator
  | .targetFeatures data => do
    -- The features are only reported.
    let _ ← parseTargetFeatureSection data
    pure t
  | .name subsections => forItems translateName t subsections
  | .producers (.ok fields) => forItems translateProducersField t fields
  | .producers (.error e) => throw (.invalidWebAssembly e)
  | .other _ _ => pure t

/-- What is done with a payload that the validator accepted, if it was handed to it; `types` is what
the validator then knows of the module's types. -/
def translateSection (debug : Bool) (types : Option ValidatorTypes) (t : ModuleTranslator) :
    Payload → Fallible Error ModuleTranslator
  | .version | .dataCountSection _ | .codeSectionStart _ | .end_ | .unknown => pure t
  | .typeSection count => t.translateTypes debug types count
  | .importSection imports => forItems translateImport t imports
  | .functionSection functions => forItems translateFunction t functions
  | .tableSection tables => forItems translateTable t tables
  | .memorySection memories => forItems translateMemory t memories
  | .tagSection => throw (.unsupported "exception handling")
  | .globalSection globals => forItems translateGlobal t globals
  | .exportSection exports => forItems translateExport t exports
  | .startSection func => pure { t with module := { t.module with start := some func } }
  | .elementSection elements => t.translateElementSection debug elements
  | .dataSection data => t.translateDataSection debug data
  | .codeSectionEntry body => pure { t with functionBodies := t.functionBodies ++ [body] }
  | .customSection contents => t.translateCustomSection contents
  | .component => throw (.unsupported "component model is unsupported")

/-! ## Whole modules -/

section Translate

variable {σ : Type} (V : Validator σ) (debug : Bool)

/-- The validator's answer to a payload, and its state after it. -/
def accept (p : Payload) (v : σ) : Except BinaryReaderError Unit × σ :=
  if p.isValidated then V.validate p v else (.ok (), v)

def translatePayload (v : σ) (t : ModuleTranslator) (p : Payload) :
    Except Fault (Except Error ModuleTranslator × σ) :=
  match accept V p v with
  | (.error e, v) => pure (.error (.invalidWebAssembly e), v)
  | (.ok (), v) => do
    let r ← (translateSection debug (V.types v) t p).run
    pure (r, v)

def translatePayloads : σ → ModuleTranslator → List (Except BinaryReaderError Payload) →
    Except Fault (Except Error ModuleTranslator × σ)
  | v, t, [] => pure (.ok t, v)
  | v, _, .error e :: _ => pure (.error (.invalidWebAssembly e), v)
  | v, t, .ok p :: payloads => do
    match ← translatePayload V debug v t p with
    | (.error e, v) => pure (.error e, v)
    | (.ok t, v) => translatePayloads v t payloads

/-- Translate the payloads of a binary.  The validator is reset at the end, and only there. -/
def translate (v : σ) (payloads : List (Except BinaryReaderError Payload)) :
    Except Fault (Except Error (ModuleTranslator × ModuleTypes) × σ) := do
  match ← translatePayloads V debug v (.new (V.id v)) payloads with
  | (.error e, v) => pure (.error e, v)
  | (.ok t, v) =>
    let v := V.reset v
    debugAssert debug (t.module.numImportedTables ≤ t.module.tables.length)
      "assertion failed: num_tables() >= num_imported_tables"
    debugAssert debug (t.module.numImportedMemories ≤ t.module.memories.length)
      "assertion failed: num_memories() >= num_imported_memories"
    debugAssert debug (t.module.numImportedGlobals ≤ t.module.globals.length)
      "assertion failed: num_globals() >= num_imported_globals"
    pure (.ok (t, t.types.types), v)

/-- The validator after the binaries have been translated with it one after the other, whether they
could be or not; `parse` splits a binary into its payloads. -/
def validatorAfter (parse : List UInt8 → List (Except BinaryReaderError Payload)) (v : σ) :
    List (List UInt8) → Except Fault σ
  | [] => pure v
  | data :: history => do
    let (_, v) ← translate V debug v (parse data)
    validatorAfter parse v history

end Translate

end ModuleTranslator

end K23VM
