import K23VM.Errors
import K23VM.Translate.Wasmparser

/-!
# Sections as the parser gives them

The parser splits a binary into payloads, which are its sections and the bodies of its functions.  The
items of a section are read one by one, and each read may fail.
-/

namespace K23VM.Wasmparser

/-- The items of a section, as they are read. -/
abbrev SectionReader (α : Type) := List (Except BinaryReaderError α)

/-- The items that can be read. -/
def SectionReader.items {α : Type} : SectionReader α → List α
  | [] => []
  | .error _ :: xs => SectionReader.items xs
  | .ok x :: xs => x :: SectionReader.items xs

/-! ## Items -/

structure TableType where
  elementType : RefType
  table64 : Bool
  initial : ℕ
  maximum : Option ℕ
  shared : Bool
  deriving DecidableEq, Repr

structure GlobalType where
  contentType : ValType
  mutable : Bool
  shared : Bool
  deriving DecidableEq, Repr

inductive TypeRef where
  | func (index : ℕ)
  | table (ty : TableType)
  | memory (ty : WasmparserMemoryType)
  | global (ty : GlobalType)
  | tag
  deriving DecidableEq, Repr

def TypeRef.isFunc : TypeRef → Bool
  | .func _ => true
  | _ => false

def TypeRef.isTable : TypeRef → Bool
  | .table _ => true
  | _ => false

def TypeRef.isMemory : TypeRef → Bool
  | .memory _ => true
  | _ => false

def TypeRef.isGlobal : TypeRef → Bool
  | .global _ => true
  | _ => false

structure Import where
  module : String
  name : String
  ty : TypeRef
  deriving DecidableEq, Repr

/-- The operators that can occur in a constant expression; `other` is shown as the text of any other
operator. -/
inductive ConstOperator where
  | i32Const (value : ℤ)
  | i64Const (value : ℤ)
  | f32Const (bits : ℕ)
  | f64Const (bits : ℕ)
  | v128Const (bits : ℕ)
  | refNull
  | refFunc (functionIndex : ℕ)
  | globalGet (globalIndex : ℕ)
  | refI31
  | i32Add | i32Sub | i32Mul | i64Add | i64Sub | i64Mul
  | end_
  | other (text : String)
  deriving DecidableEq, Repr

/-- The operators of a constant expression with their offsets. -/
abbrev ConstExpr := SectionReader (ConstOperator × ℕ)

inductive TableInit where
  | refNull
  | expr (expr : ConstExpr)

structure Table where
  ty : TableType
  init : TableInit

structure Global where
  ty : GlobalType
  initExpr : ConstExpr

inductive ExternalKind where
  | func | table | memory | global | tag
  deriving DecidableEq, Repr

structure Export where
  name : String
  kind : ExternalKind
  index : ℕ
  deriving DecidableEq, Repr

inductive ElementItems where
  | functions (funcs : SectionReader ℕ)
  | expressions (exprs : SectionReader ConstExpr)

inductive ElementKind where
  | active (tableIndex : Option ℕ) (offsetExpr : ConstExpr)
  | passive
  | declared

structure Element where
  kind : ElementKind
  items : ElementItems

inductive DataKind where
  | active (memoryIndex : ℕ) (offsetExpr : ConstExpr)
  | passive

structure Data where
  kind : DataKind
  data : List UInt8

/-- The bytes of a function body, and what the validation of a module reads of it: the functions its
`ref.func` operators name. -/
structure FunctionBody where
  bytes : List UInt8
  refFuncs : List ℕ
  deriving DecidableEq, Repr

/-! ## Custom sections -/

/-- A subsection of the name section.  The names go to the debug information, apart from the name of
the module. -/
inductive Name where
  | module (name : String)
  | direct (names : SectionReader Unit)
  | indirect (names : SectionReader (SectionReader Unit))
  | unknown

/-- A field of another name is an error of the reader. -/
structure ProducersField where
  name : String
  values : SectionReader Unit
  known : name = "language" ∨ name = "processed-by" ∨ name = "sdk"

/-- A custom section, by its name. -/
inductive CustomSection where
  | targetFeatures (data : List UInt8)
  | name (subsections : SectionReader Name)
  | producers (fields : Except BinaryReaderError (SectionReader ProducersField))
  | other (name : String) (data : List UInt8)

/-! ## Payloads -/

inductive Payload where
  | version
  | typeSection (count : ℕ)
  | importSection (imports : SectionReader Import)
  | functionSection (functions : SectionReader ℕ)
  | tableSection (tables : SectionReader Table)
  | memorySection (memories : SectionReader WasmparserMemoryType)
  | tagSection
  | globalSection (globals : SectionReader Global)
  | exportSection (exports : SectionReader Export)
  | startSection (func : ℕ)
  | elementSection (elements : SectionReader Element)
  | dataCountSection (count : ℕ)
  | dataSection (data : SectionReader Data)
  | codeSectionStart (count : ℕ)
  | codeSectionEntry (body : FunctionBody)
  | customSection (contents : CustomSection)
  | end_
  /-- The sections of the component model. -/
  | component
  | unknown

/-- Whether `translate_payload` hands the payload to the validator. -/
def Payload.isValidated : Payload → Bool
  | .customSection _ | .component | .unknown => false
  | _ => true

/-- A validator with states of type `σ`: `validate` is the call that is made for a payload, and `types`
the types of the module at the outermost level. -/
structure Validator (σ : Type) where
  new : σ
  id : σ → ℕ
  types : σ → Option ValidatorTypes
  validate : Payload → σ → Except BinaryReaderError Unit × σ
  reset : σ → σ

end K23VM.Wasmparser
