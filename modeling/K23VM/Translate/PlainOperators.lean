import K23VM.Translate.FuncValidator
import K23VM.Translate.Payload

/-!
# Plain operators

The operators that take operands from the stack and put results on it, in the groups that the translator
has them in, and the types of the operands and results.
-/

namespace K23VM.Wasmparser

/-! ## Numbers -/

inductive IntType where
  | i32 | i64
  deriving DecidableEq, Repr

inductive FloatType where
  | f32 | f64
  deriving DecidableEq, Repr

def IntType.valType : IntType → ValType
  | .i32 => .i32
  | .i64 => .i64

def FloatType.valType : FloatType → ValType
  | .f32 => .f32
  | .f64 => .f64

inductive IntBinary where
  | add | sub | mul | divS | divU | remS | remU | and | or | xor | shl | shrS | shrU | rotl | rotr
  deriving DecidableEq, Repr

inductive IntUnary where
  | clz | ctz | popcnt
  deriving DecidableEq, Repr

inductive IntComparison where
  | eq | ne | ltS | ltU | gtS | gtU | leS | leU | geS | geU
  deriving DecidableEq, Repr

inductive FloatBinary where
  | add | sub | mul | div | min | max | copysign
  deriving DecidableEq, Repr

inductive FloatUnary where
  | abs | neg | ceil | floor | trunc | nearest | sqrt
  deriving DecidableEq, Repr

inductive FloatComparison where
  | eq | ne | lt | gt | le | ge
  deriving DecidableEq, Repr

inductive Conversion where
  | i32WrapI64
  | i64ExtendI32 (signed : Bool)
  /-- With `saturating`, `TruncSat`. -/
  | trunc (result : IntType) (arg : FloatType) (signed saturating : Bool)
  | f32DemoteF64
  | f64PromoteF32
  | convert (result : FloatType) (arg : IntType) (signed : Bool)
  | i32ReinterpretF32 | i64ReinterpretF64 | f32ReinterpretI32 | f64ReinterpretI64
  deriving DecidableEq, Repr

def Conversion.argType : Conversion → ValType
  | .i32WrapI64 => .i64
  | .i64ExtendI32 _ => .i32
  | .trunc _ arg _ _ => arg.valType
  | .f32DemoteF64 => .f64
  | .f64PromoteF32 => .f32
  | .convert _ arg _ => arg.valType
  | .i32ReinterpretF32 => .f32
  | .i64ReinterpretF64 => .f64
  | .f32ReinterpretI32 => .i32
  | .f64ReinterpretI64 => .i64

def Conversion.resultType : Conversion → ValType
  | .i32WrapI64 => .i32
  | .i64ExtendI32 _ => .i64
  | .trunc result _ _ _ => result.valType
  | .f32DemoteF64 => .f32
  | .f64PromoteF32 => .f64
  | .convert result _ _ => result.valType
  | .i32ReinterpretF32 => .i32
  | .i64ReinterpretF64 => .i64
  | .f32ReinterpretI32 => .f32
  | .f64ReinterpretI64 => .f64

inductive SignExtension where
  | i32Extend8S | i32Extend16S | i64Extend8S | i64Extend16S | i64Extend32S
  deriving DecidableEq, Repr

def SignExtension.type : SignExtension → IntType
  | .i32Extend8S | .i32Extend16S => .i32
  | .i64Extend8S | .i64Extend16S | .i64Extend32S => .i64

/-! ## Memory -/

/-- The immediate of a load or a store. -/
structure MemArg where
  offset : ℕ
  memory : ℕ
  deriving DecidableEq, Repr

inductive Load where
  | i32Load8U | i32Load16U | i32Load8S | i32Load16S
  | i64Load8U | i64Load16U | i64Load8S | i64Load16S | i64Load32S | i64Load32U
  | i32Load | f32Load | i64Load | f64Load | v128Load
  deriving DecidableEq, Repr

def Load.type : Load → ValType
  | .i32Load8U | .i32Load16U | .i32Load8S | .i32Load16S | .i32Load => .i32
  | .i64Load8U | .i64Load16U | .i64Load8S | .i64Load16S | .i64Load32S | .i64Load32U | .i64Load => .i64
  | .f32Load => .f32
  | .f64Load => .f64
  | .v128Load => .v128

inductive Store where
  | i32Store | i64Store | f32Store | f64Store
  | i32Store8 | i64Store8 | i32Store16 | i64Store16 | i64Store32
  deriving DecidableEq, Repr

def Store.type : Store → ValType
  | .i32Store | .i32Store8 | .i32Store16 => .i32
  | .i64Store | .i64Store8 | .i64Store16 | .i64Store32 => .i64
  | .f32Store => .f32
  | .f64Store => .f64

/-- The accesses of the atomic operators, by the type of the values and the size in memory. -/
inductive AtomicAccess where
  | i32 | i32As8 | i32As16 | i64 | i64As8 | i64As16 | i64As32
  deriving DecidableEq, Repr

def AtomicAccess.type : AtomicAccess → ValType
  | .i32 | .i32As8 | .i32As16 => .i32
  | .i64 | .i64As8 | .i64As16 | .i64As32 => .i64

inductive AtomicRmwOp where
  | add | sub | and | or | xor | xchg
  deriving DecidableEq, Repr

/-- The operators that are left to the runtime, on memories and tables, on data and element segments, and
on references. -/
inductive RuntimeOperator where
  | memoryGrow (mem : ℕ)
  | memorySize (mem : ℕ)
  | memoryInit (dataIndex mem : ℕ)
  | memoryCopy (dstMem srcMem : ℕ)
  | memoryFill (mem : ℕ)
  | dataDrop (dataIndex : ℕ)
  | tableFill (table : ℕ)
  | tableGet (table : ℕ)
  | tableSet (table : ℕ)
  | tableGrow (table : ℕ)
  | tableSize (table : ℕ)
  | tableInit (elemIndex table : ℕ)
  | tableCopy (dstTable srcTable : ℕ)
  | elemDrop (elemIndex : ℕ)
  | refFunc (functionIndex : ℕ)
  | refI31
  | i31GetS
  | i31GetU
  deriving DecidableEq, Repr

/-! ## Vectors -/

/-- What the lanes of a vector are. -/
inductive Lanes where
  | i8x16 | i16x8 | i32x4 | i64x2 | f32x4 | f64x2
  deriving DecidableEq, Repr

/-- The type of a single lane on the stack. -/
def Lanes.valType : Lanes → ValType
  | .i8x16 | .i16x8 | .i32x4 => .i32
  | .i64x2 => .i64
  | .f32x4 => .f32
  | .f64x2 => .f64

/-- The bits of memory that become a lane. -/
inductive LaneSize where
  | bits8 | bits16 | bits32 | bits64
  deriving DecidableEq, Repr

/-- The loads of half a vector, whose lanes are extended. -/
inductive LoadExtend where
  | v128Load8x8S | v128Load8x8U | v128Load16x4S | v128Load16x4U | v128Load32x2S | v128Load32x2U
  deriving DecidableEq, Repr

inductive LoadZero where
  | v128Load32Zero | v128Load64Zero
  deriving DecidableEq, Repr

inductive ExtractLane where
  | i8x16ExtractLaneS | i8x16ExtractLaneU | i16x8ExtractLaneS | i16x8ExtractLaneU
  | i32x4ExtractLane | i64x2ExtractLane | f32x4ExtractLane | f64x2ExtractLane
  deriving DecidableEq, Repr

def ExtractLane.lanes : ExtractLane → Lanes
  | .i8x16ExtractLaneS | .i8x16ExtractLaneU => .i8x16
  | .i16x8ExtractLaneS | .i16x8ExtractLaneU => .i16x8
  | .i32x4ExtractLane => .i32x4
  | .i64x2ExtractLane => .i64x2
  | .f32x4ExtractLane => .f32x4
  | .f64x2ExtractLane => .f64x2

/-- One vector of the same lanes as the argument. -/
inductive VectorUnary where
  | i8x16Neg | i16x8Neg | i32x4Neg | i64x2Neg
  | i8x16Abs | i16x8Abs | i32x4Abs | i64x2Abs
  | i8x16Popcnt
  | f32x4Sqrt | f64x2Sqrt | f32x4Neg | f64x2Neg | f32x4Abs | f64x2Abs
  | f32x4Ceil | f64x2Ceil | f32x4Floor | f64x2Floor | f32x4Trunc | f64x2Trunc
  | f32x4Nearest | f64x2Nearest
  deriving DecidableEq, Repr

/-- One vector of the same lanes as both arguments. -/
inductive VectorBinary where
  | i8x16Shuffle (lanes : List ℕ) | i8x16Swizzle | i8x16RelaxedSwizzle
  | i8x16Add | i16x8Add | i32x4Add | i64x2Add
  | i8x16AddSatS | i16x8AddSatS | i8x16AddSatU | i16x8AddSatU
  | i8x16Sub | i16x8Sub | i32x4Sub | i64x2Sub
  | i8x16SubSatS | i16x8SubSatS | i8x16SubSatU | i16x8SubSatU
  | i8x16MinS | i16x8MinS | i32x4MinS | i8x16MinU | i16x8MinU | i32x4MinU
  | i8x16MaxS | i16x8MaxS | i32x4MaxS | i8x16MaxU | i16x8MaxU | i32x4MaxU
  | i8x16AvgrU | i16x8AvgrU
  | i16x8Mul | i32x4Mul | i64x2Mul
  | i16x8Q15MulrSatS | i16x8RelaxedQ15mulrS
  | v128Or | v128Xor | v128And | v128AndNot
  | f32x4Add | f64x2Add | f32x4Sub | f64x2Sub | f32x4Mul | f64x2Mul | f32x4Div | f64x2Div
  | f32x4Max | f64x2Max | f32x4Min | f64x2Min | f32x4PMax | f64x2PMax | f32x4PMin | f64x2PMin
  | f32x4RelaxedMax | f64x2RelaxedMax | f32x4RelaxedMin | f64x2RelaxedMin
  deriving DecidableEq, Repr

/-- One vector of the same lanes as the three arguments. -/
inductive VectorTernary where
  | v128Bitselect
  | f32x4RelaxedMadd | f64x2RelaxedMadd | f32x4RelaxedNmadd | f64x2RelaxedNmadd
  | i8x16RelaxedLaneselect | i16x8RelaxedLaneselect | i32x4RelaxedLaneselect | i64x2RelaxedLaneselect
  deriving DecidableEq, Repr

inductive VectorShift where
  | i8x16Shl | i16x8Shl | i32x4Shl | i64x2Shl
  | i8x16ShrU | i16x8ShrU | i32x4ShrU | i64x2ShrU
  | i8x16ShrS | i16x8ShrS | i32x4ShrS | i64x2ShrS
  deriving DecidableEq, Repr

/-- A number from a vector. -/
inductive VectorTest where
  | v128AnyTrue
  | i8x16AllTrue | i16x8AllTrue | i32x4AllTrue | i64x2AllTrue
  | i8x16Bitmask | i16x8Bitmask | i32x4Bitmask | i64x2Bitmask
  deriving DecidableEq, Repr

inductive VectorComparison where
  | i8x16Eq | i16x8Eq | i32x4Eq | i64x2Eq | i8x16Ne | i16x8Ne | i32x4Ne | i64x2Ne
  | i8x16GtS | i16x8GtS | i32x4GtS | i64x2GtS | i8x16LtS | i16x8LtS | i32x4LtS | i64x2LtS
  | i8x16GtU | i16x8GtU | i32x4GtU | i8x16LtU | i16x8LtU | i32x4LtU
  | i8x16GeS | i16x8GeS | i32x4GeS | i64x2GeS | i8x16LeS | i16x8LeS | i32x4LeS | i64x2LeS
  | i8x16GeU | i16x8GeU | i32x4GeU | i8x16LeU | i16x8LeU | i32x4LeU
  | f32x4Eq | f64x2Eq | f32x4Ne | f64x2Ne | f32x4Lt | f64x2Lt | f32x4Gt | f64x2Gt
  | f32x4Le | f64x2Le | f32x4Ge | f64x2Ge
  deriving DecidableEq, Repr

/-- One vector of other lanes than the argument. -/
inductive VectorConversion where
  | f32x4ConvertI32x4S | f32x4ConvertI32x4U
  | f64x2ConvertLowI32x4S | f64x2ConvertLowI32x4U
  | f64x2PromoteLowF32x4 | f32x4DemoteF64x2Zero
  | i32x4TruncSatF32x4S | i32x4TruncSatF32x4U | i32x4TruncSatF64x2SZero | i32x4TruncSatF64x2UZero
  | i32x4RelaxedTruncF32x4S | i32x4RelaxedTruncF32x4U
  | i32x4RelaxedTruncF64x2SZero | i32x4RelaxedTruncF64x2UZero
  | i16x8ExtendLowI8x16S | i16x8ExtendHighI8x16S | i16x8ExtendLowI8x16U | i16x8ExtendHighI8x16U
  | i32x4ExtendLowI16x8S | i32x4ExtendHighI16x8S | i32x4ExtendLowI16x8U | i32x4ExtendHighI16x8U
  | i64x2ExtendLowI32x4S | i64x2ExtendHighI32x4S | i64x2ExtendLowI32x4U | i64x2ExtendHighI32x4U
  | i16x8ExtAddPairwiseI8x16S | i32x4ExtAddPairwiseI16x8S
  | i16x8ExtAddPairwiseI8x16U | i32x4ExtAddPairwiseI16x8U
  deriving DecidableEq, Repr

/-- One vector of other lanes than both arguments. -/
inductive VectorCombination where
  | i8x16NarrowI16x8S | i16x8NarrowI32x4S | i8x16NarrowI16x8U | i16x8NarrowI32x4U
  | i32x4DotI16x8S | i16x8RelaxedDotI8x16I7x16S
  | i16x8ExtMulLowI8x16S | i16x8ExtMulHighI8x16S | i16x8ExtMulLowI8x16U | i16x8ExtMulHighI8x16U
  | i32x4ExtMulLowI16x8S | i32x4ExtMulHighI16x8S | i32x4ExtMulLowI16x8U | i32x4ExtMulHighI16x8U
  | i64x2ExtMulLowI32x4S | i64x2ExtMulHighI32x4S | i64x2ExtMulLowI32x4U | i64x2ExtMulHighI32x4U
  deriving DecidableEq, Repr

/-! ## Operators -/

/-- The plain operators of a function body.  The bits of a float or a vector are a natural number. -/
inductive PlainOperator where
  | i32Const (value : ℤ)
  | i64Const (value : ℤ)
  | f32Const (bits : ℕ)
  | f64Const (bits : ℕ)
  | v128Const (bits : ℕ)
  | intBinary (ty : IntType) (op : IntBinary)
  | intUnary (ty : IntType) (op : IntUnary)
  | intEqz (ty : IntType)
  | intComparison (ty : IntType) (op : IntComparison)
  | floatBinary (ty : FloatType) (op : FloatBinary)
  | floatUnary (ty : FloatType) (op : FloatUnary)
  | floatComparison (ty : FloatType) (op : FloatComparison)
  | conversion (op : Conversion)
  | signExtension (op : SignExtension)
  | globalGet (globalIndex : ℕ)
  | globalSet (globalIndex : ℕ)
  | refNull (hty : HeapType)
  | load (op : Load) (memarg : MemArg)
  | store (op : Store) (memarg : MemArg)
  | runtime (op : RuntimeOperator)
  | memoryAtomicWait (ty : IntType) (memarg : MemArg)
  | memoryAtomicNotify (memarg : MemArg)
  | atomicLoad (access : AtomicAccess) (memarg : MemArg)
  | atomicStore (access : AtomicAccess) (memarg : MemArg)
  | atomicRmw (op : AtomicRmwOp) (access : AtomicAccess) (memarg : MemArg)
  | atomicRmwCmpxchg (access : AtomicAccess) (memarg : MemArg)
  | atomicFence
  | v128Store (memarg : MemArg)
  | loadExtend (op : LoadExtend) (memarg : MemArg)
  | loadSplat (size : LaneSize) (memarg : MemArg)
  | loadZero (op : LoadZero) (memarg : MemArg)
  | loadLane (size : LaneSize) (memarg : MemArg) (lane : ℕ)
  | storeLane (size : LaneSize) (memarg : MemArg) (lane : ℕ)
  | splat (lanes : Lanes)
  | extractLane (op : ExtractLane) (lane : ℕ)
  | replaceLane (lanes : Lanes) (lane : ℕ)
  | v128Not
  | vectorUnary (op : VectorUnary)
  | vectorBinary (op : VectorBinary)
  | vectorTernary (op : VectorTernary)
  | vectorShift (op : VectorShift)
  | vectorTest (op : VectorTest)
  | vectorComparison (op : VectorComparison)
  | vectorConversion (op : VectorConversion)
  | vectorCombination (op : VectorCombination)
  | i32x4RelaxedDotI8x16I7x16AddS
  | callRef (typeIndex : ℕ)
  /-- An operator of a proposal that is not supported, with the text of the error. -/
  | unsupported (feature : String) (ty : FuncType)
  deriving DecidableEq, Repr

/-- The plain operators, the calls and the tags of a module. -/
inductive ModuleOperator where
  | plain (op : PlainOperator)
  | call (functionIndex : ℕ)
  | callIndirect (typeIndex tableIndex : ℕ)
  | returnCallIndirect (typeIndex tableIndex : ℕ)
  | returnCallRef (typeIndex : ℕ)
  | tag (tagIndex : ℕ)
  deriving DecidableEq, Repr

/-! ## Types -/

/-- What the validator is told of a module: of its functions and tags, the indices of their types. -/
structure ModuleResources extends WasmModuleResources where
  functions : List ℕ
  tables : List TableType
  memories : List WasmparserMemoryType
  globals : List GlobalType
  tags : List ℕ

namespace ModuleResources

variable (r : ModuleResources)

def indexType (is64 : Bool) : ValType := if is64 then .i64 else .i32

/-- The type of an address of a memory. -/
def memoryIndexType (mem : ℕ) : Option ValType :=
  r.memories[mem]?.map fun ty => indexType ty.memory64

def functionType (index : ℕ) : Option FuncType := do
  (← r.types[← r.functions[index]?]?)

def tagType (index : ℕ) : Option FuncType := do
  (← r.types[← r.tags[index]?]?)

/-- What a call of a reference takes and gives: the reference is the last operand. -/
def callRefType (typeIndex : ℕ) : Option FuncType := do
  let ty ← (← r.types[typeIndex]?)
  pure ⟨ty.params ++ [.ref ⟨true, .concrete (.module typeIndex)⟩], ty.results⟩

/-- What a call through a table takes and gives: the index is the last operand. -/
def callIndirectType (typeIndex tableIndex : ℕ) : Option FuncType := do
  let ty ← (← r.types[typeIndex]?)
  let table ← r.tables[tableIndex]?
  pure ⟨ty.params ++ [indexType table.table64], ty.results⟩

def runtimeType : RuntimeOperator → Option FuncType
  | .memoryGrow mem => do
    let it ← r.memoryIndexType mem
    pure ⟨[it], [it]⟩
  | .memorySize mem => do
    let it ← r.memoryIndexType mem
    pure ⟨[], [it]⟩
  | .memoryInit _ mem => do
    let it ← r.memoryIndexType mem
    pure ⟨[it, .i32, .i32], []⟩
  | .memoryCopy dstMem srcMem => do
    let dst ← r.memoryIndexType dstMem
    let src ← r.memoryIndexType srcMem
    pure ⟨[dst, src, if src = .i32 then .i32 else dst], []⟩
  | .memoryFill mem => do
    let it ← r.memoryIndexType mem
    pure ⟨[it, .i32, it], []⟩
  | .dataDrop _ | .elemDrop _ => pure ⟨[], []⟩
  | .tableFill table => do
    let ty ← r.tables[table]?
    pure ⟨[indexType ty.table64, .ref ty.elementType, indexType ty.table64], []⟩
  | .tableGet table => do
    let ty ← r.tables[table]?
    pure ⟨[indexType ty.table64], [.ref ty.elementType]⟩
  | .tableSet table => do
    let ty ← r.tables[table]?
    pure ⟨[indexType ty.table64, .ref ty.elementType], []⟩
  | .tableGrow table => do
    let ty ← r.tables[table]?
    pure ⟨[.ref ty.elementType, indexType ty.table64], [indexType ty.table64]⟩
  | .tableSize table => do
    let ty ← r.tables[table]?
    pure ⟨[], [indexType ty.table64]⟩
  | .tableInit _ table => do
    let ty ← r.tables[table]?
    pure ⟨[indexType ty.table64, .i32, .i32], []⟩
  | .tableCopy dstTable srcTable => do
    let dst ← r.tables[dstTable]?
    let src ← r.tables[srcTable]?
    pure ⟨[indexType dst.table64, indexType src.table64, indexType (src.table64 && dst.table64)], []⟩
  | .refFunc functionIndex => do
    let index ← r.functions[functionIndex]?
    pure ⟨[], [.ref ⟨false, .concrete (.module index)⟩]⟩
  | .refI31 => pure ⟨[.i32], [.ref ⟨false, .abstract false .i31⟩]⟩
  | .i31GetS | .i31GetU => pure ⟨[.ref ⟨true, .abstract false .i31⟩], [.i32]⟩

def plainType : PlainOperator → Option FuncType
  | .i32Const _ => pure ⟨[], [.i32]⟩
  | .i64Const _ => pure ⟨[], [.i64]⟩
  | .f32Const _ => pure ⟨[], [.f32]⟩
  | .f64Const _ => pure ⟨[], [.f64]⟩
  | .v128Const _ => pure ⟨[], [.v128]⟩
  | .intBinary ty _ => pure ⟨[ty.valType, ty.valType], [ty.valType]⟩
  | .intUnary ty _ => pure ⟨[ty.valType], [ty.valType]⟩
  | .intEqz ty => pure ⟨[ty.valType], [.i32]⟩
  | .intComparison ty _ => pure ⟨[ty.valType, ty.valType], [.i32]⟩
  | .floatBinary ty _ => pure ⟨[ty.valType, ty.valType], [ty.valType]⟩
  | .floatUnary ty _ => pure ⟨[ty.valType], [ty.valType]⟩
  | .floatComparison ty _ => pure ⟨[ty.valType, ty.valType], [.i32]⟩
  | .conversion op => pure ⟨[op.argType], [op.resultType]⟩
  | .signExtension op => pure ⟨[op.type.valType], [op.type.valType]⟩
  | .globalGet globalIndex => do
    let ty ← r.globals[globalIndex]?
    pure ⟨[], [ty.contentType]⟩
  | .globalSet globalIndex => do
    let ty ← r.globals[globalIndex]?
    if ty.mutable then pure ⟨[ty.contentType], []⟩ else none
  | .refNull hty => pure ⟨[], [.ref ⟨true, hty⟩]⟩
  | .load op memarg => do
    let it ← r.memoryIndexType memarg.memory
    pure ⟨[it], [op.type]⟩
  | .store op memarg => do
    let it ← r.memoryIndexType memarg.memory
    pure ⟨[it, op.type], []⟩
  | .runtime op => r.runtimeType op
  | .memoryAtomicWait ty memarg => do
    let it ← r.memoryIndexType memarg.memory
    pure ⟨[it, ty.valType, .i64], [.i32]⟩
  | .memoryAtomicNotify memarg => do
    let it ← r.memoryIndexType memarg.memory
    pure ⟨[it, .i32], [.i32]⟩
  | .atomicLoad access memarg => do
    let it ← r.memoryIndexType memarg.memory
    pure ⟨[it], [access.type]⟩
  | .atomicStore access memarg => do
    let it ← r.memoryIndexType memarg.memory
    pure ⟨[it, access.type], []⟩
  | .atomicRmw _ access memarg => do
    let it ← r.memoryIndexType memarg.memory
    pure ⟨[it, access.type], [access.type]⟩
  | .atomicRmwCmpxchg access memarg => do
    let it ← r.memoryIndexType memarg.memory
    pure ⟨[it, access.type, access.type], [access.type]⟩
  | .atomicFence => pure ⟨[], []⟩
  | .v128Store memarg => do
    let it ← r.memoryIndexType memarg.memory
    pure ⟨[it, .v128], []⟩
  | .loadExtend _ memarg | .loadSplat _ memarg | .loadZero _ memarg => do
    let it ← r.memoryIndexType memarg.memory
    pure ⟨[it], [.v128]⟩
  | .loadLane _ memarg _ => do
    let it ← r.memoryIndexType memarg.memory
    pure ⟨[it, .v128], [.v128]⟩
  | .storeLane _ memarg _ => do
    let it ← r.memoryIndexType memarg.memory
    pure ⟨[it, .v128], []⟩
  | .splat lanes => pure ⟨[lanes.valType], [.v128]⟩
  | .extractLane op _ => pure ⟨[.v128], [op.lanes.valType]⟩
  | .replaceLane lanes _ => pure ⟨[.v128, lanes.valType], [.v128]⟩
  | .v128Not | .vectorUnary _ | .vectorConversion _ => pure ⟨[.v128], [.v128]⟩
  | .vectorBinary _ | .vectorComparison _ | .vectorCombination _ => pure ⟨[.v128, .v128], [.v128]⟩
  | .vectorTernary _ | .i32x4RelaxedDotI8x16I7x16AddS => pure ⟨[.v128, .v128, .v128], [.v128]⟩
  | .vectorShift _ => pure ⟨[.v128, .i32], [.v128]⟩
  | .vectorTest _ => pure ⟨[.v128], [.i32]⟩
  | .callRef typeIndex => r.callRefType typeIndex
  | .unsupported _ ty => pure ty

/-- The types of a plain operator, a call or a tag. -/
def signature : Signature ModuleOperator
  | .plain op => r.plainType op
  | .call functionIndex => r.functionType functionIndex
  | .callIndirect typeIndex tableIndex | .returnCallIndirect typeIndex tableIndex =>
    r.callIndirectType typeIndex tableIndex
  | .returnCallRef typeIndex => r.callRefType typeIndex
  | .tag tagIndex => r.tagType tagIndex

end ModuleResources

end K23VM.Wasmparser
