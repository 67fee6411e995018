import K23VM.Cranelift.FuncTranslator
import K23VM.Translate.PlainOperators

/-!
# Translating plain operators

What a plain operator in reached code does to the types of the values on the stack.  The instructions
that it emits are one instruction for the builder, so that only their types are kept.
-/

namespace K23VM.Cranelift

open Wasmparser

/-! ## The types of instructions -/

namespace Ty

def laneType : Ty → Ty
  | .I8X16 => .I8
  | .I16X8 => .I16
  | .I32X4 => .I32
  | .I64X2 => .I64
  | .F32X4 => .F32
  | .F64X2 => .F64
  | ty => ty

/-- The type of a comparison of two values. -/
def asTruthy : Ty → Ty
  | .F32X4 => .I32X4
  | .F64X2 => .I64X2
  | .I8 | .I16 | .I32 | .I64 | .F32 | .F64 => .I8
  | ty => ty

/-- Half as many lanes of twice the size. -/
def mergeLanes : Ty → Ty
  | .I8X16 => .I16X8
  | .I16X8 => .I32X4
  | .I32X4 => .I64X2
  | .F32X4 => .F64X2
  | ty => ty

/-- Twice as many lanes of half the size. -/
def splitLanes : Ty → Ty
  | .I16X8 => .I8X16
  | .I32X4 => .I16X8
  | .I64X2 => .I32X4
  | .F64X2 => .F32X4
  | ty => ty

end Ty

inductive Opcode where
  | load | uload8 | sload8 | uload16 | sload16 | uload32 | sload32
  | store | istore8 | istore16 | istore32
  deriving DecidableEq, Repr

def memOpSize (opcode : Opcode) (ty : Ty) : ℕ :=
  match opcode with
  | .istore8 | .sload8 | .uload8 => 1
  | .istore16 | .sload16 | .uload16 => 2
  | .istore32 | .sload32 | .uload32 => 4
  | .store | .load => ty.bytes

/-! ## The types of operators -/

def IntType.ty : IntType → Ty
  | .i32 => .I32
  | .i64 => .I64

def FloatType.ty : FloatType → Ty
  | .f32 => .F32
  | .f64 => .F64

/-- The type of the instruction that converts. -/
def Conversion.ty : Conversion → Ty
  | .i32WrapI64 => .I32
  | .i64ExtendI32 _ => .I64
  | .trunc result _ _ _ => IntType.ty result
  | .f32DemoteF64 => .F32
  | .f64PromoteF32 => .F64
  | .convert result _ _ => FloatType.ty result
  | .i32ReinterpretF32 => .I32
  | .i64ReinterpretF64 => .I64
  | .f32ReinterpretI32 => .F32
  | .f64ReinterpretI64 => .F64

/-- The type that the value is reduced to. -/
def SignExtension.reduced : SignExtension → Ty
  | .i32Extend8S | .i64Extend8S => .I8
  | .i32Extend16S | .i64Extend16S => .I16
  | .i64Extend32S => .I32

def Load.opcode : Load → Opcode
  | .i32Load8U | .i64Load8U => .uload8
  | .i32Load16U | .i64Load16U => .uload16
  | .i32Load8S | .i64Load8S => .sload8
  | .i32Load16S | .i64Load16S => .sload16
  | .i64Load32S => .sload32
  | .i64Load32U => .uload32
  | .i32Load | .f32Load | .i64Load | .f64Load | .v128Load => .load

def Load.resultTy : Load → Ty
  | .i32Load8U | .i32Load16U | .i32Load8S | .i32Load16S | .i32Load => .I32
  | .i64Load8U | .i64Load16U | .i64Load8S | .i64Load16S | .i64Load32S | .i64Load32U | .i64Load => .I64
  | .f32Load => .F32
  | .f64Load => .F64
  | .v128Load => .I8X16

def Store.opcode : Store → Opcode
  | .i32Store | .i64Store | .f32Store | .f64Store => .store
  | .i32Store8 | .i64Store8 => .istore8
  | .i32Store16 | .i64Store16 => .istore16
  | .i64Store32 => .istore32

/-- How many operands a function of the runtime takes. -/
def RuntimeOperator.pops : RuntimeOperator → ℕ
  | .memorySize _ | .dataDrop _ | .tableSize _ | .elemDrop _ | .refFunc _ => 0
  | .memoryGrow _ | .tableGet _ | .refI31 | .i31GetS | .i31GetU => 1
  | .tableSet _ | .tableGrow _ => 2
  | .memoryInit _ _ | .memoryCopy _ _ | .memoryFill _ | .tableFill _ | .tableInit _ _ | .tableCopy _ _ => 3

/-! ### Vectors -/

def Lanes.typeOf : Lanes → Ty
  | .i8x16 => .I8X16
  | .i16x8 => .I16X8
  | .i32x4 => .I32X4
  | .i64x2 => .I64X2
  | .f32x4 => .F32X4
  | .f64x2 => .F64X2

def LaneSize.typeOf : LaneSize → Ty
  | .bits8 => .I8X16
  | .bits16 => .I16X8
  | .bits32 => .I32X4
  | .bits64 => .I64X2

def LoadZero.typeOf : LoadZero → Ty
  | .v128Load32Zero => .I32X4
  | .v128Load64Zero => .I64X2

/-- The type of `sload8x8`, `uload8x8` and so on. -/
def LoadExtend.ty : LoadExtend → Ty
  | .v128Load8x8S | .v128Load8x8U => .I16X8
  | .v128Load16x4S | .v128Load16x4U => .I32X4
  | .v128Load32x2S | .v128Load32x2U => .I64X2

def VectorUnary.typeOf : VectorUnary → Ty
  | .i8x16Neg | .i8x16Abs | .i8x16Popcnt => .I8X16
  | .i16x8Neg | .i16x8Abs => .I16X8
  | .i32x4Neg | .i32x4Abs => .I32X4
  | .i64x2Neg | .i64x2Abs => .I64X2
  | .f32x4Sqrt | .f32x4Neg | .f32x4Abs | .f32x4Ceil | .f32x4Floor | .f32x4Trunc | .f32x4Nearest => .F32X4
  | .f64x2Sqrt | .f64x2Neg | .f64x2Abs | .f64x2Ceil | .f64x2Floor | .f64x2Trunc | .f64x2Nearest => .F64X2

/-- The type that the vectors are cast to: that of the operator, or the one that is named where it is
translated. -/
def VectorBinary.neededType : VectorBinary → Ty
  | .i8x16Shuffle _ | .i8x16Swizzle | .i8x16RelaxedSwizzle => .I8X16
  | .i8x16Add | .i8x16AddSatS | .i8x16AddSatU | .i8x16Sub | .i8x16SubSatS | .i8x16SubSatU
  | .i8x16MinS | .i8x16MinU | .i8x16MaxS | .i8x16MaxU | .i8x16AvgrU => .I8X16
  | .v128Or | .v128Xor | .v128And | .v128AndNot => .I8X16
  | .i16x8Add | .i16x8AddSatS | .i16x8AddSatU | .i16x8Sub | .i16x8SubSatS | .i16x8SubSatU
  | .i16x8MinS | .i16x8MinU | .i16x8MaxS | .i16x8MaxU | .i16x8AvgrU | .i16x8Mul => .I16X8
  | .i16x8Q15MulrSatS | .i16x8RelaxedQ15mulrS => .I16X8
  | .i32x4Add | .i32x4Sub | .i32x4MinS | .i32x4MinU | .i32x4MaxS | .i32x4MaxU | .i32x4Mul => .I32X4
  | .i64x2Add | .i64x2Sub | .i64x2Mul => .I64X2
  | .f32x4Add | .f32x4Sub | .f32x4Mul | .f32x4Div | .f32x4Max | .f32x4Min | .f32x4PMax | .f32x4PMin
  | .f32x4RelaxedMax | .f32x4RelaxedMin => .F32X4
  | .f64x2Add | .f64x2Sub | .f64x2Mul | .f64x2Div | .f64x2Max | .f64x2Min | .f64x2PMax | .f64x2PMin
  | .f64x2RelaxedMax | .f64x2RelaxedMin => .F64X2

def VectorTernary.neededType : VectorTernary → Ty
  | .v128Bitselect | .i8x16RelaxedLaneselect => .I8X16
  | .i16x8RelaxedLaneselect => .I16X8
  | .i32x4RelaxedLaneselect => .I32X4
  | .i64x2RelaxedLaneselect => .I64X2
  | .f32x4RelaxedMadd | .f32x4RelaxedNmadd => .F32X4
  | .f64x2RelaxedMadd | .f64x2RelaxedNmadd => .F64X2

def VectorShift.typeOf : VectorShift → Ty
  | .i8x16Shl | .i8x16ShrU | .i8x16ShrS => .I8X16
  | .i16x8Shl | .i16x8ShrU | .i16x8ShrS => .I16X8
  | .i32x4Shl | .i32x4ShrU | .i32x4ShrS => .I32X4
  | .i64x2Shl | .i64x2ShrU | .i64x2ShrS => .I64X2

def VectorTest.typeOf : VectorTest → Ty
  | .v128AnyTrue | .i8x16AllTrue | .i8x16Bitmask => .I8X16
  | .i16x8AllTrue | .i16x8Bitmask => .I16X8
  | .i32x4AllTrue | .i32x4Bitmask => .I32X4
  | .i64x2AllTrue | .i64x2Bitmask => .I64X2

def VectorComparison.typeOf : VectorComparison → Ty
  | .i8x16Eq | .i8x16Ne | .i8x16GtS | .i8x16LtS | .i8x16GtU | .i8x16LtU | .i8x16GeS | .i8x16LeS
  | .i8x16GeU | .i8x16LeU => .I8X16
  | .i16x8Eq | .i16x8Ne | .i16x8GtS | .i16x8LtS | .i16x8GtU | .i16x8LtU | .i16x8GeS | .i16x8LeS
  | .i16x8GeU | .i16x8LeU => .I16X8
  | .i32x4Eq | .i32x4Ne | .i32x4GtS | .i32x4LtS | .i32x4GtU | .i32x4LtU | .i32x4GeS | .i32x4LeS
  | .i32x4GeU | .i32x4LeU => .I32X4
  | .i64x2Eq | .i64x2Ne | .i64x2GtS | .i64x2LtS | .i64x2GeS | .i64x2LeS => .I64X2
  | .f32x4Eq | .f32x4Ne | .f32x4Lt | .f32x4Gt | .f32x4Le | .f32x4Ge => .F32X4
  | .f64x2Eq | .f64x2Ne | .f64x2Lt | .f64x2Gt | .f64x2Le | .f64x2Ge => .F64X2

/-- The type of the vector that a cast vector is converted to. -/
def VectorConversion.resultTy (op : VectorConversion) (a : Ty) : Ty :=
  match op with
  | .f32x4ConvertI32x4S | .f32x4ConvertI32x4U | .f32x4DemoteF64x2Zero => .F32X4
  | .f64x2ConvertLowI32x4S | .f64x2ConvertLowI32x4U | .f64x2PromoteLowF32x4 => .F64X2
  | .i32x4TruncSatF32x4S | .i32x4TruncSatF32x4U | .i32x4RelaxedTruncF32x4S
  | .i32x4RelaxedTruncF32x4U => .I32X4
  -- narrowed with a vector of zeros, from lanes of 64 bits
  | .i32x4TruncSatF64x2SZero | .i32x4TruncSatF64x2UZero | .i32x4RelaxedTruncF64x2SZero
  | .i32x4RelaxedTruncF64x2UZero => Ty.I64X2.splitLanes
  | .i16x8ExtendLowI8x16S | .i16x8ExtendHighI8x16S | .i16x8ExtendLowI8x16U | .i16x8ExtendHighI8x16U
  | .i32x4ExtendLowI16x8S | .i32x4ExtendHighI16x8S | .i32x4ExtendLowI16x8U | .i32x4ExtendHighI16x8U
  | .i64x2ExtendLowI32x4S | .i64x2ExtendHighI32x4S | .i64x2ExtendLowI32x4U | .i64x2ExtendHighI32x4U
  | .i16x8ExtAddPairwiseI8x16S | .i32x4ExtAddPairwiseI16x8S
  | .i16x8ExtAddPairwiseI8x16U | .i32x4ExtAddPairwiseI16x8U => a.mergeLanes

def VectorConversion.neededType : VectorConversion → Ty
  | .f32x4ConvertI32x4S | .f32x4ConvertI32x4U | .f64x2ConvertLowI32x4S | .f64x2ConvertLowI32x4U
  | .i64x2ExtendLowI32x4S | .i64x2ExtendHighI32x4S | .i64x2ExtendLowI32x4U
  | .i64x2ExtendHighI32x4U => .I32X4
  | .f64x2PromoteLowF32x4 | .i32x4TruncSatF32x4S | .i32x4TruncSatF32x4U | .i32x4RelaxedTruncF32x4S
  | .i32x4RelaxedTruncF32x4U => .F32X4
  | .f32x4DemoteF64x2Zero | .i32x4TruncSatF64x2SZero | .i32x4TruncSatF64x2UZero
  | .i32x4RelaxedTruncF64x2SZero | .i32x4RelaxedTruncF64x2UZero => .F64X2
  | .i16x8ExtendLowI8x16S | .i16x8ExtendHighI8x16S | .i16x8ExtendLowI8x16U | .i16x8ExtendHighI8x16U
  | .i16x8ExtAddPairwiseI8x16S | .i16x8ExtAddPairwiseI8x16U => .I8X16
  | .i32x4ExtendLowI16x8S | .i32x4ExtendHighI16x8S | .i32x4ExtendLowI16x8U | .i32x4ExtendHighI16x8U
  | .i32x4ExtAddPairwiseI16x8S | .i32x4ExtAddPairwiseI16x8U => .I16X8

def VectorCombination.neededType : VectorCombination → Ty
  | .i8x16NarrowI16x8S | .i8x16NarrowI16x8U | .i32x4DotI16x8S => .I16X8
  | .i16x8NarrowI32x4S | .i16x8NarrowI32x4U => .I32X4
  | .i16x8RelaxedDotI8x16I7x16S => .I8X16
  | .i16x8ExtMulLowI8x16S | .i16x8ExtMulHighI8x16S | .i16x8ExtMulLowI8x16U
  | .i16x8ExtMulHighI8x16U => .I8X16
  | .i32x4ExtMulLowI16x8S | .i32x4ExtMulHighI16x8S | .i32x4ExtMulLowI16x8U
  | .i32x4ExtMulHighI16x8U => .I16X8
  | .i64x2ExtMulLowI32x4S | .i64x2ExtMulHighI32x4S | .i64x2ExtMulLowI32x4U
  | .i64x2ExtMulHighI32x4U => .I32X4

/-- The type of what two cast vectors give. -/
def VectorCombination.resultTy (op : VectorCombination) (a : Ty) : Ty :=
  match op with
  | .i8x16NarrowI16x8S | .i16x8NarrowI32x4S | .i8x16NarrowI16x8U | .i16x8NarrowI32x4U => a.splitLanes
  | _ => a.mergeLanes

/-! ## The stack -/

/-- The stack of an operator. -/
structure PlainState where
  /-- The types of the values that were there before, but for those that are taken; the first is the
  top. -/
  operands : List Ty
  /-- The values that are taken. -/
  pops : ℕ
  /-- The types of the values that the operator has put above them. -/
  results : List Ty
  reachable : Bool
  deriving DecidableEq, Repr

abbrev PlainBuild := StateT PlainState (Fallible Error)

namespace PlainBuild

def push1 (ty : Ty) : PlainBuild Unit := fun s => pure ((), { s with results := ty :: s.results })

def pop1 : PlainBuild Ty := fun s =>
  match s.results, s.operands with
  | ty :: results, _ => pure (ty, { s with results })
  | [], ty :: operands => pure (ty, { s with operands, pops := s.pops + 1 })
  | [], [] => (panicking "attempted to pop a value from an empty stack" : Except Fault _)

def pop2 : PlainBuild (Ty × Ty) := do
  let ty2 ← pop1
  let ty1 ← pop1
  pure (ty1, ty2)

def pop3 : PlainBuild (Ty × Ty × Ty) := do
  let ty3 ← pop1
  let ty2 ← pop1
  let ty1 ← pop1
  pure (ty1, ty2, ty3)

def popTimes : ℕ → PlainBuild Unit
  | 0 => pure ()
  | n + 1 => do
    let _ ← pop1
    popTimes n

def setUnreachable : PlainBuild Unit := fun s => pure ((), { s with reachable := false })

def todo : PlainBuild Unit := (panicking "not yet implemented" : Except Fault Unit)

/-- The type of a value that is cast where it is needed. -/
def optionallyBitcastVector (ty neededType : Ty) : Ty := if ty ≠ neededType then neededType else ty

def pop1WithBitcast (neededType : Ty) : PlainBuild Ty := do
  pure (optionallyBitcastVector (← pop1) neededType)

def pop2WithBitcast (neededType : Ty) : PlainBuild (Ty × Ty) := do
  let (a, b) ← pop2
  pure (optionallyBitcastVector a neededType, optionallyBitcastVector b neededType)

def pop3WithBitcast (neededType : Ty) : PlainBuild (Ty × Ty × Ty) := do
  let (a, b, c) ← pop3
  pure (optionallyBitcastVector a neededType, optionallyBitcastVector b neededType,
    optionallyBitcastVector c neededType)

/-! ### Accesses -/

def memory : List Entity → Except Fault CraneliftMemory
  | [.memory memory] => pure memory
  | _ => panicking "internal error: entered unreachable code"

/-- Whether the code behind the bounds check can be reached, which does not depend on the index. -/
def prepareAddr (isa : TargetIsa) (mem : CraneliftMemory) (accessSize : ℕ) (memarg : Wasmparser.MemArg) :
    PlainBuild Bool := do
  let (addr, _) ← (mem.prepareAddr isa 0 accessSize ⟨memarg.offset⟩ ⟨1, []⟩ : Except Fault _)
  match addr with
  | .reachable _ => pure true
  | .unreachable => pure false

variable (isa : TargetIsa) (entities : List Entity) (memarg : Wasmparser.MemArg)

/-- A load, unless it traps whatever its index. -/
def translateLoad (opcode : Opcode) (resultTy : Ty) : PlainBuild Bool := do
  let _ ← pop1
  if ← prepareAddr isa (← (memory entities : Except Fault _)) (memOpSize opcode resultTy) memarg then
    push1 resultTy
    pure true
  else
    pure false

def translateStore (opcode : Opcode) : PlainBuild Unit := do
  let valTy ← pop1
  let _ ← pop1
  if !(← prepareAddr isa (← (memory entities : Except Fault _)) (memOpSize opcode valTy) memarg) then
    setUnreachable

/-- `unwrap_or_return_unreachable_state!` of a load, and what is done with the value. -/
def afterLoad (opcode : Opcode) (resultTy : Ty) (rest : PlainBuild Unit) : PlainBuild Unit := do
  if ← translateLoad isa entities memarg opcode resultTy then rest else setUnreachable

end PlainBuild

/-! ## Operators -/

open PlainBuild

/-- What is read of the module and the target. -/
structure PlainEnvironment where
  debug : Bool
  isa : TargetIsa
  pointerType : Ty
  types : WasmparserTypeConverter

namespace PlainEnvironment

variable (env : PlainEnvironment) (entities : List Entity)

def translateRefNull (hty : WasmHeapType) : Except Fault Ty := do
  assertThat (!hty.shared) "assertion failed: !hty.shared"
  referenceType env.pointerType hty

/-- Of the two ways in which some of the relaxed operators are translated for x86 and for other targets,
both have the same types. -/
def translate : PlainOperator → PlainBuild Unit
  | .i32Const _ => push1 .I32
  | .i64Const _ => push1 .I64
  | .f32Const _ => push1 .F32
  | .f64Const _ => push1 .F64
  | .v128Const _ => push1 .I8X16
  | .intBinary _ _ | .floatBinary _ _ => do
    let (arg1, _) ← pop2
    push1 arg1
  | .intUnary _ _ | .floatUnary _ _ => do
    let arg ← pop1
    push1 arg
  | .intEqz _ => do
    -- the result of the comparison is extended, as for the two kinds that follow
    let _ ← pop1
    push1 .I32
  | .intComparison _ _ | .floatComparison _ _ => do
    let _ ← pop2
    push1 .I32
  | .conversion op => do
    let _ ← pop1
    push1 (Conversion.ty op)
  | .signExtension op => do
    let _ ← pop1
    push1 (SignExtension.reduced op)
    let _ ← pop1
    push1 (IntType.ty op.type)
  | .globalGet _ =>
    match entities with
    | [.global (.memory _ _ ty)] => push1 ty
    | [.global .custom] => todo
    | _ => (panicking "internal error: entered unreachable code" : Except Fault Unit)
  | .globalSet _ =>
    match entities with
    | [.global (.const _)] => (panicking "global is a constant" : Except Fault Unit)
    | [.global (.memory _ _ ty)] => do
      let val ← pop1
      let val := if ty.isVector then optionallyBitcastVector val .I8X16 else val
      debugAssert env.debug (ty = val) "assertion `left == right` failed"
    | [.global .custom] => do
      let _ ← pop1
      todo
    | _ => (panicking "internal error: entered unreachable code" : Except Fault Unit)
  | .refNull hty => do
    let hty ← (env.types.convertHeapType hty : Except Fault _)
    push1 (← (env.translateRefNull hty : Except Fault _))
  | .load op memarg => afterLoad env.isa entities memarg (Load.opcode op) (Load.resultTy op) (pure ())
  | .store op memarg => translateStore env.isa entities memarg (Store.opcode op)
  | .runtime op => do
    popTimes (RuntimeOperator.pops op)
    todo
  | .memoryAtomicWait ty memarg => do
    let (_, expected, _) ← pop3
    assertThat (expected = IntType.ty ty) "assertion `left == right` failed"
    if memarg.offset ≠ 0 then
      let _ ← (toI64 memarg.offset : Except Fault _)
    todo
  | .memoryAtomicNotify memarg => do
    let _ ← pop2
    if memarg.offset ≠ 0 then
      let _ ← (toI64 memarg.offset : Except Fault _)
    todo
  | .atomicLoad _ _ | .atomicStore _ _ | .atomicRmw _ _ _ | .atomicRmwCmpxchg _ _ | .v128Store _ => todo
  | .atomicFence => pure ()
  | .loadExtend op memarg => do
    let _ ← pop1
    if ← prepareAddr env.isa (← (memory entities : Except Fault _)) 8 memarg then
      push1 (LoadExtend.ty op)
    else
      setUnreachable
  | .loadSplat size memarg =>
    afterLoad env.isa entities memarg .load (LaneSize.typeOf size).laneType do
      let _ ← pop1
      push1 (LaneSize.typeOf size)
  | .loadZero op memarg =>
    afterLoad env.isa entities memarg .load (LoadZero.typeOf op).laneType do
      let _ ← pop1
      push1 (LoadZero.typeOf op)
  | .loadLane size memarg _ => do
    let vector ← pop1WithBitcast (LaneSize.typeOf size)
    afterLoad env.isa entities memarg .load (LaneSize.typeOf size).laneType do
      let _ ← pop1
      push1 vector
  | .storeLane size memarg _ => do
    let vector ← pop1WithBitcast (LaneSize.typeOf size)
    push1 vector.laneType
    translateStore env.isa entities memarg .store
  | .splat lanes => do
    let _ ← pop1
    push1 (Lanes.typeOf lanes)
  | .extractLane op _ => do
    let vector ← pop1WithBitcast (Lanes.typeOf op.lanes)
    match op with
    | .i8x16ExtractLaneS | .i8x16ExtractLaneU | .i16x8ExtractLaneS | .i16x8ExtractLaneU => push1 .I32
    | _ => push1 vector.laneType
  | .replaceLane lanes _ => do
    let (vector, _) ← pop2
    push1 (optionallyBitcastVector vector (Lanes.typeOf lanes))
  | .v128Not => do
    let a ← pop1
    push1 a
  | .vectorUnary op => do
    let a ← pop1WithBitcast (VectorUnary.typeOf op)
    push1 a
  | .vectorBinary op => do
    let (a, _) ← pop2WithBitcast (VectorBinary.neededType op)
    push1 a
  | .vectorTernary op => do
    let (a, _, _) ← pop3WithBitcast (VectorTernary.neededType op)
    push1 a
  | .vectorShift op => do
    let (a, _) ← pop2
    push1 (optionallyBitcastVector a (VectorShift.typeOf op))
  | .vectorTest op => do
    let _ ← pop1WithBitcast (VectorTest.typeOf op)
    push1 .I32
  | .vectorComparison op => do
    let (a, _) ← pop2WithBitcast (VectorComparison.typeOf op)
    push1 a.asTruthy
  | .vectorConversion op => do
    let a ← pop1WithBitcast (VectorConversion.neededType op)
    push1 (VectorConversion.resultTy op a)
  | .vectorCombination op => do
    let (a, _) ← pop2WithBitcast (VectorCombination.neededType op)
    push1 (VectorCombination.resultTy op a)
  | .i32x4RelaxedDotI8x16I7x16AddS => do
    let _ ← pop1WithBitcast .I32X4
    let (a, _) ← pop2WithBitcast .I8X16
    push1 a.mergeLanes.mergeLanes
  | .callRef _ =>
    match entities with
    | [.signature _ numArgs] => do
      popTimes (numArgs + 1)
      todo
    | _ => (panicking "internal error: entered unreachable code" : Except Fault Unit)
  | .unsupported feature _ => (throw (Error.unsupported feature) : Fallible Error Unit)

/-- What an operator does to a stack of values of the given types. -/
def translatePlain (op : PlainOperator) (stack : List Ty) : Fallible Error PlainShape := do
  let (_, s) ← env.translate entities op ⟨stack.reverse, 0, [], true⟩
  pure ⟨s.pops, s.results.reverse, s.reachable⟩

end PlainEnvironment

end K23VM.Cranelift
