import K23VM.Cranelift.Builder
import K23VM.Errors
import K23VM.Translate.Operators
import K23VM.Translate.TypeConvert

/-!
# The environment of the function translator

The types of values in the code generator's language, the signatures of functions, and what the
environment does for a plain operator and a call.
-/

namespace K23VM.Cranelift

open Wasmparser

/-- The types at the top of the hierarchies of heap types. -/
inductive WasmHeapTopTypeInner where
  | extern_ | any | func | exn | cont
  deriving DecidableEq, Repr

end K23VM.Cranelift

namespace K23VM

def WasmHeapType.top (ty : WasmHeapType) : Cranelift.WasmHeapTopTypeInner :=
  match ty.ty with
  | .func | .concreteFunc _ | .noFunc => .func
  | .extern_ | .noExtern => .extern_
  | .any | .eq | .i31 | .array | .concreteArray _ | .struct | .concreteStruct _ | .none => .any
  | .exn | .noExn => .exn
  | .cont | .noCont => .cont

end K23VM

namespace K23VM.Cranelift

open Wasmparser

def referenceType (pointerType : Ty) (ty : WasmHeapType) : Except Fault Ty :=
  match ty.top with
  | .func => pure pointerType
  | .any | .extern_ => pure .I32
  | .exn | .cont => panicking "not yet implemented"

def valueType (pointerType : Ty) : WasmValType → Except Fault Ty
  | .i32 => pure .I32
  | .i64 => pure .I64
  | .f32 => pure .F32
  | .f64 => pure .F64
  | .v128 => pure .I8X16
  | .ref ty => referenceType pointerType ty.heapType

/-- The signature of a WebAssembly function, with the vmctx of the callee and of the caller. -/
def wasmCallSignature (pointerType : Ty) (ty : WasmFuncType) : Except Fault IrSignature := do
  let params ← ty.params.mapM (valueType pointerType)
  let returns ← ty.results.mapM (valueType pointerType)
  pure ⟨pointerType :: pointerType :: params, returns⟩

/-- What a plain operator takes from the stack and puts on it, and whether the code after it can be
reached. -/
structure PlainShape where
  pops : ℕ
  results : List Ty
  reachable : Bool
  deriving DecidableEq, Repr

/-- What a direct call calls. -/
structure Callee where
  ty : WasmFuncType
  /-- A function of this module is called with the vmctx of the caller. -/
  ownVmctx : Bool
  deriving DecidableEq, Repr

structure TranslationEnvironment (P : Type) where
  debug : Bool
  resources : WasmModuleResources
  types : WasmparserTypeConverter
  pointerType : Ty
  /-- A plain operator, on a stack of values of the given types. -/
  translatePlain : P → List Ty → Fallible Error PlainShape
  callee : P → Except Fault Callee
  /-- The type of the functions that an indirect call can call. -/
  indirectCallee : P → Except Fault WasmFuncType
  /-- The trap that an indirect call is known to end in. -/
  checkIndirectCall : P → Except Fault (Option TrapCode)

namespace TranslationEnvironment

variable {P : Type} (env : TranslationEnvironment P)

def valueType : ValType → Except Fault Ty
  | .i32 => pure .I32
  | .i64 => pure .I64
  | .f32 => pure .F32
  | .f64 => pure .F64
  | .v128 => pure .I8X16
  | .ref ty => do referenceType env.pointerType (← env.types.convertHeapType ty.heapType)

def blocktypeParamsResults : BlockType → Except Fault FuncType
  | .empty => pure ⟨[], []⟩
  | .type ty => pure ⟨[], [ty]⟩
  | .funcType index => do
    let ty ← unwrap "should be valid" env.resources.types[index]?
    unwrap "not a func" ty

/-- A new block with parameters of the given types. -/
def blockWithParams (b : FunctionBuilder P) (params : List ValType) :
    Except Fault (ℕ × FunctionBuilder P) := do
  let (block, b) := b.createBlock
  let tys ← params.mapM env.valueType
  pure (block, b.appendBlockParams block tys)

end TranslationEnvironment

end K23VM.Cranelift
