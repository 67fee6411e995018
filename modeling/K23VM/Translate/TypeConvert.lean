import K23VM.Translate.Types
import K23VM.Translate.Wasmparser

/-!
# Conversion of types

The conversion from the parser's types.  A concrete reference becomes the interned index of the type
it names, under the constructor for that type's kind, so that a type has to be interned before the
first reference to it is converted.
-/

namespace K23VM

open Wasmparser

/-- What the conversion reads: the ids that were given an interned index, the types interned so far,
and the interned index of each type of the module. -/
structure WasmparserTypeConverter where
  seenTypes : List (ℕ × ℕ)
  wasmTypes : List WasmSubType
  moduleTypes : List ℕ

namespace WasmparserTypeConverter

variable (c : WasmparserTypeConverter)

def lookupTypeIndex : UnpackedIndex → Except Fault ℕ
  | .module index => unwrap "index out of bounds" c.moduleTypes[index]?
  | .id id => unwrap "no entry found for key" (c.seenTypes.lookup id)
  | .recGroup _ => panicking "internal error: entered unreachable code"

/-- The reference to an interned type. -/
def concreteHeapType (index : ℕ) : Except Fault WasmHeapType :=
  match c.wasmTypes[index]? with
  | some ty =>
    match ty.compositeType.inner with
    | .func _ => pure ⟨ty.compositeType.shared, .concreteFunc (.module index)⟩
    | .array _ => pure ⟨ty.compositeType.shared, .concreteArray (.module index)⟩
    | .struct _ => pure ⟨ty.compositeType.shared, .concreteStruct (.module index)⟩
  | none => panicking "not yet implemented"

def lookupHeapType (index : UnpackedIndex) : Except Fault WasmHeapType := do
  c.concreteHeapType (← c.lookupTypeIndex index)

def convertAbstractHeapType : AbstractHeapType → WasmHeapTypeInner
  | .func => .func
  | .extern_ => .extern_
  | .any => .any
  | .none => .none
  | .noExtern => .noExtern
  | .noFunc => .noFunc
  | .eq => .eq
  | .struct => .struct
  | .array => .array
  | .i31 => .i31
  | .exn => .exn
  | .noExn => .noExn
  | .cont => .cont
  | .noCont => .noCont

def convertHeapType : HeapType → Except Fault WasmHeapType
  | .concrete index => c.lookupHeapType index
  | .abstract shared ty => pure ⟨shared, convertAbstractHeapType ty⟩

def convertRefType (ty : RefType) : Except Fault WasmRefType := do
  pure ⟨ty.nullable, ← c.convertHeapType ty.heapType⟩

def convertValType : ValType → Except Fault WasmValType
  | .i32 => pure .i32
  | .i64 => pure .i64
  | .f32 => pure .f32
  | .f64 => pure .f64
  | .v128 => pure .v128
  | .ref ty => do pure (.ref (← c.convertRefType ty))

def convertStorageType : StorageType → Except Fault WasmStorageType
  | .i8 => pure .i8
  | .i16 => pure .i16
  | .val ty => do pure (.val (← c.convertValType ty))

def convertFieldType (ty : FieldType) : Except Fault WasmFieldType := do
  pure ⟨ty.mutable, ← c.convertStorageType ty.elementType⟩

def convertFuncType (ty : FuncType) : Except Fault WasmFuncType := do
  let params ← ty.params.mapM c.convertValType
  let results ← ty.results.mapM c.convertValType
  pure ⟨params, results⟩

def convertArrayType (ty : FieldType) : Except Fault WasmArrayType := do
  pure ⟨← c.convertFieldType ty⟩

def convertStructType (fields : List FieldType) : Except Fault WasmStructType := do
  pure ⟨← fields.mapM c.convertFieldType⟩

def convertCompositeType (ty : CompositeType) : Except Fault WasmCompositeType :=
  match ty.inner with
  | .func func => do pure ⟨.func (← c.convertFuncType func), ty.shared⟩
  | .array array => do pure ⟨.array (← c.convertArrayType array), ty.shared⟩
  | .struct fields => do pure ⟨.struct (← c.convertStructType fields), ty.shared⟩
  | .cont _ => panicking "not yet implemented"

def convertSubType (ty : SubType) : Except Fault WasmSubType := do
  let supertype ← ty.supertypeIdx.mapM fun index => do pure (.module (← c.lookupTypeIndex index))
  pure ⟨ty.isFinal, supertype, ← c.convertCompositeType ty.compositeType⟩

end WasmparserTypeConverter

end K23VM
