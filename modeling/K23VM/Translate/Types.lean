import K23VM.Lib.Fault

/-!
# WebAssembly types

The types of a module, with their references to other types.  A reference names a type of the
module, a member of the enclosing rec group, or a type of the engine.  `TypeTrace` visits the
references of a type in order, `trace` to read them and `traceMut` to replace them.
-/

namespace K23VM

/-- A reference to a type, by its index in the engine, the module or the rec group. -/
inductive CanonicalizedTypeIndex where
  | shared (index : ℕ)
  | module (index : ℕ)
  | recGroup (index : ℕ)
  deriving DecidableEq, Repr

inductive WasmHeapTypeInner where
  | extern_ | noExtern
  | func | concreteFunc (index : CanonicalizedTypeIndex) | noFunc
  | any | eq | i31
  | array | concreteArray (index : CanonicalizedTypeIndex)
  | struct | concreteStruct (index : CanonicalizedTypeIndex)
  | none
  | exn | noExn
  | cont | noCont
  deriving DecidableEq, Repr

structure WasmHeapType where
  shared : Bool
  ty : WasmHeapTypeInner
  deriving DecidableEq, Repr

structure WasmRefType where
  nullable : Bool
  heapType : WasmHeapType
  deriving DecidableEq, Repr

inductive WasmValType where
  | i32 | i64 | f32 | f64 | v128
  | ref (ty : WasmRefType)
  deriving DecidableEq, Repr

inductive WasmStorageType where
  | i8 | i16
  | val (ty : WasmValType)
  deriving DecidableEq, Repr

structure WasmFieldType where
  mutable : Bool
  elementType : WasmStorageType
  deriving DecidableEq, Repr

structure WasmFuncType where
  params : List WasmValType
  results : List WasmValType
  deriving DecidableEq, Repr

structure WasmArrayType where
  field : WasmFieldType
  deriving DecidableEq, Repr

structure WasmStructType where
  fields : List WasmFieldType
  deriving DecidableEq, Repr

inductive WasmCompositeTypeInner where
  | func (ty : WasmFuncType)
  | array (ty : WasmArrayType)
  | struct (ty : WasmStructType)
  deriving DecidableEq, Repr

structure WasmCompositeType where
  inner : WasmCompositeTypeInner
  shared : Bool
  deriving DecidableEq, Repr

structure WasmSubType where
  isFinal : Bool
  supertype : Option CanonicalizedTypeIndex
  compositeType : WasmCompositeType
  deriving DecidableEq, Repr

structure WasmRecGroup where
  types : List WasmSubType
  deriving DecidableEq, Repr

/-! ## Tracing references -/

class TypeTrace (α : Type) where
  /-- The references, in the order they are visited. -/
  trace : α → List CanonicalizedTypeIndex
  /-- Replace each reference, stopping at the first that cannot be. -/
  traceMut : (CanonicalizedTypeIndex → Except Fault CanonicalizedTypeIndex) → α → Except Fault α

export TypeTrace (trace traceMut)

instance : TypeTrace CanonicalizedTypeIndex where
  trace i := [i]
  traceMut f i := f i

instance {α : Type} [TypeTrace α] : TypeTrace (Option α) where
  trace o := o.toList.flatMap trace
  traceMut f
    | none => pure none
    | some a => do pure (some (← traceMut f a))

instance {α : Type} [TypeTrace α] : TypeTrace (List α) where
  trace l := l.flatMap trace
  traceMut f l := l.mapM (traceMut f)

instance : TypeTrace WasmHeapType where
  trace t :=
    match t.ty with
    | .concreteFunc index | .concreteArray index | .concreteStruct index => [index]
    | _ => []
  traceMut f t :=
    match t.ty with
    | .concreteFunc index => do pure { t with ty := .concreteFunc (← f index) }
    | .concreteArray index => do pure { t with ty := .concreteArray (← f index) }
    | .concreteStruct index => do pure { t with ty := .concreteStruct (← f index) }
    | _ => pure t

instance : TypeTrace WasmRefType where
  trace t := trace t.heapType
  traceMut f t := do pure { t with heapType := ← traceMut f t.heapType }

instance : TypeTrace WasmValType where
  trace
    | .ref r => trace r
    | _ => []
  traceMut f
    | .ref r => do pure (.ref (← traceMut f r))
    | t => pure t

instance : TypeTrace WasmStorageType where
  trace
    | .val v => trace v
    | _ => []
  traceMut f
    | .val v => do pure (.val (← traceMut f v))
    | t => pure t

instance : TypeTrace WasmFieldType where
  trace t := trace t.elementType
  traceMut f t := do pure { t with elementType := ← traceMut f t.elementType }

instance : TypeTrace WasmFuncType where
  trace t := trace t.params ++ trace t.results
  traceMut f t := do pure ⟨← traceMut f t.params, ← traceMut f t.results⟩

instance : TypeTrace WasmArrayType where
  trace t := trace t.field
  traceMut f t := do pure ⟨← traceMut f t.field⟩

instance : TypeTrace WasmStructType where
  trace t := trace t.fields
  traceMut f t := do pure ⟨← traceMut f t.fields⟩

instance : TypeTrace WasmCompositeType where
  trace t :=
    match t.inner with
    | .func ty => trace ty
    | .array ty => trace ty
    | .struct ty => trace ty
  traceMut f t :=
    match t.inner with
    | .func ty => do pure { t with inner := .func (← traceMut f ty) }
    | .array ty => do pure { t with inner := .array (← traceMut f ty) }
    | .struct ty => do pure { t with inner := .struct (← traceMut f ty) }

instance : TypeTrace WasmSubType where
  trace t := trace t.supertype ++ trace t.compositeType
  traceMut f t := do
    pure { t with supertype := ← traceMut f t.supertype
                  compositeType := ← traceMut f t.compositeType }

instance : TypeTrace WasmRecGroup where
  trace g := trace g.types
  traceMut f g := do pure ⟨← traceMut f g.types⟩

end K23VM
