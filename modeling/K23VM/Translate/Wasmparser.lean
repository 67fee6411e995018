import Mathlib.Data.Nat.Notation
import Mathlib.Tactic.TypeStar

/-!
# Types as the parser gives them

The types of a module as the validator interned them.  A type and a rec group have an id of the
validator, and a concrete reference names a type by its index in the module, its place in the rec
group, or its id.  `ValidatorTypes.Canonical` is what the validator documents of its ids.
-/

namespace K23VM.Wasmparser

/-- A reference to a type. -/
inductive UnpackedIndex where
  | module (index : ℕ)
  | recGroup (index : ℕ)
  | id (id : ℕ)
  deriving DecidableEq, Repr

inductive AbstractHeapType where
  | func | extern_ | any | none | noExtern | noFunc | eq | struct | array | i31 | exn | noExn
  | cont | noCont
  deriving DecidableEq, Repr

inductive HeapType where
  | concrete (index : UnpackedIndex)
  | abstract (shared : Bool) (ty : AbstractHeapType)
  deriving DecidableEq, Repr

structure RefType where
  nullable : Bool
  heapType : HeapType
  deriving DecidableEq, Repr

inductive ValType where
  | i32 | i64 | f32 | f64 | v128
  | ref (ty : RefType)
  deriving DecidableEq, Repr

inductive StorageType where
  | i8 | i16
  | val (ty : ValType)
  deriving DecidableEq, Repr

structure FieldType where
  mutable : Bool
  elementType : StorageType
  deriving DecidableEq, Repr

structure FuncType where
  params : List ValType
  results : List ValType
  deriving DecidableEq, Repr

inductive CompositeInnerType where
  | func (ty : FuncType)
  | array (ty : FieldType)
  | struct (fields : List FieldType)
  | cont (index : UnpackedIndex)
  deriving DecidableEq, Repr

structure CompositeType where
  inner : CompositeInnerType
  shared : Bool
  deriving DecidableEq, Repr

structure SubType where
  isFinal : Bool
  supertypeIdx : Option UnpackedIndex
  compositeType : CompositeType
  deriving DecidableEq, Repr

/-! ## References -/

section MapIndex

variable (f : UnpackedIndex → UnpackedIndex)

def HeapType.mapIndex : HeapType → HeapType
  | .concrete index => .concrete (f index)
  | .abstract shared ty => .abstract shared ty

def RefType.mapIndex (t : RefType) : RefType := ⟨t.nullable, t.heapType.mapIndex f⟩

def ValType.mapIndex : ValType → ValType
  | .ref ty => .ref (ty.mapIndex f)
  | t => t

def StorageType.mapIndex : StorageType → StorageType
  | .val ty => .val (ty.mapIndex f)
  | t => t

def FieldType.mapIndex (t : FieldType) : FieldType := ⟨t.mutable, t.elementType.mapIndex f⟩

def FuncType.mapIndex (t : FuncType) : FuncType :=
  ⟨t.params.map (·.mapIndex f), t.results.map (·.mapIndex f)⟩

def CompositeInnerType.mapIndex : CompositeInnerType → CompositeInnerType
  | .func ty => .func (ty.mapIndex f)
  | .array ty => .array (ty.mapIndex f)
  | .struct fields => .struct (fields.map (·.mapIndex f))
  | .cont index => .cont (f index)

def CompositeType.mapIndex (t : CompositeType) : CompositeType := ⟨t.inner.mapIndex f, t.shared⟩

/-- Replace every reference of a type. -/
def SubType.mapIndex (t : SubType) : SubType :=
  ⟨t.isFinal, t.supertypeIdx.map f, t.compositeType.mapIndex f⟩

end MapIndex

def HeapType.indices : HeapType → List UnpackedIndex
  | .concrete index => [index]
  | .abstract _ _ => []

def RefType.indices (t : RefType) : List UnpackedIndex := t.heapType.indices

def ValType.indices : ValType → List UnpackedIndex
  | .ref ty => ty.indices
  | _ => []

def StorageType.indices : StorageType → List UnpackedIndex
  | .val ty => ty.indices
  | _ => []

def FieldType.indices (t : FieldType) : List UnpackedIndex := t.elementType.indices

def FuncType.indices (t : FuncType) : List UnpackedIndex :=
  t.params.flatMap ValType.indices ++ t.results.flatMap ValType.indices

def CompositeInnerType.indices : CompositeInnerType → List UnpackedIndex
  | .func ty => ty.indices
  | .array ty => ty.indices
  | .struct fields => fields.flatMap FieldType.indices
  | .cont index => [index]

def CompositeType.indices (t : CompositeType) : List UnpackedIndex := t.inner.indices

/-- The references of a type, in the order it is converted. -/
def SubType.indices (t : SubType) : List UnpackedIndex :=
  t.supertypeIdx.toList ++ t.compositeType.indices

/-- The types the validator knows: the ids of the module's types in order, and the rec group, the
members of a group and the type of an id. -/
structure ValidatorTypes where
  id : ℕ
  coreTypes : List ℕ
  recGroupIdOf : ℕ → ℕ
  recGroupElements : ℕ → List ℕ
  subType : ℕ → SubType

namespace ValidatorTypes

variable (v : ValidatorTypes)

/-- A reference to a member of the group by its place there. -/
def relativeIndex (elems : List ℕ) : UnpackedIndex → UnpackedIndex
  | .id x => if x ∈ elems then .recGroup (elems.idxOf x) else .id x
  | i => i

/-- A rec group as it is compared with others. -/
def relativeGroup (g : ℕ) : List SubType :=
  (v.recGroupElements g).map fun x => (v.subType x).mapIndex (relativeIndex (v.recGroupElements g))

/-- The types of a type section that declares the rec groups `groups`: types refer to each other by
id, an id belongs to one place of one group, and two groups that are equal have the same id. -/
structure Canonical (groups : List ℕ) : Prop where
  refs : ∀ g ∈ groups, ∀ x ∈ v.recGroupElements g, ∀ r ∈ (v.subType x).indices, ∃ y, r = .id y
  coreTypes : v.coreTypes = groups.flatMap v.recGroupElements
  idOf : ∀ g ∈ groups, ∀ x ∈ v.recGroupElements g, v.recGroupIdOf x = g
  nodup : ∀ g ∈ groups, (v.recGroupElements g).Nodup
  canonical : ∀ g ∈ groups, ∀ h ∈ groups, v.relativeGroup g = v.relativeGroup h → g = h

/-- The types of a validated type section that declares the rec groups `groups`: types refer by id to
types of their own and earlier groups, and an id belongs to one place of one group.  Equal groups may
have different ids, as where the validator has no need to compare them. -/
structure Valid (groups : List ℕ) : Prop where
  refs : ∀ pre g post, groups = pre ++ g :: post → ∀ x ∈ v.recGroupElements g,
    ∀ r ∈ (v.subType x).indices, ∃ y ∈ (pre ++ [g]).flatMap v.recGroupElements, r = .id y
  coreTypes : v.coreTypes = groups.flatMap v.recGroupElements
  idOf : ∀ g ∈ groups, ∀ x ∈ v.recGroupElements g, v.recGroupIdOf x = g
  nodup : ∀ g ∈ groups, (v.recGroupElements g).Nodup

end ValidatorTypes

end K23VM.Wasmparser
