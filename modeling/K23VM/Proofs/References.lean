import K23VM.Lib.MapM
import K23VM.Translate.Types
import Mathlib.Tactic

/-!
# The references of a type

A type is a shape with references in it.  `references` and `mapReferences` are the references of a type
and the replacement of each, by the structure of the types: the shape and the references determine a
type, and replacing the references keeps its shape.  Nothing here is about how the code visits a type.
-/

namespace K23VM

class TypeReferences (α : Type) where
  /-- The references, from left to right. -/
  references : α → List CanonicalizedTypeIndex
  /-- The type with each reference replaced. -/
  mapReferences : (CanonicalizedTypeIndex → CanonicalizedTypeIndex) → α → α

export TypeReferences (references mapReferences)

section Defs

variable {α : Type} [TypeReferences α]

/-- Two types are equal but for their references. -/
def SameShape (a b : α) : Prop :=
  mapReferences (fun _ => .module 0) a = mapReferences (fun _ => .module 0) b

/-- `b` is `a` with each reference replaced by one that it stands in the relation `R` to. -/
structure Replaced (R : CanonicalizedTypeIndex → CanonicalizedTypeIndex → Prop) (a b : α) : Prop where
  shape : SameShape b a
  related : List.Forall₂ R (references a) (references b)

variable {R S T : CanonicalizedTypeIndex → CanonicalizedTypeIndex → Prop} {a b c : α}

theorem Replaced.imp (h : Replaced R a b) (hRS : ∀ r ∈ references a, ∀ r', R r r' → S r r') :
    Replaced S a b :=
  ⟨h.shape, forall₂_imp_mem h.related fun r hr r' _ => hRS r hr r'⟩

/-- Two replacements in one type, where the second goes through the first. -/
theorem Replaced.factor (hb : Replaced R a b) (hc : Replaced S a c)
    (h : ∀ r ∈ references a, ∀ j k, R r j → S r k → T j k) : Replaced T b c :=
  ⟨hc.shape.trans hb.shape.symm, forall₂_factor hb.related hc.related h⟩

/-- Replacing twice is replacing once. -/
theorem Replaced.comp (hb : Replaced R a b) (hc : Replaced S b c)
    (h : ∀ r ∈ references a, ∀ j k, R r j → S j k → T r k) : Replaced T a c :=
  ⟨hc.shape.trans hb.shape, forall₂_comp hb.related hc.related h⟩

end Defs

/-! ## The types -/

instance : TypeReferences CanonicalizedTypeIndex where
  references r := [r]
  mapReferences g r := g r

instance {α : Type} [TypeReferences α] : TypeReferences (List α) where
  references l := l.flatMap references
  mapReferences g l := l.map (mapReferences g)

instance {α : Type} [TypeReferences α] : TypeReferences (Option α) where
  references o := o.toList.flatMap references
  mapReferences g o := o.map (mapReferences g)

instance : TypeReferences WasmHeapTypeInner where
  references
    | .concreteFunc r | .concreteArray r | .concreteStruct r => [r]
    | _ => []
  mapReferences g
    | .concreteFunc r => .concreteFunc (g r)
    | .concreteArray r => .concreteArray (g r)
    | .concreteStruct r => .concreteStruct (g r)
    | t => t

instance : TypeReferences WasmHeapType where
  references t := references t.ty
  mapReferences g t := ⟨t.shared, mapReferences g t.ty⟩

instance : TypeReferences WasmRefType where
  references t := references t.heapType
  mapReferences g t := ⟨t.nullable, mapReferences g t.heapType⟩

instance : TypeReferences WasmValType where
  references
    | .ref ty => references ty
    | _ => []
  mapReferences g
    | .ref ty => .ref (mapReferences g ty)
    | t => t

instance : TypeReferences WasmStorageType where
  references
    | .val ty => references ty
    | _ => []
  mapReferences g
    | .val ty => .val (mapReferences g ty)
    | t => t

instance : TypeReferences WasmFieldType where
  references t := references t.elementType
  mapReferences g t := ⟨t.mutable, mapReferences g t.elementType⟩

instance : TypeReferences WasmFuncType where
  references t := references t.params ++ references t.results
  mapReferences g t := ⟨mapReferences g t.params, mapReferences g t.results⟩

instance : TypeReferences WasmArrayType where
  references t := references t.field
  mapReferences g t := ⟨mapReferences g t.field⟩

instance : TypeReferences WasmStructType where
  references t := references t.fields
  mapReferences g t := ⟨mapReferences g t.fields⟩

instance : TypeReferences WasmCompositeTypeInner where
  references
    | .func ty => references ty
    | .array ty => references ty
    | .struct ty => references ty
  mapReferences g
    | .func ty => .func (mapReferences g ty)
    | .array ty => .array (mapReferences g ty)
    | .struct ty => .struct (mapReferences g ty)

instance : TypeReferences WasmCompositeType where
  references t := references t.inner
  mapReferences g t := ⟨mapReferences g t.inner, t.shared⟩

instance : TypeReferences WasmSubType where
  references t := references t.supertype ++ references t.compositeType
  mapReferences g t :=
    ⟨t.isFinal, mapReferences g t.supertype, mapReferences g t.compositeType⟩

instance : TypeReferences WasmRecGroup where
  references t := references t.types
  mapReferences g t := ⟨mapReferences g t.types⟩

/-! ## What shape and references determine -/

class LawfulReferences (α : Type) [TypeReferences α] : Prop where
  references_map : ∀ g (a : α), references (mapReferences g a) = (references a).map g
  map_map : ∀ g h (a : α), mapReferences g (mapReferences h a) = mapReferences (g ∘ h) a
  ext : ∀ {a b : α}, SameShape a b → references a = references b → a = b

export LawfulReferences (references_map)

section Lawful

variable {α β : Type} [TypeReferences α] [LawfulReferences α] [TypeReferences β] [LawfulReferences β]

theorem sameShape_map (g) (a : α) : SameShape (mapReferences g a) a :=
  LawfulReferences.map_map _ g a

theorem length_references_of_sameShape {a b : α} (h : SameShape a b) :
    (references a).length = (references b).length := by
  have := congrArg (fun t => (references t).length) h
  simpa only [references_map, List.length_map] using this

/-- Two types of two parts each are equal where the parts have the same shapes and the references are
the same. -/
theorem ext_append {a a' : α} {b b' : β} (ha : SameShape a a') (hb : SameShape b b')
    (h : references a ++ references b = references a' ++ references b') : a = a' ∧ b = b' := by
  obtain ⟨ha', hb'⟩ := List.append_inj h (length_references_of_sameShape ha)
  exact ⟨LawfulReferences.ext ha ha', LawfulReferences.ext hb hb'⟩

variable {R : CanonicalizedTypeIndex → CanonicalizedTypeIndex → Prop} {a b c : α}

theorem replaced_map {g} (h : ∀ r ∈ references a, R r (g r)) : Replaced R a (mapReferences g a) := by
  refine ⟨sameShape_map g a, ?_⟩
  rw [references_map]
  exact List.forall₂_map_right_iff.2 (List.forall₂_same.2 h)

/-- References that can be replaced in one way only determine the type. -/
theorem Replaced.unique (hb : Replaced R a b) (hc : Replaced R a c)
    (h : ∀ r ∈ references a, ∀ j k, R r j → R r k → j = k) : b = c := by
  have hrefs := forall₂_factor hb.related hc.related h
  rw [List.forall₂_eq_eq_eq] at hrefs
  exact LawfulReferences.ext (hb.shape.trans hc.shape.symm) hrefs

end Lawful

instance : LawfulReferences CanonicalizedTypeIndex where
  references_map _ _ := rfl
  map_map _ _ _ := rfl
  ext _ h := (List.cons.inj h).1

instance {α : Type} [TypeReferences α] [LawfulReferences α] : LawfulReferences (List α) where
  references_map g l := by
    simp only [references, mapReferences, List.flatMap_map, List.map_flatMap, references_map]
  map_map g h l := by
    simp only [mapReferences, List.map_map]
    exact List.map_congr_left fun a _ => LawfulReferences.map_map g h a
  ext {a b} hs h := by
    induction a generalizing b with
    | nil =>
      rcases b with _ | ⟨y, ys⟩
      · rfl
      · cases hs
    | cons x xs ih =>
      rcases b with _ | ⟨y, ys⟩
      · cases hs
      · obtain ⟨hx, hxs⟩ := List.cons.inj hs
        simp only [references, List.flatMap_cons] at h
        obtain ⟨hx', hxs'⟩ := List.append_inj h (length_references_of_sameShape hx)
        rw [LawfulReferences.ext hx hx', ih hxs hxs']

instance {α : Type} [TypeReferences α] [LawfulReferences α] : LawfulReferences (Option α) where
  references_map g o := by
    cases o <;> simp [references, mapReferences, references_map]
  map_map g h o := by
    cases o with
    | none => rfl
    | some a => exact congrArg some (LawfulReferences.map_map g h a)
  ext {a b} hs h := by
    rcases a with _ | a <;> rcases b with _ | b
    · rfl
    · cases hs
    · cases hs
    · simp only [references, Option.toList_some, List.flatMap_singleton] at h
      rw [LawfulReferences.ext (Option.some_inj.1 hs) h]

instance : LawfulReferences WasmHeapTypeInner where
  references_map g t := by
    cases t <;> rfl
  map_map g h t := by
    cases t <;> rfl
  ext {a b} hs h := by
    cases a <;> cases b <;> first
      | rfl
      | exact congrArg _ (List.cons.inj h).1
      | cases hs

instance : LawfulReferences WasmHeapType where
  references_map g t := references_map g t.ty
  map_map g h t := congrArg (WasmHeapType.mk t.shared) (LawfulReferences.map_map g h t.ty)
  ext {a b} hs h := by
    obtain ⟨hn, ht⟩ := WasmHeapType.mk.inj hs
    exact congrArg₂ WasmHeapType.mk hn (LawfulReferences.ext ht h)

instance : LawfulReferences WasmRefType where
  references_map g t := references_map g t.heapType
  map_map g h t := congrArg (WasmRefType.mk t.nullable) (LawfulReferences.map_map g h t.heapType)
  ext {a b} hs h := by
    obtain ⟨hn, hh⟩ := WasmRefType.mk.inj hs
    exact congrArg₂ WasmRefType.mk hn (LawfulReferences.ext hh h)

instance : LawfulReferences WasmValType where
  references_map g t := by
    cases t with
    | ref ty => exact references_map g ty
    | _ => rfl
  map_map g h t := by
    cases t with
    | ref ty => exact congrArg WasmValType.ref (LawfulReferences.map_map g h ty)
    | _ => rfl
  ext {a b} hs h := by
    cases a <;> cases b <;> first
      | rfl
      | exact congrArg _ (LawfulReferences.ext (WasmValType.ref.inj hs) h)
      | cases hs

instance : LawfulReferences WasmStorageType where
  references_map g t := by
    cases t with
    | val ty => exact references_map g ty
    | _ => rfl
  map_map g h t := by
    cases t with
    | val ty => exact congrArg WasmStorageType.val (LawfulReferences.map_map g h ty)
    | _ => rfl
  ext {a b} hs h := by
    cases a <;> cases b <;> first
      | rfl
      | exact congrArg _ (LawfulReferences.ext (WasmStorageType.val.inj hs) h)
      | cases hs

instance : LawfulReferences WasmFieldType where
  references_map g t := references_map g t.elementType
  map_map g h t := congrArg (WasmFieldType.mk t.mutable) (LawfulReferences.map_map g h t.elementType)
  ext {a b} hs h := by
    obtain ⟨hm, he⟩ := WasmFieldType.mk.inj hs
    exact congrArg₂ WasmFieldType.mk hm (LawfulReferences.ext he h)

instance : LawfulReferences WasmFuncType where
  references_map g t := by
    simp only [references, mapReferences, List.map_append]
    exact congrArg₂ _ (references_map g t.params) (references_map g t.results)
  map_map g h t := congrArg₂ WasmFuncType.mk (LawfulReferences.map_map g h t.params)
    (LawfulReferences.map_map g h t.results)
  ext {a b} hs h := by
    obtain ⟨hp, hr⟩ := WasmFuncType.mk.inj hs
    obtain ⟨hp, hr⟩ := ext_append hp hr h
    exact congrArg₂ WasmFuncType.mk hp hr

instance : LawfulReferences WasmArrayType where
  references_map g t := references_map g t.field
  map_map g h t := congrArg WasmArrayType.mk (LawfulReferences.map_map g h t.field)
  ext hs h := congrArg WasmArrayType.mk (LawfulReferences.ext (WasmArrayType.mk.inj hs) h)

instance : LawfulReferences WasmStructType where
  references_map g t := references_map g t.fields
  map_map g h t := congrArg WasmStructType.mk (LawfulReferences.map_map g h t.fields)
  ext hs h := congrArg WasmStructType.mk (LawfulReferences.ext (WasmStructType.mk.inj hs) h)

instance : LawfulReferences WasmCompositeTypeInner where
  references_map g t := by
    cases t with
    | func ty => exact references_map g ty
    | array ty => exact references_map g ty
    | struct ty => exact references_map g ty
  map_map g h t := by
    cases t with
    | func ty => exact congrArg WasmCompositeTypeInner.func (LawfulReferences.map_map g h ty)
    | array ty => exact congrArg WasmCompositeTypeInner.array (LawfulReferences.map_map g h ty)
    | struct ty => exact congrArg WasmCompositeTypeInner.struct (LawfulReferences.map_map g h ty)
  ext {a b} hs h := by
    cases a <;> cases b <;> first
      | exact congrArg _ (LawfulReferences.ext (WasmCompositeTypeInner.func.inj hs) h)
      | exact congrArg _ (LawfulReferences.ext (WasmCompositeTypeInner.array.inj hs) h)
      | exact congrArg _ (LawfulReferences.ext (WasmCompositeTypeInner.struct.inj hs) h)
      | cases hs

instance : LawfulReferences WasmCompositeType where
  references_map g t := references_map g t.inner
  map_map g h t := congrArg (fun ty => WasmCompositeType.mk ty t.shared)
    (LawfulReferences.map_map g h t.inner)
  ext {a b} hs h := by
    obtain ⟨hi, hs⟩ := WasmCompositeType.mk.inj hs
    exact congrArg₂ WasmCompositeType.mk (LawfulReferences.ext hi h) hs

instance : LawfulReferences WasmSubType where
  references_map g t := by
    simp only [references, mapReferences, List.map_append]
    exact congrArg₂ _ (references_map g t.supertype) (references_map g t.compositeType)
  map_map g h t := congrArg₂ (WasmSubType.mk t.isFinal) (LawfulReferences.map_map g h t.supertype)
    (LawfulReferences.map_map g h t.compositeType)
  ext {a b} hs h := by
    obtain ⟨hf, hp, hr⟩ := WasmSubType.mk.inj hs
    obtain ⟨hp, hr⟩ := ext_append hp hr h
    obtain ⟨isFinal, supertype, compositeType⟩ := a
    subst hf hp hr
    rfl

instance : LawfulReferences WasmRecGroup where
  references_map g t := references_map g t.types
  map_map g h t := congrArg WasmRecGroup.mk (LawfulReferences.map_map g h t.types)
  ext hs h := congrArg WasmRecGroup.mk (LawfulReferences.ext (WasmRecGroup.mk.inj hs) h)

end K23VM
